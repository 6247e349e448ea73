import SmartCO2.Library.Protothread
import SmartCO2.World

/-!
# The Sending Process

The model of `build_message` and `coap_sending_process`. The process formats the measurement
in `_app`, posts it, waits for the acknowledgement or a time-out and resets the done flags
and `run` for the next cycle.

The time of a post is the clock at the call. The code does not read it; the log does.
-/

namespace SmartCO2

/-- `build_message`: the returned size and the content of `app->message` afterwards. -/
def buildMessage (p : Platform) (message : List UInt8) (co2 rh temp : ℤ) : ℤ × List UInt8 :=
  let r := snprintf appMessageMaxLen (p.format co2 rh temp) message
  if r.1 < 0 ∨ r.1 ≥ appMessageMaxLen then (-1, r.2) else r

section Thread

variable (p : Platform) (inp : PassInput)

/-- From `PT_BEGIN` to the call of `coap_schedule_post`: build the message and reset the
result variables. -/
def senderBuild (w : World) : World :=
  let r := buildMessage p w.app.message w.app.co2 w.app.rh w.app.temp
  let w := { w with messageSize := r.1, app.message := r.2 }
  let w := { w with mem := (w.mem.setBool .sender false).setError .sender .none }
  w.tick

/-- The call of `coap_schedule_post`, up to the wait. The size goes through a `uint16_t`
parameter. A post with a `NULL` client is undefined. -/
def senderPost (w : World) : World × Jump SenderWait :=
  let size := UInt16.ofInt w.messageSize
  let record := PostRecord.mk w.app.coap w.app.message size w.clock.now w.app.connected
  match w.app.coap with
  | .null => (w.note (.post (record none)), .stuck)
  | .client =>
      let r := coapSchedulePost w.coap w.mem w.app.message size .sender .sender inp.post
      let accepted := if r.1 = .none then some w.coap.allocated else none
      let w := { w with coap := r.2.1, mem := r.2.2.setError .sender r.1 }
      (w.note (.post (record accepted)), .wait .ack)

/-- The condition of the wait, `done || (NOW() - then) >= 5000`. -/
def senderGuard (_ : SenderWait) (w : World) : World × Option Bool :=
  if w.sendDone then
    (w.note (.tested w.clock.now true w.sendError true), some true)
  else
    let (t, w) := w.now
    let left := decide (5000 ≤ t.toUInt64 - w.senderThen)
    (w.note (.tested t false w.sendError left), some left)

/-- The two messages after the wait. -/
def senderReport (w : World) : World :=
  let w := if w.sendDone then w else w.note .timedOut
  if w.appError ≠ .none then w.note .coapError else w

/-- The block after the wait. -/
def senderBody (_ : SenderWait) (w : World) : World × Jump SenderWait :=
  let w := senderReport w
  let w :=
    { w with
      app.pThreadDone1 := false
      app.pThreadDone2 := false
      app.pThreadDone3 := false
      app.pThreadDone4 := false
      run := false }
  (w.note .cycleEnded, .finish)

/-- `coap_sending_process` -/
def coapSendingProcess : Protothread SenderWait World where
  entry w := senderPost inp (senderBuild p w)
  guard := senderGuard
  body := senderBody

end Thread

/-- What is built before the post. -/
theorem senderBuild_eq (p : Platform) (w : World) :
    ∃ clock, senderBuild p w =
      { w with
        messageSize := (buildMessage p w.app.message w.app.co2 w.app.rh w.app.temp).1
        app.message := (buildMessage p w.app.message w.app.co2 w.app.rh w.app.temp).2
        mem := (w.mem.setBool .sender false).setError .sender .none
        clock := clock } := by
  obtain ⟨clock, htick⟩ := World.tick_eq
    { w with
      messageSize := (buildMessage p w.app.message w.app.co2 w.app.rh w.app.temp).1
      app.message := (buildMessage p w.app.message w.app.co2 w.app.rh w.app.temp).2
      mem := (w.mem.setBool .sender false).setError .sender .none }
  exact ⟨clock, htick⟩

/-- A new execution logs one post to the client in `_app`, and does not assign `then`. -/
theorem coapSendingProcess_entry (p : Platform) (inp : PassInput) (w : World) :
    ∃ r, ((coapSendingProcess p inp).entry w).1.log = .post r :: w.log ∧
      r.client = w.app.coap ∧
      ((coapSendingProcess p inp).entry w).1.senderThen = w.senderThen := by
  obtain ⟨clock, hbuild⟩ := senderBuild_eq p w
  simp only [coapSendingProcess, senderPost, hbuild]
  split <;> exact ⟨_, rfl, rfl, rfl⟩

/-- The messages are only logged. -/
theorem senderReport_eq (w : World) :
    ∃ notes, senderReport w = { w with log := notes ++ w.log } ∧
      ∀ o ∈ notes, o = .timedOut ∨ o = .coapError := by
  simp only [senderReport]
  split <;> split
  · exact ⟨[.coapError], rfl, by simp⟩
  · exact ⟨[], rfl, by simp⟩
  · exact ⟨[.coapError, .timedOut], rfl, by simp⟩
  · exact ⟨[.timedOut], rfl, by simp⟩

/-- The test of the wait only takes time and is logged. -/
theorem senderGuard_eq (l : SenderWait) (w : World) :
    ∃ clock notes, (senderGuard l w).1 = { w with clock := clock, log := notes ++ w.log } ∧
      ∀ o ∈ notes, ∃ time done error left, o = .tested time done error left := by
  obtain ⟨clock, htick⟩ := w.tick_eq
  rw [senderGuard]
  split
  · exact ⟨w.clock, [.tested _ _ _ _], rfl, fun o ho => ⟨_, _, _, _, List.mem_singleton.mp ho⟩⟩
  · simp only [World.now, htick]
    exact ⟨clock, [.tested _ _ _ _], rfl, fun o ho => ⟨_, _, _, _, List.mem_singleton.mp ho⟩⟩

/-- The test of the wait is logged with its outcome. -/
theorem senderGuard_log (l : SenderWait) (w : World) :
    ∃ time done error left, (senderGuard l w).1.log = .tested time done error left :: w.log ∧
      (senderGuard l w).2 = some left := by
  obtain ⟨clock, htick⟩ := w.tick_eq
  rw [senderGuard]
  split
  · exact ⟨_, _, _, _, rfl, rfl⟩
  · simp only [World.now, htick]
    exact ⟨_, _, _, _, rfl, rfl⟩

/-- **Resuming at the wait**: it is tested once, and if it is left, the cycle is over. Nothing
is posted. -/
theorem resume_ack {p : Platform} {inp : PassInput} {w w' : World} {j : Jump SenderWait}
    (h : (coapSendingProcess p inp).resume 1 (some .ack) w = some (w', j)) :
    ∃ time done error left notes,
      w'.log = notes ++ .tested time done error left :: w.log ∧
      ((left = false ∧ j = .wait .ack ∧ notes = []) ∨ (left = true ∧ j = .finish ∧
        ∃ reports, notes = .cycleEnded :: reports ∧
          ∀ o ∈ reports, o = .timedOut ∨ o = .coapError)) := by
  obtain ⟨time, done, error, left, hlog, hleft⟩ := senderGuard_log .ack w
  have htest : (coapSendingProcess p inp).guard .ack w = ((senderGuard .ack w).1, some left) :=
    Prod.ext rfl hleft
  rw [Protothread.resume, Protothread.follow, htest] at h
  cases left with
  | false =>
      obtain ⟨rfl, rfl⟩ := Prod.mk.inj (Option.some.inj h)
      exact ⟨time, done, error, false, [], hlog, Or.inl ⟨rfl, rfl, rfl⟩⟩
  | true =>
      obtain ⟨rfl, rfl⟩ := Prod.mk.inj (Option.some.inj h)
      obtain ⟨reports, hreport, hreports⟩ := senderReport_eq (senderGuard .ack w).1
      refine ⟨time, done, error, true, .cycleEnded :: reports, ?_,
        Or.inr ⟨rfl, rfl, reports, rfl, hreports⟩⟩
      simp only [coapSendingProcess, senderBody, hreport, World.note, hlog]
      rfl

/-! ### What the process leaves alone -/

/-- The sending process has the message, its client, its result variables and its size, and
resets the done flags and `run`. -/
def SenderFrame (w w' : World) : Prop :=
  ∃ message done₁ done₂ done₃ done₄ mem coap messageSize run clock new,
    w' = { w with app.message := message, app.pThreadDone1 := done₁, app.pThreadDone2 := done₂,
                  app.pThreadDone3 := done₃, app.pThreadDone4 := done₄, mem := mem,
                  coap := coap, messageSize := messageSize, run := run, clock := clock,
                  log := new ++ w.log }

namespace SenderFrame

/-- Nothing has happened. -/
theorem refl (w : World) : SenderFrame w w :=
  ⟨_, _, _, _, _, _, _, _, _, _, [], rfl⟩

/-- One after the other. -/
theorem trans {w₁ w₂ w₃ : World} (h : SenderFrame w₁ w₂) (h' : SenderFrame w₂ w₃) :
    SenderFrame w₁ w₃ := by
  obtain ⟨_, _, _, _, _, _, _, _, _, _, new, rfl⟩ := h
  obtain ⟨_, _, _, _, _, _, _, _, _, _, new', rfl⟩ := h'
  exact ⟨_, _, _, _, _, _, _, _, _, _, new' ++ new, by rw [List.append_assoc]⟩

/-- The post. -/
theorem entry (p : Platform) (inp : PassInput) (w : World) :
    SenderFrame w ((coapSendingProcess p inp).entry w).1 := by
  obtain ⟨clock, hbuild⟩ := senderBuild_eq p w
  simp only [coapSendingProcess, senderPost, hbuild]
  split <;> exact ⟨_, _, _, _, _, _, _, _, _, _, [_], rfl⟩

/-- The test of the wait. -/
theorem guard (l : SenderWait) (w : World) : SenderFrame w (senderGuard l w).1 := by
  obtain ⟨clock, notes, heq, -⟩ := senderGuard_eq l w
  rw [heq]
  exact ⟨_, _, _, _, _, _, _, _, _, _, notes, rfl⟩

/-- The end of a cycle. -/
theorem body (l : SenderWait) (w : World) : SenderFrame w (senderBody l w).1 := by
  obtain ⟨reports, heq, -⟩ := senderReport_eq w
  simp only [senderBody, heq]
  exact ⟨_, _, _, _, _, _, _, _, _, _, .cycleEnded :: reports, rfl⟩

end SenderFrame

/-- **The frame of the sending process.** -/
theorem coapSendingProcess_frame {p : Platform} {inp : PassInput} {fuel : ℕ}
    {lc : Option SenderWait} {w w' : World} {j : Jump SenderWait}
    (h : (coapSendingProcess p inp).resume fuel lc w = some (w', j)) : SenderFrame w w' := by
  have hkeeps : (coapSendingProcess p inp).Keeps fun _ s => SenderFrame w s := by
    refine Protothread.Keeps.of_tests ?_ ?_ (fun _ _ _ _ h => h)
    · exact fun l s h => h.trans (.guard l s)
    · exact fun l s h => h.trans (.body l s)
  exact hkeeps.resume (fun _ => .entry p inp w) (fun _ _ => .refl w) h

/-- **Every call of the process returns**, after one test at most. -/
theorem coapSendingProcess_isSome (p : Platform) (inp : PassInput) (lc : Option SenderWait)
    (w : World) : ((coapSendingProcess p inp).resume 1 lc w).isSome := by
  refine Protothread.resume_isSome (fun _ _ => 0) ?_ (fun _ _ => Nat.one_pos)
    (fun _ _ => Nat.one_pos)
  intro l s s' _ l' hbody
  exact absurd hbody (by simp [coapSendingProcess, senderBody])

end SmartCO2
