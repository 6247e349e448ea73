import SmartCO2.CycleRuns
import SmartCO2.Services

/-!
# The Wait for the Acknowledgement

When `coap_sending_process` leaves its wait, and what its flag says then.

The request of a cycle may outlive the cycle, and the post of the next one is then refused
while the old callback still writes the variables of the sending process. Nothing in the code
tells the two apart. The deadline is measured from `then`, a static variable that is never
assigned.

## Main results

* `ack_is_own`: an acknowledgement is that of the message of the same cycle in every run in
  which no successful callback arrives after a refused post.
* `timeout_iff`: the wait ends without an answer after five seconds exactly in the runs in
  which it is never tested, unanswered, between five seconds of uptime and five seconds after
  the post.
-/

namespace SmartCO2

variable {p : Platform} {inp : PassInput} {w w' : World}

/-! ### Waiting for an answer -/

/-- Where the sending process stands while it is suspended: its request is outstanding, or
was refused, with an older one outstanding perhaps; or the answer is there, and a good one is
that of its own request. -/
def AwaitsAck (w : World) : Prop :=
  ∃ r, (posts w.log).head? = some r ∧
    (w.sendDone = false →
      (∃ q : Request, r.accepted = some q.message ∧ w.coap.outstanding = [q]) ∨
        w.sendError ≠ .none ∧ (w.coap.outstanding ≠ [] → w.sendError = .busy)) ∧
    (w.sendDone = true → w.coap.outstanding = [] ∧
      (w.sendError = .none →
        ∃ id, r.accepted = some id ∧ .callback id .none ∈ since Obs.isPost w.log))

/-- It stands there as long as only others are active. -/
theorem AwaitsAck.mono (h : AwaitsAck w) (hdone : w'.sendDone = w.sendDone)
    (herror : w'.sendError = w.sendError) (hout : w'.coap.outstanding = w.coap.outstanding)
    {new : List Obs} (hlog : w'.log = new ++ w.log) (hnew : ∀ o ∈ new, o.isPost = false) :
    AwaitsAck w' := by
  obtain ⟨r, hr, hpending, hanswered⟩ := h
  refine ⟨r, ?_, ?_, ?_⟩
  · rw [hlog, posts_append hnew, hr]
  · rw [hdone, herror, hout]
    exact hpending
  · rw [hdone, herror, hout, hlog, since_append hnew]
    intro hd
    obtain ⟨hnil, hown⟩ := hanswered hd
    refine ⟨hnil, fun he => ?_⟩
    obtain ⟨id, hid, hmem⟩ := hown he
    exact ⟨id, hid, List.mem_append_right new hmem⟩

/-- A test of the wait. -/
def Obs.isTest : Obs → Bool
  | .tested .. => true
  | _ => false

/-- A test of the wait is one of the observations of the sending process. -/
theorem isTest_of_ofSender {o : Obs} (h : o.ofSender = false) : o.isTest = false := by
  cases o <;> first | rfl | cases h

/-- A wait that is left with a good answer is left with that of the last post. -/
def LastAck (o : Obs) (earlier : List Obs) : Prop :=
  ∀ time, o = .tested time true .none true → ∃ r id, (posts earlier).head? = some r ∧
    r.accepted = some id ∧ .callback id .none ∈ since Obs.isPost earlier

/-- What the runs keep: the wait, and the answers so far. -/
structure AckInvariant (w : World) : Prop where
  awaits : w.app.sendingProcessPt = some .ack → AwaitsAck w
  answers : Always LastAck w.log

/-- Only tests of the wait leave it. -/
theorem lastAck_of_isTest {o : Obs} (h : o.isTest = false) (earlier : List Obs) :
    LastAck o earlier := by
  rintro time rfl
  cases h

/-- What leaves the sending process alone keeps the invariant. -/
theorem AckInvariant.leaves (h : AckInvariant w) (hleaves : LeavesSender w w') :
    AckInvariant w' := by
  obtain ⟨new, hlog, hnew⟩ := hleaves.log
  refine ⟨fun hack => ?_, ?_⟩
  · have hawaits := h.awaits (hleaves.suspended.symm.trans hack)
    exact hawaits.mono hleaves.done hleaves.error hleaves.outstanding hlog
      fun o ho => isPost_of_ofSender (hnew o ho)
  · rw [hlog]
    exact h.answers.append fun o ho => lastAck_of_isTest (isTest_of_ofSender (hnew o ho))

/-! ### The sending process -/

/-- After a post, the sending process waits. -/
theorem senderPost_awaits (h : Services w) (hdone : w.sendDone = false) {l : SenderWait}
    (hwait : (senderPost inp w).2 = .wait l) : AwaitsAck (senderPost inp w).1 := by
  rw [senderPost] at hwait ⊢
  split at hwait
  · exact absurd hwait (by simp)
  · next hclient =>
      obtain ⟨error, svc, mem, heq, hcase⟩ := coapSchedulePost_cases w.coap w.mem w.app.message
        (UInt16.ofInt w.messageSize) .sender .sender inp.post
      simp only [hclient, heq]
      have hidle := fun hbusy => h.request.outstanding_eq_nil hbusy
      have hnot : ∀ e, ¬ (w.mem.setError .sender e).bool .sender = true := by
        intro e he
        exact absurd (hdone.symm.trans he) Bool.false_ne_true
      rcases hcase with ⟨-, rfl, rfl, rfl⟩ | ⟨hbusy, herror, rfl, rfl⟩ |
        ⟨hbusy, -, -, ⟨rfl, rfl, q, hq, hout⟩ | ⟨herror, hout, rfl⟩⟩
      · refine ⟨_, rfl, fun _ => Or.inr ?_, fun hd => absurd hd (hnot _)⟩
        simp [World.note, World.sendError]
      · refine ⟨_, rfl, fun _ => Or.inr ?_, fun hd => absurd hd (hnot _)⟩
        simp [World.note, World.sendError, herror, hidle hbusy]
      · refine ⟨_, rfl, fun _ => Or.inl ⟨q, ?_, ?_⟩, fun hd => ?_⟩
        · simp [hq]
        · simp [World.note, hout, hidle hbusy]
        · simp [World.note, World.sendDone] at hd
      · refine ⟨_, rfl, fun hd => ?_, fun _ => ⟨hout.trans (hidle hbusy), fun he => ?_⟩⟩
        · simp [World.note, World.sendDone] at hd
        · simp [World.note, World.sendError, herror] at he

/-- The assertion at a jump of the sending process. -/
def SenderWaits (j : Jump SenderWait) (w : World) : Prop :=
  (∀ l, j = .wait l → AwaitsAck w) ∧ Always LastAck w.log

/-- The test of the wait: an answer that is there is that of the last post. -/
theorem senderGuard_waits {l : SenderWait} (h : SenderWaits (.wait l) w) :
    SenderWaits (.wait l) (senderGuard l w).1 := by
  obtain ⟨hawaits, hanswers⟩ := h
  have hw := hawaits l rfl
  rw [senderGuard]
  cases hdone : w.sendDone with
  | true =>
      rw [if_pos rfl]
      refine ⟨fun _ _ => ?_, always_cons.mpr ⟨fun time heq => ?_, hanswers⟩⟩
      · exact hw.mono rfl rfl rfl (List.singleton_append).symm (by simp [Obs.isPost])
      · obtain ⟨r, hr, -, hanswered⟩ := hw
        have hgood : w.sendError = .none := by
          injection heq
        obtain ⟨id, hid, hmem⟩ := (hanswered hdone).2 hgood
        exact ⟨r, id, hr, hid, hmem⟩
  | false =>
      obtain ⟨clock, htick⟩ := w.tick_eq
      simp only [Bool.false_eq_true, if_false, World.now, htick]
      refine ⟨fun _ _ => ?_, always_cons.mpr ⟨?_, hanswers⟩⟩
      · exact hw.mono rfl rfl rfl (List.singleton_append).symm (by simp [Obs.isPost])
      · rintro time heq
        cases heq

/-- The block after the wait logs no test. -/
theorem senderBody_waits {l : SenderWait} (h : SenderWaits (.wait l) w) :
    SenderWaits (senderBody l w).2 (senderBody l w).1 := by
  obtain ⟨reports, hreport, hreports⟩ := senderReport_eq w
  simp only [senderBody, hreport]
  refine ⟨fun l hl => absurd hl (by simp), always_cons.mpr ⟨lastAck_of_isTest rfl _, ?_⟩⟩
  refine h.2.append fun o ho => lastAck_of_isTest ?_
  rcases hreports o ho with rfl | rfl <;> rfl

/-- A call of the sending process keeps the invariant. -/
theorem AckInvariant.runSender (hs : Services w) (h : AckInvariant w)
    (hrun : runSender p inp w = some w') : AckInvariant w' := by
  rcases runSender_cases hrun with ⟨-, rfl⟩ | ⟨-, -, w₁, j, hresume, rfl⟩
  · exact h
  · have hkeeps : (coapSendingProcess p inp).Keeps SenderWaits :=
      Protothread.Keeps.of_tests (fun _ _ hs => senderGuard_waits hs)
        (fun _ _ hs => senderBody_waits hs)
        (fun _ _ _ _ hs => ⟨fun _ hl => absurd hl (by simp), hs.2⟩)
    have hj : SenderWaits j w₁ := by
      refine hkeeps.resume ?_ ?_ hresume
      · intro _
        obtain ⟨clock, hbuild⟩ := senderBuild_eq p w
        obtain ⟨r, hlog, -, -⟩ := coapSendingProcess_entry p inp w
        have hreset : (senderBuild p w).sendDone = false := by
          rw [hbuild]
          simp [World.sendDone]
        refine ⟨fun l hl => senderPost_awaits hs.senderBuild hreset hl, ?_⟩
        rw [hlog]
        exact always_cons.mpr ⟨lastAck_of_isTest rfl _, h.answers⟩
      · intro l hl
        exact ⟨fun _ _ => h.awaits hl, h.answers⟩
    refine ⟨fun hack => ?_, hj.2⟩
    cases j with
    | wait l => exact hj.1 l rfl
    | _ => exact absurd hack (by simp [Jump.continuation])

/-! ### Callbacks -/

/-- The event is no successful callback of a request while the sending process waits after a
post that was refused because another request is outstanding. -/
def NoStaleSuccess (w : World) (e : Event) : Prop :=
  ∀ i response, e = .callback i .none response →
    ¬ (w.app.sendingProcessPt = some .ack ∧ w.sendError = .busy)

instance (w : World) (e : Event) : Decidable (NoStaleSuccess w e) :=
  match e with
  | .callback _ .none _ =>
      decidable_of_iff (¬ (w.app.sendingProcessPt = some .ack ∧ w.sendError = .busy))
        ⟨fun h _ _ _ => h, fun h => h _ _ rfl⟩
  | .callback _ .failed _ | .callback _ .noBufs _ | .callback _ .busy _ | .callback _ .abort _
  | .callback _ (.other _) _ | .pass _ | .clock _ | .role .. | .autostart _
  | .browseResult .. | .timer => isTrue fun _ _ heq => (nomatch heq)

/-- **The callback of a request** ends the wait with the answer of the last post, unless it is
a stale success. -/
theorem AckInvariant.requestCallback (hs : Services w) (h : AckInvariant w) {i : ℕ} {q : Request}
    (hq : w.coap.outstanding[i]? = some q) (error : OtError) (response : Bool)
    (hfresh : NoStaleSuccess w (.callback i error response)) :
    AckInvariant (requestCallback w i q error response) := by
  obtain ⟨svc, hone, hout, -, heq⟩ := hs.requestCallback_eq hq error response
  rw [heq]
  refine ⟨fun hack => ?_, always_cons.mpr ⟨lastAck_of_isTest rfl _, h.answers⟩⟩
  obtain ⟨r, hr, hpending, hanswered⟩ := h.awaits hack
  have hdone : w.sendDone = false := by
    cases hd : w.sendDone with
    | false => rfl
    | true =>
        have hnil := (hanswered hd).1
        rw [hone] at hnil
        exact absurd hnil (by simp)
  refine ⟨r, hr, fun hd => ?_, fun _ => ⟨hout, fun he => ?_⟩⟩
  · simp [World.note, World.sendDone] at hd
  · have hgood : error = .none := by simpa [World.note, World.sendError] using he
    subst hgood
    rcases hpending hdone with ⟨q', hacc, hout'⟩ | ⟨-, hbusy⟩
    · obtain rfl : q' = q := by
        rw [hone] at hout'
        exact (List.cons.inj hout').1.symm
      exact ⟨q'.message, hacc, List.mem_cons_self⟩
    · have hne : w.coap.outstanding ≠ [] := by simp [hone]
      exact absurd ⟨hack, hbusy hne⟩ (hfresh i response rfl)

/-- **The wait in runs** whose callbacks are no stale successes. -/
theorem ackInvariant_senderRule (p : Platform) : SenderRule p NoStaleSuccess AckInvariant where
  leaves hleaves h := h.leaves hleaves
  sender hs h hrun := h.runSender hs hrun
  request error response hs hC hr h := h.requestCallback hs hr error response hC

/-- The firmware boots into the invariant. -/
theorem boot_ackInvariant (now : UInt32) : AckInvariant (boot now) :=
  ⟨fun h => absurd h (by simp [boot]), trivial⟩

/-! ### Whose acknowledgement it is -/

/-- A wait that is left with a good answer is left with that of the message of its cycle:
OpenThread accepted it, and called it back since the post without an error. -/
def OwnAck (o : Obs) (earlier : List Obs) : Prop :=
  ∀ time, o = .tested time true .none true → ∃ r id, posts (thisCycle earlier) = [r] ∧
    r.accepted = some id ∧ .callback id .none ∈ since Obs.isPost earlier

/-- A test belongs to a cycle with one post. -/
theorem posts_of_tested {o : Obs} {earlier : List Obs} {c : Cycle}
    (hstate : (cycleMonitor p).state earlier = some c) (hallows : c.Allows p o) {time : UInt32}
    {done : Bool} {error : OtError} {left : Bool} (ho : o = .tested time done error left) :
    ∃ r, posts (thisCycle earlier) = [r] := by
  subst ho
  obtain ⟨r, hr⟩ := Option.isSome_iff_exists.mp hallows
  have hposts := posts_thisCycle hstate
  rw [hr] at hposts
  exact ⟨r, hposts⟩

/-- **Acknowledgements.** In every run in which no successful callback arrives while the
sending process waits after a post that was refused as busy, a wait that is left with its flag
true and no error is left with the acknowledgement of the message of the same cycle. -/
theorem ack_is_own (p : Platform) (now : UInt32) (es : List Event) {w : World}
    (hC : (firmware p).EachStep (fun w e _ => NoStaleSuccess w e) (boot now) es)
    (hrun : (firmware p).run (boot now) es = some w) : Always OwnAck w.log := by
  have hack : Always LastAck w.log :=
    ((ackInvariant_senderRule p).runRule.run ⟨boot_services now, boot_ackInvariant now⟩ hC
      hrun).2.answers
  obtain ⟨c, hacc, -⟩ := firmware_accepted hrun
  have hcycle : Always (fun o earlier => ∀ time, o = .tested time true .none true →
      ∃ r, posts (thisCycle earlier) = [r]) w.log :=
    always_of_allows hacc fun _ _ _ hstate hallows _ ho => posts_of_tested hstate hallows ho
  refine (hack.and hcycle).imp ?_
  rintro o earlier ⟨hlast, hposts⟩ time ho
  obtain ⟨r, hr⟩ := hposts time ho
  obtain ⟨r', id, hhead, hid, hmem⟩ := hlast time ho
  obtain rfl : r = r' := Option.some.inj ((head?_posts hr).symm.trans hhead)
  exact ⟨r, id, hr, hid, hmem⟩

/-- The first cycle. -/
theorem first_ack_is_own : ∃ w,
    (firmware (.configured parseLoopback)).run (boot 0) firstCycle = some w ∧
      Always OwnAck w.log :=
  ⟨_, rfl, ack_is_own (.configured parseLoopback) 0 firstCycle (by decide) rfl⟩

/-- Two cycles around the wrap of the clock. The first post is accepted, its wait ends at once
without an answer; the second post is refused, and its wait ends with the answer to the
first. -/
theorem ack_of_earlier_post : ∃ w,
    (firmware (.configured parseLoopback)).run (boot 0)
        (connecting 4294958296 measuring ++ [.pass measuring, .timer, .clock 4000,
          .pass measuring, .clock 4002, .pass measuring, .clock 4004, .pass measuring,
          .callback 0 .none false, .pass measuring]) = some w ∧
      ¬ Always OwnAck w.log := by
  refine ⟨_, rfl, fun h => ?_⟩
  obtain ⟨r, id, hr, hid, -⟩ := h.2.1 4004 rfl
  have hrefused : [none] = [r.accepted] := congrArg (List.map PostRecord.accepted) hr
  rw [hid] at hrefused
  exact absurd hrefused (by simp)

/-! ### The time-out -/

/-- A test of the wait that finds no answer passes from five seconds of uptime on. -/
def LeftFromUptime (o : Obs) (_ : List Obs) : Prop :=
  ∀ time error left, o = .tested time false error left → (left = true ↔ 5000 ≤ time.toNat)

/-- What the runs keep: `then` is never assigned, so the uptime is tested. -/
structure TestsUptime (w : World) : Prop where
  unassigned : w.senderThen = 0
  tests : Always LeftFromUptime w.log

/-- Only tests of the wait leave it. -/
theorem leftFromUptime_of_isTest {o : Obs} (h : o.isTest = false) (earlier : List Obs) :
    LeftFromUptime o earlier := by
  rintro time error left rfl
  cases h

/-- What leaves the sending process alone keeps the invariant. -/
theorem TestsUptime.leaves (h : TestsUptime w) (hleaves : LeavesSender w w') :
    TestsUptime w' := by
  obtain ⟨new, hlog, hnew⟩ := hleaves.log
  refine ⟨hleaves.senderThen.trans h.unassigned, ?_⟩
  rw [hlog]
  exact h.tests.append fun o ho => leftFromUptime_of_isTest (isTest_of_ofSender (hnew o ho))

/-- The deadline of an unassigned `then` is five seconds of uptime. -/
theorem deadline_iff (time : UInt32) : 5000 ≤ time.toUInt64 - 0 ↔ 5000 ≤ time.toNat := by
  rw [UInt64.sub_zero, UInt64.le_iff_toNat_le, UInt32.toNat_toUInt64]
  rfl

/-- The test of the wait. -/
theorem senderGuard_uptime (l : SenderWait) (h : TestsUptime w) :
    TestsUptime (senderGuard l w).1 := by
  obtain ⟨hthen, htests⟩ := h
  rw [senderGuard]
  cases hdone : w.sendDone with
  | true =>
      rw [if_pos rfl]
      refine ⟨hthen, always_cons.mpr ⟨?_, htests⟩⟩
      rintro time error left heq
      cases heq
  | false =>
      obtain ⟨clock, htick⟩ := w.tick_eq
      simp only [Bool.false_eq_true, if_false, World.now, htick, hthen]
      refine ⟨rfl, always_cons.mpr ⟨fun time error left heq => ?_, htests⟩⟩
      obtain ⟨rfl, -, rfl, rfl⟩ := Obs.tested.inj heq
      rw [decide_eq_true_iff]
      exact deadline_iff clock.now

/-- The block after the wait. -/
theorem senderBody_uptime (l : SenderWait) (h : TestsUptime w) :
    TestsUptime (senderBody l w).1 := by
  obtain ⟨reports, hreport, hreports⟩ := senderReport_eq w
  simp only [senderBody, hreport]
  refine ⟨h.1, always_cons.mpr ⟨leftFromUptime_of_isTest rfl _, ?_⟩⟩
  refine h.2.append fun o ho => leftFromUptime_of_isTest ?_
  rcases hreports o ho with rfl | rfl <;> rfl

/-- A call of the sending process. -/
theorem TestsUptime.runSender (h : TestsUptime w) (hrun : runSender p inp w = some w') :
    TestsUptime w' := by
  rcases runSender_cases hrun with ⟨-, rfl⟩ | ⟨-, -, w₁, j, hresume, rfl⟩
  · exact h
  · have hkeeps : (coapSendingProcess p inp).Keeps fun _ s => TestsUptime s :=
      Protothread.Keeps.of_tests (fun l _ hs => senderGuard_uptime l hs)
        (fun l _ hs => senderBody_uptime l hs) (fun _ _ _ _ hs => hs)
    have hj : TestsUptime w₁ := by
      refine hkeeps.resume (fun _ => ?_) (fun _ _ => h) hresume
      obtain ⟨r, hlog, -, hthen⟩ := coapSendingProcess_entry p inp w
      refine ⟨hthen.trans h.unassigned, ?_⟩
      rw [hlog]
      exact always_cons.mpr ⟨leftFromUptime_of_isTest rfl _, h.tests⟩
    exact ⟨hj.unassigned, hj.tests⟩

/-- **The tested uptime in runs.** -/
theorem testsUptime_senderRule (p : Platform) :
    SenderRule p (fun _ _ => True) TestsUptime where
  leaves hleaves h := h.leaves hleaves
  sender _ h hrun := h.runSender hrun
  request error response hs _ hr h := by
    obtain ⟨svc, -, -, -, heq⟩ := hs.requestCallback_eq hr error response
    rw [heq]
    exact ⟨h.unassigned, always_cons.mpr ⟨leftFromUptime_of_isTest rfl _, h.tests⟩⟩

/-- A wait that is left without an answer is left five seconds after the post of its cycle. -/
def TimelyTimeout (o : Obs) (earlier : List Obs) : Prop :=
  ∀ time error, o = .tested time false error true →
    ∃ r, posts (thisCycle earlier) = [r] ∧ r.time.toNat + 5000 ≤ time.toNat

/-- A test that finds no answer is made before five seconds of uptime, or five seconds after
the post of its cycle. -/
def TimelyTest (o : Obs) (earlier : List Obs) : Prop :=
  ∀ time error left, o = .tested time false error left → ∀ r, posts (thisCycle earlier) = [r] →
    time.toNat < 5000 ∨ r.time.toNat + 5000 ≤ time.toNat

/-- **Time-outs.** In every run, the wait is left without an answer only five seconds after
the post exactly if no test finds the answer missing after five seconds of uptime and within
five seconds of the post. -/
theorem timeout_iff (p : Platform) (now : UInt32) (es : List Event) {w : World}
    (hrun : (firmware p).run (boot now) es = some w) :
    Always TimelyTimeout w.log ↔ Always TimelyTest w.log := by
  have huptime : Always LeftFromUptime w.log :=
    ((testsUptime_senderRule p).runRule.run_all ⟨boot_services now, rfl, trivial⟩ hrun).2.tests
  obtain ⟨c, hacc, -⟩ := firmware_accepted hrun
  have hcycle : Always (fun o earlier => ∀ time done error left, o = .tested time done error left →
      ∃ r, posts (thisCycle earlier) = [r]) w.log :=
    always_of_allows hacc fun _ _ _ hstate hallows _ _ _ _ ho => posts_of_tested hstate hallows ho
  constructor
  · intro htimely
    refine ((htimely.and huptime).imp ?_)
    rintro o earlier ⟨htimeout, hleft⟩ time error left rfl r hr
    by_cases hlate : 5000 ≤ time.toNat
    · obtain rfl : left = true := (hleft time error left rfl).mpr hlate
      obtain ⟨r', hr', htime⟩ := htimeout time error rfl
      obtain rfl : r = r' := (List.cons.inj (hr.symm.trans hr')).1
      exact Or.inr htime
    · exact Or.inl (Nat.lt_of_not_le hlate)
  · intro htests
    refine (((htests.and huptime).and hcycle).imp ?_)
    rintro o earlier ⟨⟨htest, hleft⟩, hposts⟩ time error rfl
    obtain ⟨r, hr⟩ := hposts time false error true rfl
    have hlate : 5000 ≤ time.toNat := (hleft time error true rfl).mp rfl
    rcases htest time error true rfl r hr with hearly | htime
    · omega
    · exact ⟨r, hr, htime⟩

/-- The first cycle. -/
theorem first_timeout_iff : ∃ w,
    (firmware (.configured parseLoopback)).run (boot 0) firstCycle = some w ∧
      (Always TimelyTimeout w.log ↔ Always TimelyTest w.log) :=
  ⟨_, rfl, timeout_iff (.configured parseLoopback) 0 firstCycle rfl⟩

/-- After five seconds of uptime the wait is left at once, at the time of the post. -/
theorem timeout_at_once : ∃ w,
    (firmware (.configured parseLoopback)).run (boot 0)
        (connecting 5000 measuring ++ [.pass measuring]) = some w ∧
      ¬ Always TimelyTimeout w.log := by
  refine ⟨_, rfl, fun h => ?_⟩
  obtain ⟨r, hr, htime⟩ := h.2.2.1 8000 .none rfl
  have hpost : [8000] = [r.time] := congrArg (List.map PostRecord.time) hr
  rw [← (List.cons.inj hpost).1] at htime
  exact absurd htime (by decide)

end SmartCO2
