import SmartCO2.Library.Protothread
import SmartCO2.World

/-!
# The Connection Thread

The model of `nodeConnectThread`. The thread waits until the node is connected, brings up the
service discovery client once, looks for the server unless `_app.done` says that an answer is
there already, and brings up the CoAP client with the answer.

Every test of a `PT_SLEEP`, and what the thread learns and calls, is logged.

## Main results

* `nodeConnectThread_frame`: what the thread leaves alone.
* `nodeConnectThread_isSome`: with `nodeFuel` every call returns. Only the loop of the first
  wait can repeat within a call, and each repetition uses up a reading of the clock.
-/

namespace SmartCO2

/-! ### Waiting -/

/-- `PT_SLEEP(x)`, measured from `_app.then`. -/
def nodeSleep (l : NodeWait) (x : UInt64) (w : World) : World × Option Bool :=
  let (t, w) := w.now
  let passed := decide (x ≤ t.toUInt64 - w.app.thenTime)
  (w.note (.sleep l t passed), some passed)

/-- The conditions of the waits. `mdns_is_ready` of a `NULL` client is undefined. -/
def nodeGuard (l : NodeWait) (w : World) : World × Option Bool :=
  match l with
  | .connectSleep => nodeSleep l 10000 w
  | .mdnsReady =>
      match w.app.mdns with
      | .null => (w, none)
      | .client => (w, some (mdnsIsReady w.dns.client))
  | .answer =>
      if w.appDone then (w, some true)
      else
        let (t, w) := w.now
        (w, some (decide (15000 ≤ t.toUInt64 - w.app.thenTime)))
  | _ => nodeSleep l 1000 w

/-! ### Blocks -/

section Thread

variable (p : Platform) (inp : PassInput)

/-- Step 1: bring up the service discovery client unless there is one. -/
def nodeInitMdns (w : World) : World × Jump NodeWait :=
  match w.app.mdns with
  | .client => (w, .wait .searchSleep)
  | .null =>
      let r := mdnsInit w.dns p.serviceName inp.autostarts
      ({ w with dns := r.2, app.mdns := r.1 },
        match r.1 with
        | .null => .wait .mdnsRetrySleep
        | .client => .wait .mdnsInitSleep)

/-- Step 0, the head of the loop: go on when the node is connected, else sleep. -/
def nodeWaitConnected (w : World) : World × Jump NodeWait :=
  if w.app.connected then nodeInitMdns p inp (w.note .seenConnected)
  else (w, .wait .connectSleep)

/-- The end of the thread. -/
def nodeEnd (w : World) : World × Jump NodeWait :=
  (({ w with app.pThreadDone1 := true }).note .nodeEnded, .finish)

/-- Step 3: search for the server unless an answer is there already. -/
def nodeSearch (w : World) : World × Jump NodeWait :=
  if w.appDone then nodeEnd w
  else
    let w := { w with mem := (w.mem.setBool .app false).setError .app .none }
    let (t, w) := w.now
    let w := { w with app.thenTime := t.toUInt64 }
    match w.app.mdns with
    | .null => (w, .stuck)
    | .client =>
        let refused := w.dns.client.refuses
        let r := mdnsScheduleSearch w.dns w.mem .app .app .app inp.browse
        let w := { w with dns := r.2.1, mem := r.2.2 }
        (if refused then w else w.note (.browse inp.browse), .wait .launchSleep)

/-- Step 5: bring up the CoAP client with the answer unless there is one. -/
def nodeInitCoap (w : World) : World × Jump NodeWait :=
  match w.app.coap with
  | .client => nodeEnd w
  | .null =>
      let r := coapInit w.coap (w.mem.address .app) p.token inp.coapStart
      let w :=
        ({ w with coap := r.2, app.coap := r.1 }).note
          (.coapInit (decide (r.1 = ClientPtr.client)))
      match r.1 with
      | .null => (w, .restart)
      | .client => nodeEnd w

/-- The blocks after the waits. -/
def nodeBody : NodeWait → World → World × Jump NodeWait
  | .connectSleep, w =>
      let (t, w) := w.now
      nodeWaitConnected p inp { w with app.thenTime := t.toUInt64 }
  | .mdnsRetrySleep, w => (w, .restart)
  | .mdnsInitSleep, w => (w, .wait .mdnsReady)
  | .mdnsReady, w => (w, .wait .searchSleep)
  | .searchSleep, w => nodeSearch inp w
  | .launchSleep, w => (w, .wait .answer)
  | .answer, w => (w, .wait .answerSleep)
  | .answerSleep, w => (w, if w.appDone then .wait .resultSleep else .restart)
  | .resultSleep, w => if w.appError ≠ .none then (w, .restart) else nodeInitCoap p inp w

/-- `nodeConnectThread` -/
def nodeConnectThread : Protothread NodeWait World where
  entry := nodeWaitConnected p inp
  guard := nodeGuard
  body := nodeBody p inp

end Thread

/-- The tests only take time and log the sleeps. -/
theorem nodeGuard_eq (l : NodeWait) (w : World) :
    ∃ clock notes, (nodeGuard l w).1 = { w with clock := clock, log := notes ++ w.log } ∧
      ∀ o ∈ notes, ∃ time passed, o = .sleep l time passed := by
  obtain ⟨clock, htick⟩ := w.tick_eq
  have hsleep : ∀ x, ∃ clock notes,
      (nodeSleep l x w).1 = { w with clock := clock, log := notes ++ w.log } ∧
        ∀ o ∈ notes, ∃ time passed, o = .sleep l time passed := by
    intro x
    simp only [nodeSleep, World.now, htick]
    exact ⟨clock, [.sleep l clock.now _], rfl,
      fun o ho => ⟨clock.now, _, List.mem_singleton.mp ho⟩⟩
  cases l with
  | mdnsReady =>
      simp only [nodeGuard]
      split <;> exact ⟨w.clock, [], rfl, by simp⟩
  | answer =>
      simp only [nodeGuard]
      split
      · exact ⟨w.clock, [], rfl, by simp⟩
      · simp only [World.now, htick]
        exact ⟨clock, [], rfl, by simp⟩
  | _ => exact hsleep _

/-! ### What the thread leaves alone -/

/-- The connection thread has its done flag, the two clients and their result variables, and
the base of its sleeps. -/
def NodeFrame (w w' : World) : Prop :=
  ∃ done coapPtr mdnsPtr thenTime mem dns coap clock new,
    w' = { w with app.pThreadDone1 := done, app.coap := coapPtr, app.mdns := mdnsPtr,
                  app.thenTime := thenTime, mem := mem, dns := dns, coap := coap,
                  clock := clock, log := new ++ w.log }

namespace NodeFrame

/-- Nothing has happened. -/
theorem refl (w : World) : NodeFrame w w :=
  ⟨_, _, _, _, _, _, _, _, [], rfl⟩

/-- One after the other. -/
theorem trans {w₁ w₂ w₃ : World} (h : NodeFrame w₁ w₂) (h' : NodeFrame w₂ w₃) :
    NodeFrame w₁ w₃ := by
  obtain ⟨_, _, _, _, _, _, _, _, new, rfl⟩ := h
  obtain ⟨_, _, _, _, _, _, _, _, new', rfl⟩ := h'
  exact ⟨_, _, _, _, _, _, _, _, new' ++ new, by rw [List.append_assoc]⟩

/-- A test. -/
theorem guard (l : NodeWait) (w : World) : NodeFrame w (nodeGuard l w).1 := by
  obtain ⟨clock, notes, heq, -⟩ := nodeGuard_eq l w
  rw [heq]
  exact ⟨_, _, _, _, _, _, _, _, notes, rfl⟩

/-- The connection test. -/
theorem waitConnected (p : Platform) (inp : PassInput) (w : World) :
    NodeFrame w (nodeWaitConnected p inp w).1 := by
  rw [nodeWaitConnected]
  split
  · rw [nodeInitMdns]
    split <;> exact ⟨_, _, _, _, _, _, _, _, [.seenConnected], rfl⟩
  · exact refl w

/-- The search. -/
theorem search (inp : PassInput) (w : World) : NodeFrame w (nodeSearch inp w).1 := by
  obtain ⟨clock, htick⟩ := World.tick_eq
    { w with mem := (w.mem.setBool .app false).setError .app .none }
  simp only [nodeSearch, World.now, htick]
  split
  · exact ⟨_, _, _, _, _, _, _, _, [.nodeEnded], rfl⟩
  · split
    · exact ⟨_, _, _, _, _, _, _, _, [], rfl⟩
    · split
      · exact ⟨_, _, _, _, _, _, _, _, [], rfl⟩
      · exact ⟨_, _, _, _, _, _, _, _, [.browse inp.browse], rfl⟩

/-- The start of the CoAP client. -/
theorem initCoap (p : Platform) (inp : PassInput) (w : World) :
    NodeFrame w (nodeInitCoap p inp w).1 := by
  rw [nodeInitCoap]
  split
  · exact ⟨_, _, _, _, _, _, _, _, [.nodeEnded], rfl⟩
  · simp only
    split
    · exact ⟨_, _, _, _, _, _, _, _, [.coapInit _], rfl⟩
    · exact ⟨_, _, _, _, _, _, _, _, [.nodeEnded, .coapInit _], rfl⟩

/-- The blocks of the thread. -/
theorem body (p : Platform) (inp : PassInput) (l : NodeWait) (w : World) :
    NodeFrame w (nodeBody p inp l w).1 := by
  cases l with
  | connectSleep =>
      obtain ⟨clock, htick⟩ := w.tick_eq
      have hcaught : NodeFrame w { w with clock := clock, app.thenTime := clock.now.toUInt64 } :=
        ⟨_, _, _, _, _, _, _, _, [], rfl⟩
      simp only [nodeBody, World.now, htick]
      exact hcaught.trans (waitConnected p inp _)
  | searchSleep => exact search inp w
  | resultSleep =>
      rw [nodeBody]
      split
      · exact refl w
      · exact initCoap p inp w
  | _ => exact refl w

end NodeFrame

/-- **The frame of the connection thread.** -/
theorem nodeConnectThread_frame {p : Platform} {inp : PassInput} {fuel : ℕ}
    {lc : Option NodeWait} {w w' : World} {j : Jump NodeWait}
    (h : (nodeConnectThread p inp).resume fuel lc w = some (w', j)) : NodeFrame w w' := by
  have hkeeps : (nodeConnectThread p inp).Keeps fun _ s => NodeFrame w s := by
    refine Protothread.Keeps.of_tests ?_ ?_ (fun _ _ _ _ h => h)
    · exact fun l s h => h.trans (.guard l s)
    · exact fun l s h => h.trans (.body p inp l s)
  exact hkeeps.resume (fun _ => .waitConnected p inp w) (fun _ _ => .refl w) h

/-! ### Every call returns -/

/-- A bound on the tests of a call of `nodeConnectThread`. -/
def nodeFuel (w : World) : ℕ := 2 * w.clock.ahead.length + 10

/-- A bound on the tests that follow a passed wait. Before `connectSleep` is passed again,
either a reading has been used up, or the thread has caught up with the clock. -/
def nodeRank : NodeWait → World → ℕ
  | .connectSleep, w =>
      8 + 2 * w.clock.ahead.length + if w.app.thenTime = w.clock.now.toUInt64 then 0 else 1
  | .mdnsInitSleep, _ => 7
  | .mdnsReady, _ => 6
  | .searchSleep, _ => 5
  | .launchSleep, _ => 4
  | .answer, _ => 3
  | .answerSleep, _ => 2
  | .resultSleep, _ => 1
  | .mdnsRetrySleep, _ => 0

variable {p : Platform} {inp : PassInput}

/-- Past the connection test, at most seven tests follow. -/
theorem nodeInitMdns_rank {w : World} {l : NodeWait}
    (h : (nodeInitMdns p inp w).2 = .wait l) (w' : World) : nodeRank l w' < 8 := by
  rw [nodeInitMdns] at h
  split at h
  · obtain rfl := Jump.wait.inj h
    simp [nodeRank]
  · simp only at h
    split at h <;>
      · obtain rfl := Jump.wait.inj h
        simp [nodeRank]

/-- The connection test leads to no more tests than its own wait. -/
theorem nodeWaitConnected_rank {w : World} {l : NodeWait}
    (h : (nodeWaitConnected p inp w).2 = .wait l) :
    nodeRank l (nodeWaitConnected p inp w).1 ≤ nodeRank .connectSleep w := by
  rw [nodeWaitConnected] at h ⊢
  split
  · next hconn =>
      rw [if_pos hconn] at h
      have hlt := nodeInitMdns_rank h (nodeInitMdns p inp (w.note .seenConnected)).1
      rw [nodeRank]
      omega
  · next hconn =>
      rw [if_neg hconn] at h
      obtain rfl := Jump.wait.inj h
      exact le_rfl

/-- The thread has caught up with the clock. -/
theorem catchUp_rank (w : World) :
    nodeRank .connectSleep { w.tick with app.thenTime := w.tick.clock.now.toUInt64 } =
      8 + 2 * (w.clock.ahead.length - 1) := by
  simp [nodeRank, World.tick_ahead_length]

/-- The first wait is only passed again after time went on. -/
theorem connectSleep_rank {w w' : World} {l : NodeWait}
    (hguard : nodeGuard .connectSleep w = (w', some true))
    (hbody : (nodeBody p inp .connectSleep w').2 = .wait l) :
    nodeRank l (nodeBody p inp .connectSleep w').1 < nodeRank .connectSleep w := by
  obtain ⟨hw', hpassed⟩ := Prod.mk.inj hguard
  have hle : nodeRank l (nodeBody p inp .connectSleep w').1 ≤
      nodeRank .connectSleep { w'.tick with app.thenTime := w'.tick.clock.now.toUInt64 } :=
    nodeWaitConnected_rank hbody
  have hahead : w'.clock.ahead.length = w.clock.ahead.length - 1 := by
    rw [← hw']
    exact w.tick_ahead_length
  rw [catchUp_rank, hahead] at hle
  rw [nodeRank]
  by_cases hnil : w.clock.ahead = []
  · have hstale : w.app.thenTime ≠ w.clock.now.toUInt64 := by
      intro heq
      rw [World.tick_of_ahead_nil hnil, heq] at hpassed
      exact absurd hpassed (by simp)
    rw [if_neg hstale]
    rw [hnil, List.length_nil] at hle ⊢
    omega
  · have hpos : 0 < w.clock.ahead.length := List.length_pos_of_ne_nil hnil
    omega

/-- A search leads to the wait for its launch. -/
theorem nodeSearch_wait {w : World} {l : NodeWait} (h : (nodeSearch inp w).2 = .wait l) :
    l = .launchSleep := by
  rw [nodeSearch] at h
  split at h
  · exact absurd h (by simp [nodeEnd])
  · simp only at h
    split at h
    · exact absurd h (by simp)
    · exact (Jump.wait.inj h).symm

/-- The last block leads to no wait. -/
theorem nodeInitCoap_not_wait (w : World) (l : NodeWait) :
    (nodeInitCoap p inp w).2 ≠ .wait l := by
  rw [nodeInitCoap]
  split
  · simp [nodeEnd]
  · simp only
    split <;> simp [nodeEnd]

/-- Every passed wait leads to one of a lower rank. -/
theorem nodeRank_lt {w w' : World} {l l' : NodeWait}
    (hguard : nodeGuard l w = (w', some true))
    (hbody : (nodeBody p inp l w').2 = .wait l') :
    nodeRank l' (nodeBody p inp l w').1 < nodeRank l w := by
  cases l with
  | connectSleep => exact connectSleep_rank hguard hbody
  | mdnsRetrySleep => exact absurd hbody (by simp [nodeBody])
  | searchSleep =>
      obtain rfl := nodeSearch_wait hbody
      simp [nodeRank]
  | answerSleep =>
      simp only [nodeBody] at hbody
      split at hbody
      · obtain rfl := Jump.wait.inj hbody
        simp [nodeRank]
      · exact absurd hbody (by simp)
  | resultSleep =>
      rw [nodeBody] at hbody
      split at hbody
      · exact absurd hbody (by simp)
      · exact absurd hbody (nodeInitCoap_not_wait w' l')
  | mdnsInitSleep | mdnsReady | launchSleep | answer =>
      obtain rfl := Jump.wait.inj hbody
      simp [nodeRank]

/-- The rank of any wait is below the bound. -/
theorem nodeRank_lt_fuel (l : NodeWait) (w : World) : nodeRank l w < nodeFuel w := by
  cases l <;> simp only [nodeRank, nodeFuel]
  case connectSleep =>
    split <;> omega
  all_goals omega

/-- **Every call of the thread returns.** -/
theorem nodeConnectThread_isSome (p : Platform) (inp : PassInput) (lc : Option NodeWait)
    (w : World) : ((nodeConnectThread p inp).resume (nodeFuel w) lc w).isSome := by
  refine Protothread.resume_isSome nodeRank
    (fun l s s' hguard l' hbody => nodeRank_lt hguard hbody) ?_ (fun l _ => nodeRank_lt_fuel l w)
  intro l hentry
  have hle : nodeRank l (nodeWaitConnected p inp w).1 ≤ nodeRank .connectSleep w :=
    nodeWaitConnected_rank hentry
  exact lt_of_le_of_lt hle (nodeRank_lt_fuel .connectSleep w)

end SmartCO2
