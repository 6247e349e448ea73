import SmartCO2.Cycle
import SmartCO2.Pass

/-!
# The Firmware Follows the Protocol

The log of every run of the firmware is accepted by `cycleMonitor`. The simulation relation
`Tracks` says how the flags and the saved continuations of the three threads carry the state
of the monitor: a thread whose done flag is set is rewound, a thread past its connection test
has seen the node connected, and the sending process is suspended exactly while the cycle has
a post.

## Main results

* `firmware_accepted`: the log of every run is accepted.
-/

namespace SmartCO2

variable {p : Platform} {inp : PassInput} {w : World}

/-! ### The simulation relation -/

/-- The state of the monitor as the firmware holds it, the threads being suspended at the
given continuations. -/
structure Tracks (p : Platform) (node : Option NodeWait) (sensor : Option SensorWait)
    (sender : Option SenderWait) (w : World) (c : Cycle) : Prop where
  accepted : (cycleMonitor p).state w.log = some c
  connected : c.connected = w.app.connected
  triple : c.triple = w.triple
  nodeDone : c.node = w.app.pThreadDone1
  sensorDone : c.sensor = w.app.pThreadDone3
  measured : c.measured = true → c.sensor = true
  seen : ∀ l, node = some l → l ≠ .connectSleep → c.seen = true
  nodeRewound : c.node = true → node = none
  sensorRewound : c.sensor = true → sensor = none
  posted : c.post.isSome = sender.isSome

/-- An allowed observation is accepted. -/
theorem state_note {w : World} {c : Cycle} {o : Obs}
    (h : (cycleMonitor p).state w.log = some c) (hallows : c.Allows p o) :
    (cycleMonitor p).state (w.note o).log = some (c.after o) := by
  rw [World.note, Monitor.state_cons h]
  exact next_eq_some.mpr ⟨hallows, rfl⟩

/-- Observations that leave the monitor as it is. -/
theorem state_append {l : List Obs} {c : Cycle} (h : (cycleMonitor p).state l = some c)
    {notes : List Obs} (hnotes : ∀ o ∈ notes, c.Allows p o ∧ c.after o = c) :
    (cycleMonitor p).state (notes ++ l) = some c := by
  induction notes with
  | nil => exact h
  | cons o notes ih =>
      have hstate := ih fun o ho => hnotes o (List.mem_cons_of_mem _ ho)
      rw [List.cons_append, Monitor.state_cons hstate]
      exact next_eq_some.mpr (hnotes o List.mem_cons_self)

/-! ### The connection thread -/

/-- The relation at a jump of the connection thread. -/
def NodeTracks (p : Platform) (j : Jump NodeWait) (w : World) : Prop :=
  ∃ c, Tracks p j.continuation w.app.pThread3 w.app.sendingProcessPt w c

section Node

variable {w : World} {c : Cycle} {l : NodeWait} {sensor : Option SensorWait}
  {sender : Option SenderWait}

/-- A suspended thread is not done. -/
theorem Tracks.node_eq_false (h : Tracks p (some l) sensor sender w c) : c.node = false := by
  cases hnode : c.node with
  | false => rfl
  | true => exact absurd (h.nodeRewound hnode) (by simp)

/-- Past the connection test, the thread may go on to anywhere. -/
theorem Tracks.jump (h : Tracks p (some l) sensor sender w c) (hl : l ≠ .connectSleep)
    (node : Option NodeWait) : Tracks p node sensor sender w c :=
  { h with
    seen := fun _ _ _ => h.seen l rfl hl
    nodeRewound := fun hnode => absurd (h.nodeRewound hnode) (by simp) }

/-- From anywhere, the thread may be rewound. -/
theorem Tracks.rewindNode {node : Option NodeWait} (h : Tracks p node sensor sender w c) :
    Tracks p none sensor sender w c :=
  { h with
    seen := fun _ hnone => absurd hnone (by simp)
    nodeRewound := fun _ => rfl }

/-- The end of the thread sets its flag. -/
theorem nodeEnd_tracks (h : Tracks p (some l) w.app.pThread3 w.app.sendingProcessPt w c)
    (hl : l ≠ .connectSleep) : NodeTracks p (nodeEnd w).2 (nodeEnd w).1 :=
  ⟨c.after .nodeEnded,
    { h with
      accepted := state_note h.accepted ⟨h.seen l rfl hl, h.node_eq_false⟩
      nodeDone := rfl
      seen := h.rewindNode.seen
      nodeRewound := fun _ => rfl }⟩

/-- The connection test. -/
theorem nodeWaitConnected_tracks {node : Option NodeWait}
    (h : Tracks p node w.app.pThread3 w.app.sendingProcessPt w c) (hnode : c.node = false) :
    NodeTracks p (nodeWaitConnected p inp w).2 (nodeWaitConnected p inp w).1 := by
  rw [nodeWaitConnected]
  split
  · next hconn =>
      have hseen : Tracks p (some .searchSleep) w.app.pThread3 w.app.sendingProcessPt
          (w.note .seenConnected) (c.after .seenConnected) :=
        { h with
          accepted := state_note h.accepted ⟨h.connected.trans hconn, hnode⟩
          seen := fun _ _ _ => rfl
          nodeRewound := fun hn => absurd (hnode.symm.trans hn) Bool.false_ne_true }
      rw [nodeInitMdns]
      split
      · exact ⟨_, hseen⟩
      · exact ⟨_, { hseen.jump (by simp) _ with }⟩
  · exact ⟨c,
      { h with
        seen := fun l hl hne => absurd (Option.some.inj hl).symm hne
        nodeRewound := fun hn => absurd (hnode.symm.trans hn) Bool.false_ne_true }⟩

/-- The search. -/
theorem nodeSearch_tracks
    (h : Tracks p (some .searchSleep) w.app.pThread3 w.app.sendingProcessPt w c) :
    NodeTracks p (nodeSearch inp w).2 (nodeSearch inp w).1 := by
  rw [nodeSearch]
  split
  · exact nodeEnd_tracks h (by simp)
  · obtain ⟨clock, htick⟩ := World.tick_eq
      { w with mem := (w.mem.setBool .app false).setError .app .none }
    simp only [World.now, htick]
    split
    · exact ⟨c, { h.jump (by simp) none with }⟩
    · have hlaunch := h.jump (by simp) (some .launchSleep)
      split
      · exact ⟨c, { hlaunch with }⟩
      · exact ⟨c, { hlaunch with accepted := state_note h.accepted trivial }⟩

/-- The start of the CoAP client. -/
theorem nodeInitCoap_tracks
    (h : Tracks p (some .resultSleep) w.app.pThread3 w.app.sendingProcessPt w c) :
    NodeTracks p (nodeInitCoap p inp w).2 (nodeInitCoap p inp w).1 := by
  rw [nodeInitCoap]
  split
  · exact nodeEnd_tracks h (by simp)
  · simp only
    split
    · exact ⟨c, { h.jump (by simp) none with accepted := state_note h.accepted trivial }⟩
    · refine nodeEnd_tracks (c := c) (l := .resultSleep) ?_ (by simp)
      exact { h with accepted := state_note h.accepted trivial }

/-- The tests only log the sleeps. -/
theorem nodeGuard_tracks (h : NodeTracks p (.wait l) w) :
    NodeTracks p (.wait l) (nodeGuard l w).1 := by
  obtain ⟨c, h⟩ := h
  obtain ⟨clock, notes, heq, hnotes⟩ := nodeGuard_eq l w
  have hlogged : (cycleMonitor p).state (notes ++ w.log) = some c :=
    state_append h.accepted fun o ho => by
      obtain ⟨time, passed, rfl⟩ := hnotes o ho
      exact ⟨trivial, rfl⟩
  rw [heq]
  exact ⟨c, { h with accepted := hlogged }⟩

/-- The blocks of the thread. -/
theorem nodeBody_tracks (h : NodeTracks p (.wait l) w) :
    NodeTracks p (nodeBody p inp l w).2 (nodeBody p inp l w).1 := by
  obtain ⟨c, h⟩ := h
  cases l with
  | connectSleep =>
      obtain ⟨clock, htick⟩ := w.tick_eq
      simp only [nodeBody, World.now, htick]
      exact nodeWaitConnected_tracks (c := c) { h with } h.node_eq_false
  | searchSleep => exact nodeSearch_tracks h
  | resultSleep =>
      rw [nodeBody]
      split
      · exact ⟨c, h.jump (by simp) none⟩
      · exact nodeInitCoap_tracks h
  | _ => exact ⟨c, h.jump (by simp) _⟩

end Node

/-- What has to hold between the calls of the threads: the log is accepted, and unless the
firmware has run into an undefined operation, the monitor is tracked. -/
def CycleInvariant (p : Platform) (w : World) : Prop :=
  ∃ c, (cycleMonitor p).state w.log = some c ∧ (w.fault = false →
    Tracks p w.app.pThread1 w.app.pThread3 w.app.sendingProcessPt w c)

/-- A call of thread 1. -/
theorem runNode_cycleInvariant {w w' : World} (hfault : w.fault = false)
    (h : CycleInvariant p w) (hrun : runNode p inp w = some w') : CycleInvariant p w' := by
  rcases runNode_cases hrun with ⟨-, rfl⟩ | ⟨hdone, w₁, j, hresume, rfl⟩
  · exact h
  · obtain ⟨c, -, htracks⟩ := h
    have hw := htracks hfault
    have hkeeps : (nodeConnectThread p inp).Keeps (NodeTracks p) := by
      refine Protothread.Keeps.of_tests ?_ ?_ ?_
      · exact fun l s hs => nodeGuard_tracks hs
      · exact fun l s hs => nodeBody_tracks hs
      · rintro l s s' - ⟨c, hc⟩
        exact ⟨c, hc.rewindNode⟩
    obtain ⟨c', hc'⟩ : NodeTracks p j w₁ := by
      refine hkeeps.resume ?_ ?_ hresume
      · exact fun _ => nodeWaitConnected_tracks hw (hw.nodeDone.trans hdone)
      · intro l hl
        rw [hl] at hw
        exact ⟨c, hw⟩
    exact ⟨c', hc'.accepted, fun _ => { hc' with }⟩

/-! ### The sensor thread -/

/-- The relation at a jump of the sensor thread. -/
def SensorTracks (p : Platform) (j : Jump SensorWait) (w : World) : Prop :=
  ∃ c, Tracks p w.app.pThread1 j.continuation w.app.sendingProcessPt w c

section Sensor

variable {w : World} {c : Cycle} {l : SensorWait} {node : Option NodeWait}
  {sender : Option SenderWait}

/-- A suspended thread is not done, and has no measurement yet. -/
theorem Tracks.sensor_eq_false (h : Tracks p node (some l) sender w c) : c.sensor = false := by
  cases hsensor : c.sensor with
  | false => rfl
  | true => exact absurd (h.sensorRewound hsensor) (by simp)

/-- Until the thread is done, it has no measurement. -/
theorem Tracks.measured_eq_false {sensor : Option SensorWait}
    (h : Tracks p node sensor sender w c) (hsensor : c.sensor = false) : c.measured = false := by
  cases hmeasured : c.measured with
  | false => rfl
  | true => exact absurd (hsensor.symm.trans (h.measured hmeasured)) Bool.false_ne_true

/-- A command is not observed. -/
theorem sensorCommand_tracks {s : Option SensorWait}
    (h : Tracks p w.app.pThread1 s w.app.sendingProcessPt w c) (hsensor : c.sensor = false)
    (cmd : List UInt8) (transfer : I2cOutcome) :
    SensorTracks p (sensorCommand l cmd transfer w).2 (sensorCommand l cmd transfer w).1 := by
  obtain ⟨clock, htick⟩ := w.tick_eq
  simp only [sensorCommand, World.now, htick]
  exact ⟨c,
    { h with
      sensorRewound := fun hs => absurd (hsensor.symm.trans hs) Bool.false_ne_true }⟩

/-- The blocks of the thread. -/
theorem sensorBody_tracks (h : SensorTracks p (.wait l) w) :
    SensorTracks p (sensorBody inp l w).2 (sensorBody inp l w).1 := by
  obtain ⟨c, h⟩ := h
  have hsensor := h.sensor_eq_false
  have hmeasured := h.measured_eq_false hsensor
  cases l with
  | readySleep =>
      simp only [sensorBody]
      split
      · exact ⟨c.after (.sensorEnded false),
          { h with
            accepted := state_note h.accepted ⟨hsensor, hmeasured.symm⟩
            sensorDone := rfl
            measured := fun _ => rfl
            sensorRewound := fun _ => rfl }⟩
      · refine sensorCommand_tracks (c := c) (s := some .readySleep) ?_ hsensor scd41ReadMeas
          inp.measCmd
        exact { h with }
  | measSleep =>
      refine ⟨(c.after (.decoded (decode (i2cRead w.rxBuffer 9 inp.measRead)))).after
        (.sensorEnded true), ?_⟩
      exact
        { h with
          accepted := state_note (state_note h.accepted ⟨hsensor, hmeasured⟩) ⟨hsensor, rfl⟩
          triple := rfl
          sensorDone := rfl
          measured := fun _ => rfl
          sensorRewound := fun _ => rfl }

end Sensor

/-- A call of thread 3. -/
theorem runSensor_cycleInvariant {w w' : World} (hfault : w.fault = false)
    (h : CycleInvariant p w) (hrun : runSensor inp w = some w') : CycleInvariant p w' := by
  rcases runSensor_cases hrun with ⟨-, rfl⟩ | ⟨hdone, w₁, j, hresume, rfl⟩
  · exact h
  · obtain ⟨c, -, htracks⟩ := h
    have hw := htracks hfault
    have hkeeps : (scd41UpdateValueThread inp).Keeps (SensorTracks p) := by
      refine Protothread.Keeps.of_tests ?_ ?_ ?_
      · rintro l s ⟨c, hc⟩
        obtain ⟨clock, htick⟩ := s.tick_eq
        simp only [scd41UpdateValueThread, sensorGuard, World.now, htick]
        exact ⟨c, { hc with }⟩
      · exact fun l s hs => sensorBody_tracks hs
      · rintro l s s' - ⟨c, hc⟩
        exact ⟨c, { hc with sensorRewound := fun _ => rfl }⟩
    obtain ⟨c', hc'⟩ : SensorTracks p j w₁ := by
      refine hkeeps.resume ?_ ?_ hresume
      · exact fun _ => sensorCommand_tracks hw (hw.sensorDone.trans hdone) scd41GetDataRdy
          inp.readyCmd
      · intro l hl
        rw [hl] at hw
        exact ⟨c, hw⟩
    exact ⟨c', hc'.accepted, fun _ => { hc' with }⟩

/-! ### The sending process -/

/-- The relation at a jump of the sending process. -/
def SenderTracks (p : Platform) (j : Jump SenderWait) (w : World) : Prop :=
  match j with
  | .stuck => ∃ c, (cycleMonitor p).state w.log = some c
  | j => ∃ c, Tracks p w.app.pThread1 w.app.pThread3 j.continuation w c

/-- `build_message` renders the measurement. -/
theorem buildMessage_renders (p : Platform) (message : List UInt8) (t : Triple) :
    Renders p t (buildMessage p message t.co2 t.rh t.temp).2
      (UInt16.ofInt (buildMessage p message t.co2 t.rh t.temp).1) := by
  rw [Renders, buildMessage]
  cases p.format t.co2 t.rh t.temp with
  | none => exact rfl
  | some formatted =>
      have hsnprintf : snprintf appMessageMaxLen (some formatted) message =
          ((formatted.length : ℤ), formatted.take (appMessageMaxLen - 1)) :=
        snprintf_some appMessageMaxLen formatted message
      simp only [hsnprintf]
      split
      · next hfail =>
          have hlen : ¬ formatted.length < appMessageMaxLen := by omega
          rw [if_neg hlen]
          exact ⟨rfl, rfl⟩
      · next hok =>
          have hlen : formatted.length < appMessageMaxLen := by omega
          rw [if_pos hlen]
          exact ⟨rfl, rfl⟩

section Sender

variable {w : World} {c : Cycle} {l : SenderWait}

/-- The post, with an accepted request or not. -/
theorem post_tracks (node : Option NodeWait) (sensor : Option SensorWait)
    (h : Tracks p node sensor none w c) {r : PostRecord} (hnode : c.node = true)
    (hsensor : c.sensor = true) (hconn : r.connected = w.app.connected)
    (hrenders : Renders p w.triple r.text r.size) :
    Tracks p node sensor (some .ack) (w.note (.post r)) (c.after (.post r)) := by
  have hpost : c.post = none := by simpa using h.posted
  exact
    { h with
      accepted := state_note h.accepted
        ⟨hnode, hsensor, hpost, hconn.trans h.connected.symm, h.triple ▸ hrenders⟩
      posted := rfl }

/-- The post. -/
theorem senderPost_tracks (h : Tracks p w.app.pThread1 w.app.pThread3 none w c)
    (hnode : c.node = true) (hsensor : c.sensor = true)
    (hrenders : Renders p w.triple w.app.message (UInt16.ofInt w.messageSize)) :
    SenderTracks p (senderPost inp w).2 (senderPost inp w).1 := by
  rw [senderPost]
  split
  · exact ⟨_, (post_tracks w.app.pThread1 w.app.pThread3 h hnode hsensor rfl hrenders).accepted⟩
  · refine ⟨_, post_tracks w.app.pThread1 w.app.pThread3 (c := c) ?_ hnode hsensor rfl hrenders⟩
    exact { h with }

/-- The block up to the wait. -/
theorem senderEntry_tracks (h : Tracks p w.app.pThread1 w.app.pThread3 none w c)
    (hnode : c.node = true) (hsensor : c.sensor = true) :
    SenderTracks p (senderPost inp (senderBuild p w)).2 (senderPost inp (senderBuild p w)).1 := by
  have hrenders := buildMessage_renders p w.app.message w.triple
  obtain ⟨clock, hbuild⟩ := senderBuild_eq p w
  rw [hbuild]
  refine senderPost_tracks (c := c) ?_ hnode hsensor hrenders
  exact { h with }

/-- The test of the wait. -/
theorem senderGuard_tracks (h : SenderTracks p (.wait l) w) :
    SenderTracks p (.wait l) (senderGuard l w).1 := by
  obtain ⟨c, h⟩ := h
  obtain ⟨clock, htick⟩ := w.tick_eq
  rw [senderGuard]
  split
  · exact ⟨c, { h with accepted := state_note h.accepted h.posted }⟩
  · simp only [World.now, htick]
    exact ⟨c, { h with accepted := state_note h.accepted h.posted }⟩

/-- The block after the wait. -/
theorem senderBody_tracks (h : SenderTracks p (.wait l) w) :
    SenderTracks p (senderBody l w).2 (senderBody l w).1 := by
  obtain ⟨c, h⟩ := h
  have hpost : c.post.isSome = true := h.posted
  have hended := ended_of_post h.accepted hpost
  have hnode : w.app.pThread1 = none := h.nodeRewound hended.1
  obtain ⟨notes, hreport, hnotes⟩ := senderReport_eq w
  have hlogged : (cycleMonitor p).state (notes ++ w.log) = some c :=
    state_append h.accepted fun o ho => by
      rcases hnotes o ho with rfl | rfl
      · exact ⟨hpost, rfl⟩
      · exact ⟨hpost, rfl⟩
  have hended : (cycleMonitor p).state (.cycleEnded :: (notes ++ w.log)) =
      some (c.after .cycleEnded) := by
    rw [Monitor.state_cons hlogged]
    exact next_eq_some.mpr ⟨hpost, rfl⟩
  simp only [senderBody, hreport]
  refine ⟨c.after .cycleEnded, { h with
    accepted := hended
    nodeDone := rfl
    sensorDone := rfl
    measured := fun hm => absurd hm Bool.false_ne_true
    seen := ?_
    nodeRewound := fun hn => absurd hn Bool.false_ne_true
    sensorRewound := fun hs => absurd hs Bool.false_ne_true
    posted := rfl }⟩
  intro l hl
  exact absurd (hnode.symm.trans hl) (by simp)

end Sender

/-- A call of the sending process. -/
theorem runSender_cycleInvariant {w w' : World} (hfault : w.fault = false)
    (h : CycleInvariant p w) (hrun : runSender p inp w = some w') : CycleInvariant p w' := by
  rcases runSender_cases hrun with ⟨-, rfl⟩ | ⟨hnode, hsensor, w₁, j, hresume, rfl⟩
  · exact h
  · obtain ⟨c, -, htracks⟩ := h
    have hw := htracks hfault
    have hkeeps : (coapSendingProcess p inp).Keeps (SenderTracks p) := by
      refine Protothread.Keeps.of_tests ?_ ?_ ?_
      · exact fun l s hs => senderGuard_tracks hs
      · exact fun l s hs => senderBody_tracks hs
      · rintro l s s' - ⟨c, hc⟩
        exact ⟨c, hc.accepted⟩
    have hj : SenderTracks p j w₁ := by
      refine hkeeps.resume ?_ ?_ hresume
      · intro hnone
        rw [hnone] at hw
        exact senderEntry_tracks hw (hw.nodeDone.trans hnode) (hw.sensorDone.trans hsensor)
      · intro l hl
        rw [hl] at hw
        exact ⟨c, hw⟩
    cases j with
    | stuck =>
        obtain ⟨c', hc'⟩ := hj
        exact ⟨c', hc', fun hstuck => absurd hstuck (by simp)⟩
    | _ =>
        obtain ⟨c', hc'⟩ := hj
        exact ⟨c', hc'.accepted, fun _ => { hc' with }⟩

/-! ### Runs -/

/-- A role change follows the protocol. -/
theorem handleNetifStateChanged_cycleInvariant {w : World} (h : CycleInvariant p w)
    (changed : Bool) (role : DeviceRole) :
    CycleInvariant p (handleNetifStateChanged changed role w) := by
  obtain ⟨c, hacc, htracks⟩ := h
  have hset : ∀ b, CycleInvariant p (({ w with app.connected := b }).note (.role b)) := by
    intro b
    have hnote := state_note (o := .role b) hacc trivial
    exact ⟨c.after (.role b), hnote, fun hfault =>
      { htracks hfault with accepted := hnote, connected := rfl }⟩
  rw [handleNetifStateChanged.eq_def]
  split
  · cases role <;> exact hset _
  · exact ⟨c, hacc, htracks⟩

/-- Every event follows the protocol. -/
theorem cycleInvariant_runRule (p : Platform) :
    RunRule p (fun _ _ => True) (CycleInvariant p) where
  idle := fun _ _ _ _ _ ⟨c, hacc, htracks⟩ => ⟨c, hacc, fun hfault => { htracks hfault with }⟩
  node := runNode_cycleInvariant
  sensor := runSensor_cycleInvariant
  sender := runSender_cycleInvariant
  role changed role _ h := handleNetifStateChanged_cycleInvariant h changed role
  autostart := fun _ _ ⟨c, hacc, htracks⟩ => ⟨c, hacc, fun hfault => { htracks hfault with }⟩
  browse {w i} error response stack _ _ h := by
    obtain ⟨c, hacc, htracks⟩ := h
    rw [browseCallback]
    split
    · next dns mem _ =>
        have hnote := state_note (o := .browseDone (w.app.pThread1.any NodeWait.pastTest)
          (mem.error .app)) hacc trivial
        exact ⟨c, hnote, fun hfault => { htracks hfault with accepted := hnote }⟩
    · exact ⟨c, hacc, fun hfault => absurd hfault (by simp)⟩
  request {w i r} error response _ _ _ h := by
    obtain ⟨c, hacc, htracks⟩ := h
    rw [requestCallback]
    split
    · have hnote := state_note (o := .callback r.message error) hacc trivial
      exact ⟨c, hnote, fun hfault => { htracks hfault with accepted := hnote }⟩
    · exact ⟨c, hacc, fun hfault => absurd hfault (by simp)⟩

/-- The firmware boots into the initial state of the protocol. -/
theorem boot_cycleInvariant (p : Platform) (now : UInt32) : CycleInvariant p (boot now) := by
  refine ⟨(cycleMonitor p).init, rfl, fun _ => ?_⟩
  exact
    { accepted := rfl
      connected := rfl
      triple := rfl
      nodeDone := rfl
      sensorDone := rfl
      measured := fun h => h
      seen := fun _ hnone => absurd hnone (by simp [boot])
      nodeRewound := fun _ => rfl
      sensorRewound := fun _ => rfl
      posted := rfl }

/-- **The firmware follows the protocol.** The log of every run is accepted, and unless the
run ended in an undefined operation, the monitor is tracked. -/
theorem firmware_accepted {now : UInt32} {es : List Event} {w : World}
    (hrun : (firmware p).run (boot now) es = some w) : CycleInvariant p w :=
  (cycleInvariant_runRule p).run_all (boot_cycleInvariant p now) hrun

/-- Every event follows the protocol. -/
theorem step_cycleInvariant {w' : World} {e : Event} (h : CycleInvariant p w)
    (hstep : step p w e = some w') : CycleInvariant p w' :=
  (cycleInvariant_runRule p).step h trivial hstep

/-! ### Resuming the sending process -/

/-- The sending process, suspended in `w`, is tested at its wait: it stays suspended, or it
ends the cycle. Nothing else happens until `w'`. -/
def ResumesSender (w w' : World) : Prop :=
  ∃ time done error left notes,
    w'.log = notes ++ .tested time done error left :: w.log ∧
    ((left = false ∧ w'.app.sendingProcessPt = some .ack ∧ notes = []) ∨
      (left = true ∧ w'.app.sendingProcessPt = none ∧
        ∃ reports, notes = .cycleEnded :: reports ∧
          ∀ o ∈ reports, o = .timedOut ∨ o = .coapError))

/-- While the sending process is suspended, the threads are done. -/
theorem done_of_suspended (h : CycleInvariant p w) (hfault : w.fault = false)
    (hack : w.app.sendingProcessPt = some .ack) :
    w.app.pThreadDone1 = true ∧ w.app.pThreadDone3 = true := by
  obtain ⟨c, -, htracks⟩ := h
  have hw := htracks hfault
  have hpost : c.post.isSome = true := by
    rw [hw.posted, hack]
    rfl
  obtain ⟨hnode, hsensor⟩ := ended_of_post hw.accepted hpost
  exact ⟨hw.nodeDone.symm.trans hnode, hw.sensorDone.symm.trans hsensor⟩

/-- **A suspended sending process is resumed at its wait** in every pass that runs. -/
theorem mainLoopPass_resumes {w' : World} (h : CycleInvariant p w) (hfault : w.fault = false)
    (hrun : w.run = true) (hack : w.app.sendingProcessPt = some .ack)
    (hpass : mainLoopPass p inp w = some w') : ResumesSender w w' := by
  obtain ⟨hnode, hsensor⟩ := done_of_suspended h hfault hack
  rcases mainLoopPass_cases hpass with ⟨hidle, -⟩ | ⟨run, armed, w₃, run', armed', happ, rfl⟩
  · exact absurd (hrun.symm.trans hidle) (by simp)
  · obtain ⟨w₁, hrunNode, hrest⟩ := appProcessAction_cases happ
    rcases runNode_cases hrunNode with ⟨-, rfl⟩ | ⟨hnot, -⟩
    · rcases hrest with ⟨hstuck, -⟩ | ⟨-, w₂, hrunSensor, hrunSender⟩
      · exact absurd (hfault.symm.trans hstuck) Bool.false_ne_true
      · rcases runSensor_cases hrunSensor with ⟨-, rfl⟩ | ⟨hnot, -⟩
        · rcases runSender_cases hrunSender with ⟨hflags, -⟩ | ⟨-, -, w₄, j, hresume, rfl⟩
          · simp [hnode, hsensor] at hflags
          · simp only [hack] at hresume
            obtain ⟨time, done, error, left, notes, hlog, hcase⟩ := resume_ack hresume
            refine ⟨time, done, error, left, notes, hlog, ?_⟩
            rcases hcase with ⟨hleft, rfl, hnotes⟩ | ⟨hleft, rfl, hreports⟩
            · exact Or.inl ⟨hleft, rfl, hnotes⟩
            · exact Or.inr ⟨hleft, rfl, hreports⟩
        · exact absurd (hnot.symm.trans hsensor) Bool.false_ne_true
    · exact absurd (hnot.symm.trans hnode) Bool.false_ne_true

end SmartCO2
