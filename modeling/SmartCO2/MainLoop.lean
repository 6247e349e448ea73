import SmartCO2.Pass

/-!
# The Main Loop and the Timer Interrupt

In `App` a pass of the main loop is one step, with the timer firing at chosen places. Here the
loop of `main` goes step by step, and while the timer is armed its interrupt may come between
any two steps: before and after each call of a thread, between `*run = false` at the end of
`coap_sending_process`, the test `if (!run)` and `sl_sleeptimer_restart_timer`, and while the
loop is at its head.

An interrupt in the middle of a call is covered as well. The connection thread and the sensor
thread do not see `run` and the timer (`runNode_setTimer`, `runSensor_setTimer`), so it makes
no difference when in the call the interrupt comes. The sending process only assigns `run`, at
its end, and this assignment is a step of its own.

## Main results

* `mainLoopPass_refines`, `firmware_refines`: the passes of `App`, and whole runs of the
  firmware, are runs of this loop.
* `cycle_never_lost`: whenever the loop is at its head, `run` is set or the timer is armed.
-/

namespace SmartCO2

variable {p : Platform} {inp : PassInput} {w w' : World}

/-! ### The timer beside the threads -/

/-- The state with other values of `run` and of the timer. -/
def World.setTimer (run armed : Bool) (w : World) : World :=
  { w with run := run, timerArmed := armed }

/-- The clock runs without the timer. -/
theorem tick_setTimer (run armed : Bool) (w : World) :
    (w.setTimer run armed).tick = w.tick.setTimer run armed := by
  cases h : w.clock.ahead <;> simp [World.tick, World.setTimer, h]

/-- A sleep of the connection thread does not see the timer. -/
theorem nodeSleep_setTimer (run armed : Bool) (l : NodeWait) (x : UInt64) (w : World) :
    nodeSleep l x (w.setTimer run armed) =
      ((nodeSleep l x w).1.setTimer run armed, (nodeSleep l x w).2) := by
  simp only [nodeSleep, World.now, tick_setTimer]
  rfl

/-- The connection test and what follows do not see the timer. -/
theorem nodeWaitConnected_setTimer (run armed : Bool) (w : World) :
    nodeWaitConnected p inp (w.setTimer run armed) =
      ((nodeWaitConnected p inp w).1.setTimer run armed, (nodeWaitConnected p inp w).2) := by
  cases hconn : w.app.connected with
  | false => simp [nodeWaitConnected, World.setTimer, hconn]
  | true =>
      cases hmdns : w.app.mdns <;>
        simp [nodeWaitConnected, nodeInitMdns, World.setTimer, World.note, hconn, hmdns]

/-- The search does not see the timer. -/
theorem nodeSearch_setTimer (run armed : Bool) (w : World) :
    nodeSearch inp (w.setTimer run armed) =
      ((nodeSearch inp w).1.setTimer run armed, (nodeSearch inp w).2) := by
  have htick := tick_setTimer run armed
    { w with mem := (w.mem.setBool .app false).setError .app .none }
  cases hdone : w.mem.bool .app with
  | true => simp [nodeSearch, nodeEnd, World.setTimer, World.note, World.appDone, hdone]
  | false =>
      obtain ⟨clock, heq⟩ := World.tick_eq
        { w with mem := (w.mem.setBool .app false).setError .app .none }
      rw [World.setTimer] at htick
      cases hmdns : w.app.mdns with
      | null =>
          simp [nodeSearch, World.setTimer, World.now, World.appDone, hdone, htick, heq, hmdns]
      | client =>
          cases hrefused : w.dns.client.refuses <;>
            simp [nodeSearch, World.setTimer, World.now, World.note, World.appDone, hdone, htick,
              heq, hmdns, hrefused]

/-- The bring-up of the CoAP client does not see the timer. -/
theorem nodeInitCoap_setTimer (run armed : Bool) (w : World) :
    nodeInitCoap p inp (w.setTimer run armed) =
      ((nodeInitCoap p inp w).1.setTimer run armed, (nodeInitCoap p inp w).2) := by
  cases hcoap : w.app.coap with
  | client => simp [nodeInitCoap, nodeEnd, World.setTimer, World.note, hcoap]
  | null =>
      cases hinit : (coapInit w.coap (w.mem.address .app) p.token inp.coapStart).1 <;>
        simp [nodeInitCoap, nodeEnd, World.setTimer, World.note, hcoap, hinit]

/-- **The connection thread does not see the timer.** -/
theorem nodeConnectThread_unseen (p : Platform) (inp : PassInput) (run armed : Bool) :
    (nodeConnectThread p inp).Unseen (World.setTimer run armed) where
  entry := nodeWaitConnected_setTimer run armed
  guard l w := by
    cases l with
    | mdnsReady =>
        cases hmdns : w.app.mdns <;>
          simp [nodeConnectThread, nodeGuard, World.setTimer, hmdns]
    | answer =>
        cases hdone : w.mem.bool .app with
        | true => simp [nodeConnectThread, nodeGuard, World.setTimer, World.appDone, hdone]
        | false =>
            simp only [nodeConnectThread, nodeGuard, World.setTimer, World.appDone, hdone]
            exact congrArg (fun v : World => (v, some (decide
              (15000 ≤ v.clock.now.toUInt64 - v.app.thenTime)))) (tick_setTimer run armed w)
    | _ => exact nodeSleep_setTimer run armed _ _ w
  body l w := by
    cases l with
    | connectSleep =>
        simp only [nodeConnectThread, nodeBody, World.now, tick_setTimer]
        exact nodeWaitConnected_setTimer run armed
          { w.tick with app.thenTime := w.tick.clock.now.toUInt64 }
    | searchSleep => exact nodeSearch_setTimer run armed w
    | answerSleep => rfl
    | resultSleep =>
        by_cases herror : w.mem.error .app = .none
        · have hinit : nodeInitCoap p inp (w.setTimer run armed) = _ :=
            nodeInitCoap_setTimer run armed w
          simp only [World.setTimer] at hinit
          simp [nodeConnectThread, nodeBody, World.setTimer, World.appError, herror, hinit]
        · simp [nodeConnectThread, nodeBody, World.setTimer, World.appError, herror]
    | _ => rfl

/-- The command of the sensor thread does not see the timer. -/
theorem sensorCommand_setTimer (run armed : Bool) (l : SensorWait) (cmd : List UInt8)
    (transfer : I2cOutcome) (w : World) :
    sensorCommand l cmd transfer (w.setTimer run armed) =
      ((sensorCommand l cmd transfer w).1.setTimer run armed,
        (sensorCommand l cmd transfer w).2) := by
  simp only [sensorCommand, World.now, tick_setTimer]
  rfl

/-- **The sensor thread does not see the timer.** -/
theorem scd41UpdateValueThread_unseen (inp : PassInput) (run armed : Bool) :
    (scd41UpdateValueThread inp).Unseen (World.setTimer run armed) where
  entry := sensorCommand_setTimer run armed .readySleep scd41GetDataRdy inp.readyCmd
  guard l w := by
    simp only [scd41UpdateValueThread, sensorGuard, World.now, tick_setTimer]
    rfl
  body l w := by
    cases l with
    | readySleep =>
        by_cases hready : rdyValue (i2cRead w.rxBuffer 3 inp.readyRead) = 0
        · simp [scd41UpdateValueThread, sensorBody, World.setTimer, World.note, hready]
        · have hcommand := sensorCommand_setTimer run armed .measSleep scd41ReadMeas inp.measCmd
            { w with rxBuffer := i2cRead w.rxBuffer 3 inp.readyRead }
          simp only [World.setTimer] at hcommand
          simp [scd41UpdateValueThread, sensorBody, World.setTimer, hready, hcommand]
    | measSleep => rfl

/-- A call of thread 1 can be interrupted anywhere. -/
theorem runNode_setTimer (run armed : Bool) (w : World) :
    runNode p inp (w.setTimer run armed) = (runNode p inp w).map (World.setTimer run armed) := by
  obtain ⟨⟨w₁, j⟩, hrun⟩ :=
    Option.isSome_iff_exists.mp (nodeConnectThread_isSome p inp w.app.pThread1 w)
  have hresume := (nodeConnectThread_unseen p inp run armed).resume (nodeFuel w) w.app.pThread1 w
  rw [hrun] at hresume
  have happ : (w.setTimer run armed).app = w.app := rfl
  have hfuel : nodeFuel (w.setTimer run armed) = nodeFuel w := rfl
  rw [runNode, runNode, happ, hfuel, hresume, hrun]
  split <;> rfl

/-- A call of thread 3 can be interrupted anywhere. -/
theorem runSensor_setTimer (run armed : Bool) (w : World) :
    runSensor inp (w.setTimer run armed) = (runSensor inp w).map (World.setTimer run armed) := by
  obtain ⟨⟨w₁, j⟩, hrun⟩ :=
    Option.isSome_iff_exists.mp (scd41UpdateValueThread_isSome inp w.app.pThread3 w)
  have hresume := (scd41UpdateValueThread_unseen inp run armed).resume 2 w.app.pThread3 w
  rw [hrun] at hresume
  have happ : (w.setTimer run armed).app = w.app := rfl
  rw [runSensor, runSensor, happ, hresume, hrun]
  split <;> rfl

/-- A call of thread 1 leaves `run` alone. -/
theorem runNode_run (h : runNode p inp w = some w') : w'.run = w.run := by
  have hsame : runNode p inp w = (runNode p inp w).map (World.setTimer w.run w.timerArmed) :=
    runNode_setTimer w.run w.timerArmed w
  rw [h] at hsame
  have heq : w' = w'.setTimer w.run w.timerArmed := Option.some.inj hsame
  rw [heq]
  rfl

/-- A call of thread 3 leaves `run` alone. -/
theorem runSensor_run (h : runSensor inp w = some w') : w'.run = w.run := by
  have hsame : runSensor inp w = (runSensor inp w).map (World.setTimer w.run w.timerArmed) :=
    runSensor_setTimer w.run w.timerArmed w
  rw [h] at hsame
  have heq : w' = w'.setTimer w.run w.timerArmed := Option.some.inj hsame
  rw [heq]
  rfl

/-! ### The loop, step by step -/

/-- Where the loop of `main` is: at its head, before the calls of threads 1 and 3 and of the
sending process, before `*run = false` at the end of that process, before `if (!run)`, and
before `sl_sleeptimer_restart_timer`. -/
inductive LoopPoint
  | head | node | sensor | sender | clear | test | restart
  deriving DecidableEq, Repr

/-- The state of the firmware and where its main loop is. -/
structure LoopState where
  point : LoopPoint
  world : World

/-- What can happen: the loop takes its next step, something happens in the calls of the
OpenThread stack at its head, or the timer interrupts. -/
inductive LoopEvent
  | go (inp : PassInput)
  | openThread (e : Event)
  | interrupt

/-- The next step of the loop. The readings of the clock for a pass are those of its first
step; the answers of the platform are those of each step. -/
def loopGo (p : Platform) (inp : PassInput) : LoopPoint → World → Option LoopState
  | .head, w =>
      if w.run then some ⟨.node, { w with clock.ahead := inp.clock }⟩ else some ⟨.head, w⟩
  | .node, w => do
      let w ← runNode p inp w
      some ⟨.sensor, { w with app.pThreadDone2 := true }⟩
  | .sensor, w => do
      let w ← runSensor inp w
      some ⟨.sender, { w with app.pThreadDone4 := true }⟩
  | .sender, w => do
      let w' ← runSender p inp w
      let w' := { w' with clock.ahead := [] }
      -- the assignment `*run = false` is left to the next step
      if w.run && !w'.run then some ⟨.clear, { w' with run := true }⟩ else some ⟨.test, w'⟩
  | .clear, w => some ⟨.test, { w with run := false }⟩
  | .test, w => if w.run then some ⟨.head, w⟩ else some ⟨.restart, w⟩
  | .restart, w => some ⟨.head, { w with timerArmed := true }⟩

/-- The events of the OpenThread stack and of the clock. -/
def Event.ofStack : Event → Bool
  | .pass _ | .timer => false
  | _ => true

/-- One event of the loop. -/
def loopStep (p : Platform) (s : LoopState) (e : LoopEvent) : Option LoopState :=
  if s.world.fault then none
  else
    match e with
    | .go inp => loopGo p inp s.point s.world
    | .openThread e =>
        if s.point = .head ∧ e.ofStack then (step p s.world e).map fun w => ⟨.head, w⟩ else none
    | .interrupt =>
        if s.world.timerArmed then some ⟨s.point, timerCallback true s.world⟩ else none

/-- The main loop. -/
def mainLoop (p : Platform) : StepSystem LoopState LoopEvent := ⟨loopStep p⟩

/-- The loop is entered after `app_init`, with the timer started. -/
def loopStart (now : UInt32) : LoopState := ⟨.head, boot now⟩

/-! ### No cycle is lost -/

/-- Inside a cycle `run` is set; at the head of the loop it is, or the timer is armed. Between
`*run = false` and the restart of the timer neither may be the case. -/
def Sequenced (s : LoopState) : Prop :=
  match s.point with
  | .head => s.world.run = true ∨ s.world.timerArmed = true
  | .node | .sensor | .sender | .clear => s.world.run = true
  | .test | .restart => True

/-- An interrupt sets `run`. -/
theorem timerCallback_armed (h : w.timerArmed = true) :
    timerCallback true w = { w with run := true, timerArmed := false } := by
  rw [timerCallback, h]
  rfl

/-- A step of the loop. -/
theorem Sequenced.go {s s' : LoopState} (h : Sequenced s)
    (hgo : loopGo p inp s.point s.world = some s') : Sequenced s' := by
  obtain ⟨point, w⟩ := s
  cases point with
  | head =>
      rw [loopGo] at hgo
      split at hgo
      · next hrun =>
          obtain rfl := Option.some.inj hgo
          exact hrun
      · obtain rfl := Option.some.inj hgo
        exact h
  | node =>
      obtain ⟨w₁, hnode, heq⟩ := Option.bind_eq_some_iff.mp hgo
      obtain rfl := Option.some.inj heq
      exact (runNode_run hnode).trans h
  | sensor =>
      obtain ⟨w₁, hsensor, heq⟩ := Option.bind_eq_some_iff.mp hgo
      obtain rfl := Option.some.inj heq
      exact (runSensor_run hsensor).trans h
  | sender =>
      obtain ⟨w₁, -, heq⟩ := Option.bind_eq_some_iff.mp hgo
      simp only at heq
      split at heq <;> obtain rfl := Option.some.inj heq
      · exact rfl
      · exact trivial
  | clear =>
      obtain rfl := Option.some.inj hgo
      exact trivial
  | test =>
      rw [loopGo] at hgo
      split at hgo
      · next hrun =>
          obtain rfl := Option.some.inj hgo
          exact Or.inl hrun
      · obtain rfl := Option.some.inj hgo
        exact trivial
  | restart =>
      obtain rfl := Option.some.inj hgo
      exact Or.inr rfl

/-- What OpenThread does between two passes leaves `run` and the timer alone. -/
theorem step_timer {e : Event} (hstack : e.ofStack = true) (h : step p w e = some w') :
    w'.run = w.run ∧ w'.timerArmed = w.timerArmed := by
  rw [step.eq_def] at h
  split at h
  · exact absurd h (by simp)
  · cases e with
    | pass | timer => exact absurd hstack Bool.false_ne_true
    | clock now =>
        obtain rfl := Option.some.inj h
        exact ⟨rfl, rfl⟩
    | role changed role =>
        obtain rfl := Option.some.inj h
        rw [handleNetifStateChanged.eq_def]
        split
        · cases role <;> exact ⟨rfl, rfl⟩
        · exact ⟨rfl, rfl⟩
    | autostart sock =>
        simp only at h
        split at h
        · obtain rfl := Option.some.inj h
          exact ⟨rfl, rfl⟩
        · exact absurd h (by simp)
    | browseResult i error response stack =>
        simp only at h
        split at h
        · obtain rfl := Option.some.inj h
          rw [browseCallback]
          split <;> exact ⟨rfl, rfl⟩
        · exact absurd h (by simp)
    | callback i error response =>
        obtain ⟨r, -, rfl⟩ := Option.map_eq_some_iff.mp h
        rw [requestCallback]
        split <;> exact ⟨rfl, rfl⟩

/-- Every event of the loop keeps the sequence. -/
theorem Sequenced.step {s s' : LoopState} {e : LoopEvent} (h : Sequenced s)
    (hstep : loopStep p s e = some s') : Sequenced s' := by
  rw [loopStep.eq_def] at hstep
  split at hstep
  · exact absurd hstep (by simp)
  · cases e with
    | go inp => exact h.go hstep
    | openThread e =>
        simp only at hstep
        split at hstep
        · next hcond =>
            obtain ⟨hhead, hstack⟩ := hcond
            obtain ⟨w', hworld, rfl⟩ := Option.map_eq_some_iff.mp hstep
            obtain ⟨hrun, harmed⟩ := step_timer hstack hworld
            simp only [Sequenced, hhead, hrun, harmed] at h ⊢
            exact h
        · exact absurd hstep (by simp)
    | interrupt =>
        simp only at hstep
        split at hstep
        · next harmed =>
            obtain rfl := Option.some.inj hstep
            rw [timerCallback_armed harmed]
            obtain ⟨point, w⟩ := s
            cases point with
            | head => exact Or.inl rfl
            | node | sensor | sender | clear => rfl
            | test | restart => trivial
        · exact absurd hstep (by simp)

/-- **No cycle is ever lost for good.** In every run of the main loop, with the interrupt of
the timer between any two of its steps, `run` is set or the timer is armed whenever the loop is
at its head: the next step begins a pass of the application, or else the timer can interrupt,
and sets `run` when it does. -/
theorem cycle_never_lost (p : Platform) (now : UInt32) (es : List LoopEvent) {s : LoopState}
    (hrun : (mainLoop p).run (loopStart now) es = some s) (hhead : s.point = .head) :
    (s.world.run = true ∨ s.world.timerArmed = true) ∧ (s.world.fault = false →
      (∀ inp, ∃ s', (mainLoop p).step s (.go inp) = some s' ∧ s'.point = .node) ∨
        ∃ s', (mainLoop p).step s .interrupt = some s' ∧ s'.point = .head ∧
          s'.world.run = true) := by
  have hstart : Sequenced (loopStart now) := Or.inl rfl
  have hseq : Sequenced s :=
    StepSystem.run_invariant (I := Sequenced) (fun _ _ _ h hstep => h.step hstep) hstart hrun
  obtain ⟨point, w⟩ := s
  obtain rfl : point = .head := hhead
  refine ⟨hseq, fun hfault => ?_⟩
  have hfault : w.fault = false := hfault
  rcases hseq with hrun | harmed
  · left
    intro inp
    have hrun : w.run = true := hrun
    refine ⟨⟨.node, { w with clock.ahead := inp.clock }⟩, ?_, rfl⟩
    simp [mainLoop, loopStep, loopGo, hfault, hrun]
  · right
    have harmed : w.timerArmed = true := harmed
    refine ⟨⟨.head, { w with run := true, timerArmed := false }⟩, ?_, rfl, rfl⟩
    simp [mainLoop, loopStep, hfault, harmed, timerCallback]

/-- The five steps of a pass that does not end the cycle. -/
def passSteps (inp : PassInput) : List LoopEvent := List.replicate 5 (.go inp)

/-- A first cycle in which the timer interrupts between `*run = false` and `if (!run)`. -/
def interruptedCycle : List LoopEvent :=
  [.openThread (.role true .child)] ++ passSteps measuring ++
    [.openThread (.clock 2000), .openThread (.autostart (some ⟨0, 53⟩))] ++
    passSteps measuring ++
    [.openThread (.browseResult 0 .none loopbackResponse []), .openThread (.clock 3000)] ++
    passSteps measuring ++ [.openThread (.callback 0 .none false)] ++
    passSteps measuring ++ [.interrupt, .go measuring]

/-- The timer is not armed after that cycle, and `run` is set. -/
theorem interruptedCycle_not_lost : ∃ s,
    (mainLoop (.configured parseLoopback)).run (loopStart 0) interruptedCycle = some s ∧
      s.point = .head ∧ (s.world.run = true ∨ s.world.timerArmed = true) ∧
      (s.world.fault = false →
        (∀ inp, ∃ s', (mainLoop (.configured parseLoopback)).step s (.go inp) = some s' ∧
          s'.point = .node) ∨
        ∃ s', (mainLoop (.configured parseLoopback)).step s .interrupt = some s' ∧
          s'.point = .head ∧ s'.world.run = true) :=
  ⟨_, rfl, rfl, cycle_never_lost (.configured parseLoopback) 0 interruptedCycle rfl rfl⟩

/-! ### The passes of the firmware -/

/-- The timer does not get the firmware stuck. -/
theorem timerCallback_fault (fires : Bool) (w : World) :
    (timerCallback fires w).fault = w.fault := by
  obtain ⟨run, armed, heq⟩ := timerCallback_eq fires w
  rw [heq]

/-- The timer does not reset `run`. -/
theorem timerCallback_run (fires : Bool) (h : w.run = true) :
    (timerCallback fires w).run = true := by
  rw [timerCallback]
  split
  · rfl
  · exact h

/-- The timer may fire at any point of the loop. -/
theorem interrupt_reaches (point : LoopPoint) (fires : Bool) (w : World)
    (hfault : w.fault = false) :
    (mainLoop p).Reaches ⟨point, w⟩ ⟨point, timerCallback fires w⟩ := by
  cases harmed : fires && w.timerArmed with
  | false =>
      rw [timerCallback, harmed, if_neg Bool.false_ne_true]
      exact .refl _ _
  | true =>
      rw [Bool.and_eq_true] at harmed
      obtain ⟨rfl, harmed⟩ := harmed
      refine .head (e := .interrupt) ?_ (.refl _ _)
      simp [mainLoop, loopStep, hfault, harmed]

/-- A step of the loop that can be taken. -/
theorem go_reaches (inp : PassInput) {s s' t : LoopState} (hfault : s.world.fault = false)
    (hgo : loopGo p inp s.point s.world = some s') (h : (mainLoop p).Reaches s' t) :
    (mainLoop p).Reaches s t := by
  refine .head (e := .go inp) ?_ h
  simp [mainLoop, loopStep, hfault, hgo]

/-- The call of the sending process, and the assignment `*run = false` if it makes it. -/
theorem sender_reaches (hfault : w.fault = false) (hrun : w.run = true)
    (hsender : runSender p inp w = some w') (hfault' : w'.fault = false) :
    (mainLoop p).Reaches ⟨.sender, w⟩ ⟨.test, { w' with clock.ahead := [] }⟩ := by
  cases hrun' : w'.run with
  | true =>
      have hgo : loopGo p inp .sender w = some ⟨.test, { w' with clock.ahead := [] }⟩ := by
        simp [loopGo, hsender, hrun']
      rw [hrun'] at hgo
      exact go_reaches inp hfault hgo (.refl _ _)
  | false =>
      have hgo : loopGo p inp .sender w =
          some ⟨.clear, { w' with clock.ahead := [], run := true }⟩ := by
        simp [loopGo, hsender, hrun, hrun']
      exact go_reaches inp hfault hgo (go_reaches inp hfault' rfl (.refl _ _))

/-- A pass of the application, from the call of thread 1 to the test of `run`. -/
theorem appProcessAction_reaches (hfault : w.fault = false) (hrun : w.run = true)
    (h : appProcessAction p inp w = some w') (hfault' : w'.fault = false) :
    (mainLoop p).Reaches ⟨.node, w⟩ ⟨.test, { w' with clock.ahead := [] }⟩ := by
  obtain ⟨w₁, hnode, hcase⟩ := appProcessAction_cases h
  rcases hcase with ⟨hstuck, rfl⟩ | ⟨hfault₁, w₂, hsensor, hsender⟩
  · exact absurd (hstuck.symm.trans hfault') (by simp)
  · have hrun₁ : w₁.run = true := (runNode_run hnode).trans hrun
    have hrun₂ : w₂.run = true := (runSensor_run hsensor).trans hrun₁
    have hfault₂ : w₂.fault = false := (runSensor_fault hsensor).trans hfault₁
    have hgo : loopGo p inp .node w = some ⟨.sensor, { w₁ with app.pThreadDone2 := true }⟩ := by
      simp [loopGo, hnode]
    have hgo' : loopGo p inp .sensor { w₁ with app.pThreadDone2 := true } =
        some ⟨.sender, { w₂ with app.pThreadDone4 := true }⟩ := by
      simp [loopGo, hsensor]
    exact go_reaches inp hfault hgo (go_reaches inp hfault₁ hgo'
      (sender_reaches hfault₂ hrun₂ hsender hfault'))

/-- The end of a pass: the test of `run`, and the restart of the timer. -/
theorem test_reaches (hfault : w.fault = false) (irqAfter irqBeforeRestart : Bool) :
    (mainLoop p).Reaches ⟨.test, w⟩
      ⟨.head, if (timerCallback irqAfter w).run then timerCallback irqAfter w
        else { timerCallback irqBeforeRestart (timerCallback irqAfter w) with
          timerArmed := true }⟩ := by
  refine (interrupt_reaches .test irqAfter w hfault).trans ?_
  have hfault₁ := (timerCallback_fault irqAfter w).trans hfault
  split
  · next hrun =>
      refine go_reaches (.calm [] []) hfault₁ ?_ (.refl _ _)
      simp [loopGo, hrun]
  · next hrun =>
      have hgo : loopGo p (.calm [] []) .test (timerCallback irqAfter w) =
          some ⟨.restart, timerCallback irqAfter w⟩ := by
        simp [loopGo, hrun]
      have hfires := interrupt_reaches (p := p) .restart irqBeforeRestart _ hfault₁
      refine go_reaches (.calm [] []) hfault₁ hgo (hfires.trans ?_)
      have hfault₂ := (timerCallback_fault irqBeforeRestart _).trans hfault₁
      exact go_reaches (.calm [] []) hfault₂ rfl (.refl _ _)

/-- **Every pass of `App` is a run of the loop**, from its head back to its head. -/
theorem mainLoopPass_refines (hfault : w.fault = false) (h : mainLoopPass p inp w = some w')
    (hfault' : w'.fault = false) : (mainLoop p).Reaches ⟨.head, w⟩ ⟨.head, w'⟩ := by
  rw [mainLoopPass] at h
  split at h
  · next hrun =>
      obtain ⟨w₁, happ, h⟩ := Option.bind_eq_some_iff.mp h
      simp only at h
      have hfault₁ : w₁.fault = false := by
        by_contra hstuck
        rw [Bool.not_eq_false] at hstuck
        rw [hstuck, if_pos rfl] at h
        obtain rfl := Option.some.inj h
        exact absurd hfault' (by simp)
      rw [if_neg (by simp [hfault₁])] at h
      obtain rfl := Option.some.inj ((apply_ite some _ _ _).trans h)
      have hhead : loopGo p inp .head w = some ⟨.node, { w with clock.ahead := inp.clock }⟩ := by
        simp [loopGo, hrun]
      have hend := test_reaches (p := p) (w := { w₁ with clock.ahead := [] }) hfault₁
        inp.irqAfter inp.irqBeforeRestart
      have hinside := interrupt_reaches (p := p) .node inp.irqInside
        { w with clock.ahead := inp.clock } hfault
      have hfault₀ := (timerCallback_fault inp.irqInside
        { w with clock.ahead := inp.clock }).trans hfault
      have hrun₀ := timerCallback_run (w := { w with clock.ahead := inp.clock }) inp.irqInside hrun
      have hpass := appProcessAction_reaches hfault₀ hrun₀ happ hfault₁
      exact go_reaches inp hfault hhead (hinside.trans (hpass.trans hend))
  · obtain rfl := Option.some.inj h
    exact .refl _ _

/-- Every event of the firmware is a run of the loop at its head. -/
theorem step_refines {e : Event} (h : step p w e = some w') (hfault' : w'.fault = false) :
    (mainLoop p).Reaches ⟨.head, w⟩ ⟨.head, w'⟩ := by
  have hfault : w.fault = false := by
    rw [step.eq_def] at h
    split at h
    · exact absurd h (by simp)
    · next hfault => exact Bool.not_eq_true _ ▸ hfault
  cases hstack : e.ofStack with
  | true =>
      refine .head (e := .openThread e) ?_ (.refl _ _)
      simp [mainLoop, loopStep, hfault, hstack, h]
  | false =>
      cases e with
      | pass inp => exact mainLoopPass_refines hfault (step_pass h).2 hfault'
      | timer =>
          simp only [step, hfault, Bool.false_eq_true, if_false] at h
          split at h
          · obtain rfl := Option.some.inj h
            exact interrupt_reaches .head true w hfault
          · exact absurd h (by simp)
      | clock | role | autostart | browseResult | callback =>
          exact absurd hstack (by simp [Event.ofStack])

/-- **Runs of the firmware are runs of the loop**, as far as the firmware does not get stuck. -/
theorem firmware_refines {es : List Event} {now : UInt32}
    (hrun : (firmware p).run (boot now) es = some w) (hfault : w.fault = false) :
    (mainLoop p).Reaches (loopStart now) ⟨.head, w⟩ := by
  have hsim : ∃ s, (mainLoop p).Reaches (loopStart now) s ∧
      (w.fault = true ∨ s = ⟨.head, w⟩) := by
    refine StepSystem.run_simulated
      (R := fun w (s : LoopState) => w.fault = true ∨ s = ⟨.head, w⟩) ?_ (Or.inr rfl) hrun
    rintro w e w' s (hstuck | rfl) hstep
    · have hnone : step p w e = none := by rw [step.eq_def, if_pos hstuck]
      exact absurd (hnone.symm.trans hstep) (by simp)
    · cases hfault' : w'.fault with
      | true => exact ⟨⟨.head, w⟩, .refl _ _, Or.inl rfl⟩
      | false => exact ⟨⟨.head, w'⟩, step_refines hstep hfault', Or.inr rfl⟩
  obtain ⟨s, hreach, hstuck | rfl⟩ := hsim
  · exact absurd (hstuck.symm.trans hfault) (by simp)
  · exact hreach

end SmartCO2
