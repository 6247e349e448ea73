import SmartCO2.App
import SmartCO2.ThreadCode

/-!
# The Firmware as It Is Written

The functions that call the threads, over the texts of the threads: each call runs the C function
that the macros of `pt.h` make of a text. A pass of the main loop, the callbacks and the timer are
those of `App`; `handleNetifStateChanged` also writes the LED driver.

## Main results

* `Board.run_world`: the firmware as it is written and the model of its blocks have the same runs.
-/

namespace SmartCO2

open PtCode

/-! ### Calls of the threads -/

/-- A call of a thread: the state it leaves, what it saves in its `struct pt`, and whether it did
something without a defined behaviour. -/
def PtThread.callBoard {L : Type} [DecidableEq L] (t : PtThread L Board) (lc : Option L)
    (b : Board) : Part (Board × Option L × Bool) :=
  (t.code.call lc b).bind fun c =>
    match c with
    | .returned _ q => .some (q.state, q.lc, false)
    | .undefined q => .some (q.state, none, true)
    | .run .. => .none

/-- Where the text reads as a thread of the model, a call of the text is a call of that thread. -/
theorem PtThread.callBoard_eq {L : Type} [DecidableEq L] (t : PtThread L Board)
    {t' : Protothread L World} (hmaps : t.blocking.Maps t' Board.world)
    (hwaits : ∀ l, l ∈ t.code.waits) {fuel : ℕ} {lc : Option L} {b : Board} {w' : World}
    {j : Jump L} (h : t'.resume fuel lc b.world = some (w', j)) :
    ∃ b', b'.world = w' ∧ t.blocking.resume fuel lc b = some (b', j) ∧
      t.callBoard lc b = .some (b', j.continuation, decide (j = .stuck)) := by
  rw [hmaps.resume] at h
  obtain ⟨⟨b', j'⟩, hresume, heq⟩ := Option.map_eq_some_iff.mp h
  obtain ⟨rfl, rfl⟩ := Prod.mk.inj heq
  obtain ⟨c, hc, hends⟩ :=
    PtCode.exists_mem_call t.guarded t.distinct (fun l _ => hwaits l) hresume
  refine ⟨b', rfl, hresume, ?_⟩
  rw [PtThread.callBoard, Part.eq_some_iff.mpr hc, Part.bind_some]
  cases j' with
  | stuck =>
      obtain ⟨lc', rfl⟩ := hends
      rfl
  | wait | restart | exit | finish =>
      obtain rfl := hends
      rfl

/-- Every continuation of the connection thread is a wait of its text. -/
theorem nodeThread_waits (p : Platform) (inp : PassInput) (l : NodeWait) :
    l ∈ (nodeThread p inp).code.waits := by
  cases l <;> simp [nodeThread, nodeConnectThreadCode, block, when, ptSleepNode, PtCode.waits]

/-- Every continuation of the sensor thread is a wait of its text. -/
theorem sensorThread_waits (inp : PassInput) (stack : ℕ → UInt8) (l : SensorWait) :
    l ∈ (sensorThread inp stack).code.waits := by
  cases l <;> simp [sensorThread, scd41UpdateValueThreadCode, block, ptSleepSensor, PtCode.waits]

/-- Every continuation of the sending process is a wait of its text. -/
theorem senderThread_waits (p : Platform) (inp : PassInput) (l : SenderWait) :
    l ∈ (senderThread p inp).code.waits := by
  cases l
  simp [senderThread, coapSendingProcessCode, block, when, PtCode.waits]

/-! ### The functions that call the threads -/

namespace Board

section Pass

variable (p : Platform) (inp : PassInput) (stack : ℕ → UInt8)

/-- Thread 1, unless it is done. -/
def runNode (b : Board) : Part Board :=
  if b.world.app.pThreadDone1 then .some b
  else
    ((nodeThread p inp).callBoard b.world.app.pThread1 b).map fun r =>
      { r.1 with world.app.pThread1 := r.2.1, world.fault := r.2.2 }

/-- Thread 3, unless it is done. -/
def runSensor (b : Board) : Part Board :=
  if b.world.app.pThreadDone3 then .some b
  else
    ((sensorThread inp stack).callBoard b.world.app.pThread3 b).map fun r =>
      { r.1 with world.app.pThread3 := r.2.1, world.fault := b.world.fault || r.2.2 }

/-- The sending process, once all four threads are done. -/
def runSender (b : Board) : Part Board :=
  if b.world.app.pThreadDone1 && b.world.app.pThreadDone2 && b.world.app.pThreadDone3 &&
      b.world.app.pThreadDone4 then
    ((senderThread p inp).callBoard b.world.app.sendingProcessPt b).map fun r =>
      { r.1 with world.app.sendingProcessPt := r.2.1, world.fault := r.2.2 }
  else .some b

/-- `app_process_action`, with `SCD30_PRESENT` equal to 0: threads 2 and 4 are done at once. -/
def appProcessAction (b : Board) : Part Board :=
  (b.runNode p inp).bind fun b =>
    if b.world.fault then .some b
    else
      (runSensor inp stack { b with world.app.pThreadDone2 := true }).bind fun b =>
        runSender p inp { b with world.app.pThreadDone4 := true }

/-- The application part of one pass of the loop in `main`. -/
def mainLoopPass (b : Board) : Part Board :=
  if b.world.run then
    (appProcessAction p inp stack
      { b with world := timerCallback inp.irqInside { b.world with clock.ahead := inp.clock } }).map
        fun b =>
          let w := { b.world with clock.ahead := [] }
          if w.fault then { b with world := w }
          else
            let w := timerCallback inp.irqAfter w
            if w.run then { b with world := w }
            else
              { b with
                world := { timerCallback inp.irqBeforeRestart w with timerArmed := true } }
  else .some b

end Pass

/-- `handleNetifStateChanged`: on the first connection the LED driver is written. -/
def handleNetifStateChanged (changed : Bool) (role : DeviceRole) (stack : ℕ → UInt8) (b : Board) :
    Board :=
  if changed then
    match role with
    | .leader | .router | .child =>
        let b := if !b.world.app.connected then (ledUpdate 1 stack b).1 else b
        { b with world := ({ b.world with app.connected := true }).note (.role true) }
    | .detached | .disabled =>
        { b with world := ({ b.world with app.connected := false }).note (.role false) }
  else b

/-- One event, and what is on the stack when the LED driver is written in it. -/
def step (p : Platform) (b : Board) (e : Event × (ℕ → UInt8)) : Part Board :=
  if b.world.fault then .none
  else
    match e.1 with
    | .pass inp => b.mainLoopPass p inp e.2
    | .role changed role => .some (b.handleNetifStateChanged changed role e.2)
    | e => (Part.ofOption (SmartCO2.step p b.world e)).map fun w => { b with world := w }

/-- The events of a run. -/
def run (p : Platform) : Board → List (Event × (ℕ → UInt8)) → Part Board
  | b, [] => .some b
  | b, e :: es => (b.step p e).bind fun b => run p b es

/-- After `app_init`, which starts the periodic measurement of the sensor. -/
def boot (now : UInt32) : Board :=
  { world := SmartCO2.boot now, bus := [] : Board }.transfers
    [writeCmdTransfer scd41Address scd41StartLpPeriodicMeas 2]

end Board

/-! ### The blocks are what the firmware does -/

namespace Board

variable {p : Platform} {inp : PassInput} {stack : ℕ → UInt8} {b b' : Board}

/-- A call of thread 1, in the text and in the model. -/
theorem runNode_spec (p : Platform) (inp : PassInput) (b : Board) :
    ∃ b', b.runNode p inp = .some b' ∧ SmartCO2.runNode p inp b.world = some b'.world ∧
      ((b.world.app.pThreadDone1 = true ∧ b' = b) ∨ (b.world.app.pThreadDone1 = false ∧
        ∃ fuel b₁ j, (nodeThread p inp).blocking.resume fuel b.world.app.pThread1 b =
          some (b₁, j) ∧
        b' = { b₁ with world.app.pThread1 := j.continuation,
                       world.fault := decide (j = .stuck) })) := by
  cases hdone : b.world.app.pThreadDone1 with
  | true =>
      exact ⟨b, by simp [runNode, hdone], by simp [SmartCO2.runNode, hdone], Or.inl ⟨rfl, rfl⟩⟩
  | false =>
      obtain ⟨⟨w', j⟩, hresume⟩ := Option.isSome_iff_exists.mp
        (nodeConnectThread_isSome p inp b.world.app.pThread1 b.world)
      obtain ⟨b₁, rfl, hboard, hcall⟩ := (nodeThread p inp).callBoard_eq nodeThread_maps
        (nodeThread_waits p inp) hresume
      refine ⟨_, ?_, ?_, Or.inr ⟨rfl, _, b₁, j, hboard, rfl⟩⟩
      · simp only [runNode, hdone, hcall, Part.map_some, Bool.false_eq_true, if_false]
      · simp only [SmartCO2.runNode, hdone, hresume, Bool.false_eq_true, if_false]
        rfl

/-- The sensor thread does nothing without a defined behaviour. -/
theorem sensor_defined {inp : PassInput} {fuel : ℕ} {lc : Option SensorWait} {w w' : World}
    {j : Jump SensorWait} (h : (scd41UpdateValueThread inp).resume fuel lc w = some (w', j)) :
    j ≠ .stuck := by
  have hkeeps : (scd41UpdateValueThread inp).Keeps fun j _ => j ≠ .stuck := by
    refine Protothread.Keeps.of_tests (fun _ _ h => h) ?_ ?_
    · intro l s _
      cases l with
      | readySleep =>
          simp only [scd41UpdateValueThread, sensorBody]
          split <;> simp [sensorCommand]
      | measSleep => simp [scd41UpdateValueThread, sensorBody]
    · intro l s s' hguard
      exact absurd (congrArg Prod.snd hguard) (by simp [scd41UpdateValueThread, sensorGuard])
  refine hkeeps.resume (fun _ => ?_) (fun _ _ => by simp) h
  simp [scd41UpdateValueThread, sensorEntry, sensorCommand]

/-- A call of thread 3, in the text and in the model. -/
theorem runSensor_spec (inp : PassInput) (stack : ℕ → UInt8) (b : Board) :
    ∃ b', b.runSensor inp stack = .some b' ∧ SmartCO2.runSensor inp b.world = some b'.world ∧
      ((b.world.app.pThreadDone3 = true ∧ b' = b) ∨ (b.world.app.pThreadDone3 = false ∧
        ∃ fuel b₁ j, (sensorThread inp stack).blocking.resume fuel b.world.app.pThread3 b =
          some (b₁, j) ∧ b' = { b₁ with world.app.pThread3 := j.continuation })) := by
  cases hdone : b.world.app.pThreadDone3 with
  | true =>
      exact ⟨b, by simp [runSensor, hdone], by simp [SmartCO2.runSensor, hdone], Or.inl ⟨rfl, rfl⟩⟩
  | false =>
      obtain ⟨⟨w', j⟩, hresume⟩ := Option.isSome_iff_exists.mp
        (scd41UpdateValueThread_isSome inp b.world.app.pThread3 b.world)
      obtain ⟨b₁, rfl, hboard, hcall⟩ := (sensorThread inp stack).callBoard_eq sensorThread_maps
        (sensorThread_waits inp stack) hresume
      have hfault : b₁.world.fault = b.world.fault := by
        obtain ⟨_, _, _, _, _, _, _, _, heq, -⟩ := scd41UpdateValueThread_frame hresume
        rw [heq]
      have hdefined : j ≠ .stuck := sensor_defined hresume
      refine ⟨_, ?_, ?_, Or.inr ⟨rfl, _, b₁, j, hboard, rfl⟩⟩
      · simp only [runSensor, hdone, hcall, Part.map_some, Bool.false_eq_true, if_false,
          decide_eq_false hdefined, Bool.or_false, ← hfault]
      · simp only [SmartCO2.runSensor, hdone, hresume, Bool.false_eq_true, if_false]
        rfl

/-- A call of the sending process, in the text and in the model. -/
theorem runSender_spec (p : Platform) (inp : PassInput) (b : Board) :
    ∃ b', b.runSender p inp = .some b' ∧ SmartCO2.runSender p inp b.world = some b'.world ∧
      (b' = b ∨ ∃ fuel b₁ j, (senderThread p inp).blocking.resume fuel
          b.world.app.sendingProcessPt b = some (b₁, j) ∧
        b' = { b₁ with world.app.sendingProcessPt := j.continuation,
                       world.fault := decide (j = .stuck) }) := by
  cases hdone : b.world.app.pThreadDone1 && b.world.app.pThreadDone2 &&
      b.world.app.pThreadDone3 && b.world.app.pThreadDone4 with
  | false =>
      exact ⟨b, by simp only [runSender, hdone, Bool.false_eq_true, if_false],
        by simp only [SmartCO2.runSender, hdone, Bool.false_eq_true, if_false], Or.inl rfl⟩
  | true =>
      obtain ⟨⟨w', j⟩, hresume⟩ := Option.isSome_iff_exists.mp
        (coapSendingProcess_isSome p inp b.world.app.sendingProcessPt b.world)
      obtain ⟨b₁, rfl, hboard, hcall⟩ := (senderThread p inp).callBoard_eq senderThread_maps
        (senderThread_waits p inp) hresume
      refine ⟨_, ?_, ?_, Or.inr ⟨_, b₁, j, hboard, rfl⟩⟩
      · simp only [runSender, hdone, hcall, Part.map_some, if_true]
      · simp only [SmartCO2.runSender, hdone, hresume, if_true]
        rfl

/-- A pass of the application, in the text and in the model. -/
theorem appProcessAction_spec (p : Platform) (inp : PassInput) (stack : ℕ → UInt8) (b : Board) :
    ∃ b', b.appProcessAction p inp stack = .some b' ∧
      SmartCO2.appProcessAction p inp b.world = some b'.world := by
  obtain ⟨b₁, hnode, hnode', -⟩ := runNode_spec p inp b
  rw [appProcessAction, SmartCO2.appProcessAction, hnode, hnode', Part.bind_some]
  cases hfault : b₁.world.fault with
  | true => exact ⟨b₁, by rw [if_pos rfl], by simp [hfault]⟩
  | false =>
      obtain ⟨b₂, hsensor, hsensor', -⟩ :=
        runSensor_spec inp stack { b₁ with world.app.pThreadDone2 := true }
      obtain ⟨b₃, hsender, hsender', -⟩ :=
        runSender_spec p inp { b₂ with world.app.pThreadDone4 := true }
      refine ⟨b₃, ?_, ?_⟩
      · rw [if_neg Bool.false_ne_true, hsensor, Part.bind_some, hsender]
      · rw [Option.bind_eq_bind, Option.bind_some, if_neg (by rw [hfault]; simp)]
        exact Option.bind_eq_some_iff.mpr ⟨b₂.world, hsensor', hsender'⟩

/-- A pass of the main loop, in the text and in the model. -/
theorem mainLoopPass_spec (p : Platform) (inp : PassInput) (stack : ℕ → UInt8) (b : Board) :
    ∃ b', b.mainLoopPass p inp stack = .some b' ∧
      SmartCO2.mainLoopPass p inp b.world = some b'.world := by
  cases hrun : b.world.run with
  | false => exact ⟨b, by simp [mainLoopPass, hrun], by simp [SmartCO2.mainLoopPass, hrun]⟩
  | true =>
      obtain ⟨b₁, happ, happ'⟩ := appProcessAction_spec p inp stack
        { b with world :=
          timerCallback inp.irqInside { b.world with clock.ahead := inp.clock } }
      refine ⟨_, by rw [mainLoopPass, if_pos hrun, happ, Part.map_some], ?_⟩
      rw [SmartCO2.mainLoopPass, if_pos hrun]
      refine Option.bind_eq_some_iff.mpr ⟨b₁.world, happ', ?_⟩
      simp only
      split
      · rfl
      · split <;> rfl

/-- The LED driver is written, and nothing else happens. -/
theorem ledUpdate_eq (color : UInt8) (stack : ℕ → UInt8) (b : Board) :
    ledUpdate color stack b = (b.transfers ((ledRegisters color).map fun r =>
      .write (writeAddress ledAddress) [r.1, r.2]), some ()) := by
  simp only [ledUpdate, ledUpdateValue_eq]

/-- A change of the role, in the text and in the model. -/
theorem handleNetifStateChanged_world (changed : Bool) (role : DeviceRole) (stack : ℕ → UInt8)
    (b : Board) : (b.handleNetifStateChanged changed role stack).world =
      SmartCO2.handleNetifStateChanged changed role b.world := by
  have hled : (if !b.world.app.connected then (ledUpdate 1 stack b).1 else b).world = b.world := by
    rw [ledUpdate_eq]
    split <;> rfl
  cases changed with
  | false => rfl
  | true =>
      cases role with
      | detached | disabled => rfl
      | child | router | leader =>
          simp only [handleNetifStateChanged, SmartCO2.handleNetifStateChanged, if_true, hled]

/-- An event that does not touch the bus. -/
theorem map_ofOption (b : Board) (o : Option World) :
    (∃ b', ((Part.ofOption o).map fun w => { b with world := w }) = .some b' ∧
      o = some b'.world) ∨
    ((Part.ofOption o).map fun w => ({ b with world := w } : Board)) = .none ∧ o = none := by
  cases o with
  | none => exact Or.inr ⟨Part.map_none _, rfl⟩
  | some w => exact Or.inl ⟨_, Part.map_some _ w, rfl⟩

/-- An event, in the text and in the model: it leads to the same state, or cannot occur. -/
theorem step_spec (p : Platform) (b : Board) (e : Event × (ℕ → UInt8)) :
    (∃ b', b.step p e = .some b' ∧ SmartCO2.step p b.world e.1 = some b'.world) ∨
      (b.step p e = .none ∧ SmartCO2.step p b.world e.1 = none) := by
  obtain ⟨e, stack⟩ := e
  cases hfault : b.world.fault with
  | true => exact Or.inr ⟨by simp [step, hfault], by simp [SmartCO2.step, hfault]⟩
  | false =>
      cases e with
      | pass inp =>
          obtain ⟨b', hpass, hpass'⟩ := mainLoopPass_spec p inp stack b
          exact Or.inl ⟨b', by simp [step, hfault, hpass], by simp [SmartCO2.step, hfault, hpass']⟩
      | role changed role =>
          refine Or.inl ⟨b.handleNetifStateChanged changed role stack, by simp [step, hfault], ?_⟩
          simp [SmartCO2.step, hfault, handleNetifStateChanged_world]
      | clock | autostart | browseResult | callback | timer =>
          rw [step, hfault, if_neg Bool.false_ne_true]
          exact map_ofOption b _

/-- **The model is the firmware as it is written**: whatever happens, the program with the
control flow of its text, in which the macros of `pt.h` jump into the middle of the threads, and
the model of its blocks go through the same states. -/
theorem run_world (p : Platform) (b : Board) (es : List (Event × (ℕ → UInt8))) :
    (b.run p es).map Board.world = Part.ofOption ((firmware p).run b.world (es.map Prod.fst)) := by
  induction es generalizing b with
  | nil => rw [run, Part.map_some, List.map_nil, StepSystem.run, Part.ofOption]
  | cons e es ih =>
      rw [run, List.map_cons, StepSystem.run]
      rcases step_spec p b e with ⟨b', hstep, hstep'⟩ | ⟨hstep, hstep'⟩
      · have hmodel : (firmware p).step b.world e.1 = some b'.world := hstep'
        rw [hstep, Part.bind_some, hmodel]
        exact ih b'
      · have hmodel : (firmware p).step b.world e.1 = none := hstep'
        rw [hstep, Part.bind_none, Part.map_none, hmodel]
        rfl

end Board

end SmartCO2
