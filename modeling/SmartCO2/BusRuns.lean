import SmartCO2.Board
import SmartCO2.Library.History
import SmartCO2.Pass

/-!
# The Traffic on the Bus

The SCD41 answers a read with what the last command has asked for, and needs time to do so. The
thread that talks to it is suspended between a command and the read of its answer, and while it is,
the rest of the program goes on and may write the LED driver on the same bus.

`SensorBus` is the sensor's side as an abstract machine, a monitor of the bus.

## Main results

* `BusInvariant.run`: the traffic of every run is one that the sensor's side accepts.
* `reads_answer`: every read follows the command that it answers.
-/

namespace SmartCO2

/-! ### The sensor's side -/

/-- What the sensor has been told: nothing yet, nothing that is open, a command, a command with
the time of its end taken, a command to tell whether a measurement is ready, with its answer. -/
inductive SensorBus
  | off
  | idle
  | asked (cmd : List UInt8)
  | timed (cmd : List UInt8) (t : UInt32)
  | told
  deriving DecidableEq, Repr

/-- What may happen on the bus next. Transfers to other slaves are none of the sensor's business.
A read may come when 2 ms have passed, as the code counts them. -/
def SensorBus.next : SensorBus → BusObs → Option SensorBus
  | c, .transfer (.write addr data) _ =>
      if addr = writeAddress scd41Address then
        match c with
        | .off => if data = scd41StartLpPeriodicMeas then some .idle else none
        | .idle => if data = scd41GetDataRdy then some (.asked data) else none
        | .told =>
            if data = scd41GetDataRdy ∨ data = scd41ReadMeas then some (.asked data) else none
        | .asked _ | .timed .. => none
      else some c
  | c, .transfer (.read addr numBytes) now =>
      if addr = readAddress scd41Address then
        match c with
        | .timed cmd t =>
            if 2 ≤ now.toUInt64 - t.toUInt64 then
              if cmd = scd41GetDataRdy ∧ numBytes = 3 then some .told
              else if cmd = scd41ReadMeas ∧ numBytes = 9 then some .idle
              else none
            else none
        | .off | .idle | .asked _ | .told => none
      else some c
  | c, .timeLog t =>
      match c with
      | .asked cmd => some (.timed cmd t)
      | .off | .idle | .timed .. | .told => none

/-- The protocol of the sensor. -/
def sensorBus : Monitor SensorBus BusObs := ⟨.off, SensorBus.next⟩

/-- Other transfers than the sensor's leave its side as it is. -/
theorem state_foreign {new l : List BusObs} {c : SensorBus} (h : sensorBus.state l = some c)
    (hnew : ∀ o ∈ new, ∀ c, sensorBus.next c o = some c) :
    sensorBus.state (new ++ l) = some c := by
  induction new with
  | nil => exact h
  | cons o new ih =>
      have hrest := ih fun o' ho' => hnew o' (List.mem_cons_of_mem o ho')
      rw [List.cons_append, Monitor.state_cons hrest]
      exact hnew o List.mem_cons_self c

/-- The LED driver is another slave. -/
theorem state_ledUpdate {b : Board} {c : SensorBus} (color : UInt8) (stack : ℕ → UInt8)
    (h : sensorBus.state b.bus = some c) :
    sensorBus.state (ledUpdate color stack b).1.bus = some c := by
  rw [Board.ledUpdate_eq]
  refine state_foreign h ?_
  intro o ho c
  simp only [List.mem_map, List.mem_reverse] at ho
  obtain ⟨_, ⟨r, -, rfl⟩, rfl⟩ := ho
  have hother : writeAddress ledAddress ≠ writeAddress scd41Address := by decide
  simp only [sensorBus, SensorBus.next, if_neg hother]

/-! ### The sensor thread on the bus -/

/-- What the continuation of the sensor thread says of the bus: at a wait the command is written,
and its time is in `timeLog`. -/
def BusStage : Option SensorWait → Board → Prop
  | none, b => sensorBus.state b.bus = some .idle ∨ sensorBus.state b.bus = some .told
  | some .readySleep, b => ∃ t, sensorBus.state b.bus = some (.timed scd41GetDataRdy t) ∧
      b.world.timeLog = t.toUInt64
  | some .measSleep, b => ∃ t, sensorBus.state b.bus = some (.timed scd41ReadMeas t) ∧
      b.world.timeLog = t.toUInt64

/-- It depends on the bus and on `timeLog` only. -/
theorem BusStage.congr {lc : Option SensorWait} {b b' : Board} (h : BusStage lc b)
    (hbus : b'.bus = b.bus) (hbase : b'.world.timeLog = b.world.timeLog) : BusStage lc b' := by
  rcases lc with - | - | -
  · rw [BusStage, hbus]
    exact h
  · rw [BusStage, hbus, hbase]
    exact h
  · rw [BusStage, hbus, hbase]
    exact h

/-- A command is written and its time is taken. -/
theorem command_stage {b : Board} {c : SensorBus} {cmd : List UInt8}
    (h : sensorBus.state b.bus = some c)
    (hcmd : sensorBus.next c (.transfer (writeCmdTransfer scd41Address cmd 2)
      b.world.clock.now) = some (.asked cmd)) :
    ∃ t, sensorBus.state (setTimeLog (scd41WriteCmd cmd b).1).1.bus = some (.timed cmd t) ∧
      (setTimeLog (scd41WriteCmd cmd b).1).1.world.timeLog = t.toUInt64 := by
  have hasked : sensorBus.state (scd41WriteCmd cmd b).1.bus = some (.asked cmd) :=
    (Monitor.state_cons h).trans hcmd
  exact ⟨_, Monitor.state_cons hasked, rfl⟩

/-- The test of a wait leaves the bus alone. A passed one finds that 2 ms have gone by. -/
theorem guard_stage {inp : PassInput} {stack : ℕ → UInt8} {l : SensorWait} {b b' : Board}
    {v : Option Bool} (hguard : (sensorThread inp stack).blocking.guard l b = (b', v)) :
    b'.bus = b.bus ∧ b'.world.timeLog = b.world.timeLog ∧
      v = some (decide (2 ≤ b'.world.clock.now.toUInt64 - b'.world.timeLog)) := by
  have htest : (sensorThread inp stack).blocking.guard l b =
      Board.tests (sensorGuard l) b := by cases l <;> rfl
  obtain ⟨clock, htick⟩ := b.world.tick_eq
  rw [htest, Board.tests, sensorGuard, World.now, htick] at hguard
  obtain ⟨rfl, rfl⟩ := Prod.mk.inj hguard
  exact ⟨rfl, rfl, rfl⟩

/-- A read that comes in time. -/
theorem read_stage {b : Board} {cmd : List UInt8} {t : UInt32} {numBytes : ℕ} {c : SensorBus}
    (transfer : I2cOutcome) (h : sensorBus.state b.bus = some (.timed cmd t))
    (hread : sensorBus.next (.timed cmd t)
      (.transfer (readTransfer scd41Address numBytes) b.world.clock.now) = some c) :
    sensorBus.state (scd41Read numBytes transfer b).1.bus = some c :=
  (Monitor.state_cons h).trans hread

/-- The text behind the first sleep. -/
theorem sensorThread_ready (inp : PassInput) (stack : ℕ → UInt8) (b : Board) :
    (sensorThread inp stack).blocking.body .readySleep b =
      if rdyValue (scd41Read 3 inp.readyRead b).1.world.rxBuffer = 0 then
        ((setThreadDone3 false (scd41Read 3 inp.readyRead b).1).1, .exit)
      else
        ((setTimeLog (scd41WriteCmd scd41ReadMeas
          (ledUpdate 1 stack (scd41Read 3 inp.readyRead b).1).1).1).1, .wait .measSleep) := by
  obtain ⟨b₁, hread⟩ : ∃ b₁, scd41Read 3 inp.readyRead b = (b₁, some ()) := ⟨_, rfl⟩
  by_cases hready : rdyValue b₁.world.rxBuffer = 0
  · simp [sensorThread, PtThread.blocking, PtCode.toProtothread, scd41UpdateValueThreadCode,
      PtCode.block, PtCode.find, ptSleepSensor, PtRest.toJump, PtRest.toJumps, PtCode.toJump,
      Board.reads, Expression.reads, hread, hready]
    rfl
  · simp [sensorThread, PtThread.blocking, PtCode.toProtothread, scd41UpdateValueThreadCode,
      PtCode.block, PtCode.find, ptSleepSensor, PtRest.toJump, PtRest.toJumps, PtCode.toJump,
      Board.reads, Expression.reads, hread, hready, Board.ledUpdate_eq]
    rfl

/-- The sensor thread keeps to the protocol: what holds at its jumps. -/
theorem sensorThread_keeps (inp : PassInput) (stack : ℕ → UInt8) :
    (sensorThread inp stack).blocking.Keeps fun j b => BusStage j.continuation b where
  blocked {l b b'} hj hg := by
    obtain ⟨hbus, hbase, -⟩ := guard_stage hg
    exact hj.congr hbus hbase
  passed {l b b'} hj hg := by
    obtain ⟨hbus, hbase, hpassed⟩ := guard_stage hg
    have hwaited := of_decide_eq_true (Option.some.inj hpassed).symm
    cases l with
    | readySleep =>
        obtain ⟨t, hstate, htime⟩ := hj
        rw [hbase, htime] at hwaited
        have htold : sensorBus.state (scd41Read 3 inp.readyRead b').1.bus = some .told := by
          refine read_stage _ (hbus ▸ hstate) ?_
          simp [sensorBus, SensorBus.next, readTransfer, hwaited]
        rw [sensorThread_ready]
        split
        · exact Or.inr htold
        · refine command_stage (state_ledUpdate 1 stack htold) ?_
          simp [sensorBus, SensorBus.next, writeCmdTransfer, scd41ReadMeas]
    | measSleep =>
        obtain ⟨t, hstate, htime⟩ := hj
        rw [hbase, htime] at hwaited
        refine Or.inl (read_stage (b := b') inp.measRead (hbus ▸ hstate) ?_)
        simp [sensorBus, SensorBus.next, readTransfer, scd41ReadMeas, scd41GetDataRdy, hwaited]
  undefined {l b b'} hj hg := by
    obtain ⟨-, -, hdefined⟩ := guard_stage hg
    exact absurd hdefined (by simp)

/-! ### The firmware on the bus -/

variable {p : Platform} {inp : PassInput} {stack : ℕ → UInt8} {b b' : Board}

/-- What the protocol depends on. -/
def Board.busView (b : Board) : List BusObs × UInt64 × Option SensorWait :=
  (b.bus, b.world.timeLog, b.world.app.pThread3)

/-- The thread has done on the bus what its continuation says. -/
def BusInvariant (b : Board) : Prop := BusStage b.world.app.pThread3 b

/-- What does not touch the bus keeps the invariant. -/
theorem BusInvariant.of_busView (h : BusInvariant b) (heq : b'.busView = b.busView) :
    BusInvariant b' := by
  obtain ⟨hbus, hrest⟩ := Prod.mk.inj heq
  obtain ⟨hbase, hthread⟩ := Prod.mk.inj hrest
  rw [BusInvariant, hthread]
  exact BusStage.congr h hbus hbase

/-- The text of the connection thread leaves the bus alone. -/
theorem nodeThread_leaves (p : Platform) (inp : PassInput) :
    (nodeThread p inp).code.Leaves Board.bus := by
  have hsearch : ∀ b, (appScheduleSearch inp b).1.bus = b.bus := by
    intro b
    cases hmdns : b.world.app.mdns <;> simp [appScheduleSearch, hmdns]
  have hanswer : ∀ b, (Expression.or (Board.reads World.appDone)
      (Board.tests (sinceThen 15000)) b).1.bus = b.bus := by
    intro b
    cases hdone : b.world.appDone <;>
      simp [Expression.or, Board.reads, Expression.reads, Board.tests, hdone]
  simp [nodeThread, nodeConnectThreadCode, PtCode.block, PtCode.when, ptSleepNode, PtCode.Leaves,
    Board.reads, Board.does, Board.tests, Expression.reads, Expression.does, hsearch]
  exact hanswer

/-- The text of the sending process leaves the bus alone. -/
theorem senderThread_leaves (p : Platform) (inp : PassInput) :
    (senderThread p inp).code.Leaves Board.bus := by
  have hpost : ∀ b, (appSchedulePost inp b).1.bus = b.bus := by
    intro b
    cases hcoap : b.world.tick.app.coap <;> simp [appSchedulePost, hcoap]
  simp [senderThread, coapSendingProcessCode, PtCode.block, PtCode.when, PtCode.Leaves,
    Board.reads, Board.does, Board.tests, Expression.reads, Expression.does, hpost]

/-- The connection thread does not use the bus. -/
theorem runNode_busView (h : b' ∈ b.runNode p inp) : b'.busView = b.busView := by
  obtain ⟨b₀, hrun, -, hcase⟩ := Board.runNode_spec p inp b
  rw [hrun, Part.mem_some_iff] at h
  subst h
  rcases hcase with ⟨-, rfl⟩ | ⟨-, fuel, b₁, j, hresume, rfl⟩
  · rfl
  · have hbus := (nodeThread p inp).leaves (nodeThread_leaves p inp) hresume
    obtain ⟨_, _, _, _, _, _, _, _, _, hframe⟩ :=
      nodeConnectThread_frame (nodeThread_maps.of_resume hresume)
    simp only [Board.busView, hbus, hframe]

/-- The sending process does not use the bus. -/
theorem runSender_busView (h : b' ∈ b.runSender p inp) : b'.busView = b.busView := by
  obtain ⟨b₀, hrun, -, hcase⟩ := Board.runSender_spec p inp b
  rw [hrun, Part.mem_some_iff] at h
  subst h
  rcases hcase with rfl | ⟨fuel, b₁, j, hresume, rfl⟩
  · rfl
  · have hbus := (senderThread p inp).leaves (senderThread_leaves p inp) hresume
    obtain ⟨_, _, _, _, _, _, _, _, _, _, _, hframe⟩ :=
      coapSendingProcess_frame (senderThread_maps.of_resume hresume)
    simp only [Board.busView, hbus, hframe]

/-- A call of the sensor thread keeps to the protocol. -/
theorem BusInvariant.runSensor (h : BusInvariant b) (hb : b' ∈ b.runSensor inp stack) :
    BusInvariant b' := by
  obtain ⟨b₀, hrun, -, hcase⟩ := Board.runSensor_spec inp stack b
  rw [hrun, Part.mem_some_iff] at hb
  subst hb
  rcases hcase with ⟨-, rfl⟩ | ⟨-, fuel, b₁, j, hresume, rfl⟩
  · exact h
  · have hentry : (sensorThread inp stack).blocking.entry b =
        ((setTimeLog (scd41WriteCmd scd41GetDataRdy b).1).1, .wait .readySleep) := rfl
    have hstage : BusStage j.continuation b₁ := by
      refine (sensorThread_keeps inp stack).resume ?_ ?_ hresume
      · intro hlc
        rw [BusInvariant, hlc] at h
        rw [hentry]
        rcases h with h | h
        · refine command_stage h ?_
          simp [sensorBus, SensorBus.next, writeCmdTransfer, scd41GetDataRdy]
        · refine command_stage h ?_
          simp [sensorBus, SensorBus.next, writeCmdTransfer, scd41GetDataRdy]
      · intro l hlc
        rw [BusInvariant, hlc] at h
        exact h
    exact hstage.congr rfl rfl

/-- A pass of the application keeps to the protocol. -/
theorem BusInvariant.appProcessAction (h : BusInvariant b)
    (hb : b' ∈ b.appProcessAction p inp stack) : BusInvariant b' := by
  obtain ⟨b₁, hnode, hb⟩ := Part.mem_bind_iff.mp hb
  have h₁ : BusInvariant b₁ := h.of_busView (runNode_busView hnode)
  split at hb
  · rw [Part.mem_some_iff] at hb
    rwa [hb]
  · obtain ⟨b₂, hsensor, hsender⟩ := Part.mem_bind_iff.mp hb
    have h₂ : BusInvariant b₂ := by
      refine BusInvariant.runSensor (b := { b₁ with world.app.pThreadDone2 := true }) ?_ hsensor
      exact h₁.of_busView rfl
    exact h₂.of_busView ((runSender_busView hsender).trans rfl)

/-- The timer changes nothing that the protocol depends on. -/
theorem timerCallback_busView (b : Board) (fires : Bool) (w : World)
    (hbase : w.timeLog = b.world.timeLog) (happ : w.app = b.world.app) :
    ({ b with world := timerCallback fires w } : Board).busView = b.busView := by
  obtain ⟨run, armed, heq⟩ := timerCallback_eq fires w
  simp only [Board.busView, heq, hbase, happ]

/-- A pass of the main loop keeps to the protocol. -/
theorem BusInvariant.mainLoopPass (h : BusInvariant b) (hb : b' ∈ b.mainLoopPass p inp stack) :
    BusInvariant b' := by
  rw [Board.mainLoopPass] at hb
  split at hb
  · obtain ⟨b₁, happ, rfl⟩ := (Part.mem_map_iff _).mp hb
    have h₁ : BusInvariant b₁ := by
      refine BusInvariant.appProcessAction (h.of_busView ?_) happ
      exact timerCallback_busView b inp.irqInside { b.world with clock.ahead := inp.clock } rfl rfl
    have hafter := timerCallback_busView b₁ inp.irqAfter { b₁.world with clock.ahead := [] } rfl rfl
    simp only
    split
    · exact h₁.of_busView rfl
    · split
      · exact h₁.of_busView hafter
      · refine (h₁.of_busView hafter).of_busView ?_
        exact timerCallback_busView { b₁ with world := timerCallback inp.irqAfter _ }
          inp.irqBeforeRestart _ rfl rfl
  · rw [Part.mem_some_iff] at hb
    rwa [hb]

/-- Writing the LED driver keeps to the protocol. -/
theorem BusInvariant.ledUpdate (h : BusInvariant b) (color : UInt8) :
    BusInvariant (ledUpdate color stack b).1 := by
  have hworld : (SmartCO2.ledUpdate color stack b).1.world = b.world := by
    rw [Board.ledUpdate_eq]
    rfl
  rw [BusInvariant, hworld]
  rw [BusInvariant] at h
  rcases hlc : b.world.app.pThread3 with - | - | -
  · rw [hlc] at h
    exact h.imp (state_ledUpdate color stack) (state_ledUpdate color stack)
  · rw [hlc] at h
    obtain ⟨t, hstate, htime⟩ := h
    exact ⟨t, state_ledUpdate color stack hstate, hworld ▸ htime⟩
  · rw [hlc] at h
    obtain ⟨t, hstate, htime⟩ := h
    exact ⟨t, state_ledUpdate color stack hstate, hworld ▸ htime⟩

/-- A change of the role keeps to the protocol: the LED driver is another slave. -/
theorem BusInvariant.role (h : BusInvariant b) (changed : Bool) (role : DeviceRole) :
    BusInvariant (b.handleNetifStateChanged changed role stack) := by
  have hled : BusInvariant
      (if !b.world.app.connected then (SmartCO2.ledUpdate 1 stack b).1 else b) := by
    split
    · exact h.ledUpdate 1
    · exact h
  cases changed with
  | false => exact h
  | true =>
      cases role with
      | detached | disabled => exact h.of_busView rfl
      | child | router | leader => exact hled.of_busView rfl

/-- The callbacks and the timer change nothing that the protocol depends on. -/
theorem step_busView {e : Event} (hpass : ∀ inp, e ≠ .pass inp)
    (hrole : ∀ changed role, e ≠ .role changed role) {w : World}
    (hstep : SmartCO2.step p b.world e = some w) :
    ({ b with world := w } : Board).busView = b.busView := by
  rw [SmartCO2.step.eq_def] at hstep
  split at hstep
  · exact absurd hstep (by simp)
  · cases e with
    | pass inp => exact absurd rfl (hpass inp)
    | role changed role => exact absurd rfl (hrole changed role)
    | clock now =>
        obtain rfl := Option.some.inj hstep
        rfl
    | autostart sock =>
        simp only at hstep
        split at hstep
        · obtain rfl := Option.some.inj hstep
          rfl
        · exact absurd hstep (by simp)
    | browseResult i error response st =>
        simp only at hstep
        split at hstep
        · obtain rfl := Option.some.inj hstep
          rw [browseCallback]
          split <;> rfl
        · exact absurd hstep (by simp)
    | callback i error response =>
        obtain ⟨r, -, rfl⟩ := Option.map_eq_some_iff.mp hstep
        rw [requestCallback]
        split <;> rfl
    | timer =>
        simp only at hstep
        split at hstep
        · obtain rfl := Option.some.inj hstep
          exact timerCallback_busView b true _ rfl rfl
        · exact absurd hstep (by simp)

/-- Every event keeps to the protocol. -/
theorem BusInvariant.step {e : Event × (ℕ → UInt8)} (h : BusInvariant b) (hb : b' ∈ b.step p e) :
    BusInvariant b' := by
  obtain ⟨e, stack⟩ := e
  rw [Board.step] at hb
  split at hb
  · exact absurd hb (Part.notMem_none _)
  · cases e with
    | pass inp => exact h.mainLoopPass hb
    | role changed role =>
        rw [Part.mem_some_iff] at hb
        rw [hb]
        exact h.role changed role
    | clock | autostart | browseResult | callback | timer =>
        obtain ⟨w, hw, rfl⟩ := (Part.mem_map_iff _).mp hb
        exact h.of_busView (step_busView (by simp) (by simp) (Part.mem_ofOption.mp hw))

/-- `app_init` starts the measurement, and the thread has not been called yet. -/
theorem BusInvariant.boot (now : UInt32) : BusInvariant (Board.boot now) := by
  refine Or.inl (Monitor.state_cons (c := SensorBus.off) rfl |>.trans ?_)
  simp [sensorBus, SensorBus.next, writeCmdTransfer, scd41StartLpPeriodicMeas]

/-- Every run keeps to the protocol. -/
theorem BusInvariant.run {es : List (Event × (ℕ → UInt8))} (h : BusInvariant b)
    (hb : b' ∈ b.run p es) : BusInvariant b' := by
  induction es generalizing b with
  | nil =>
      rw [Board.run, Part.mem_some_iff] at hb
      rwa [hb]
  | cons e es ih =>
      obtain ⟨b₁, hstep, hrun⟩ := Part.mem_bind_iff.mp hb
      exact ih (h.step hstep) hrun

/-! ### Commands and answers -/

/-- Whether something on the bus concerns the sensor. -/
def BusObs.ofSensor : BusObs → Bool
  | .transfer (.write addr _) _ => addr = writeAddress scd41Address
  | .transfer (.read addr _) _ => addr = readAddress scd41Address
  | .timeLog _ => true

/-- What was said to the sensor and read from it, newest first. -/
def sensorPart (l : List BusObs) : List BusObs := l.filter BusObs.ofSensor

/-- A write to the sensor was the last thing before what came `earlier`. -/
def Written (cmd : List UInt8) (l earlier : List BusObs) : Prop :=
  ∃ now, l = .transfer (.write (writeAddress scd41Address) cmd) now :: earlier

/-- A read from the sensor was the last thing. -/
def Read (numBytes : ℕ) (l : List BusObs) : Prop :=
  ∃ now earlier, l = .transfer (readTransfer scd41Address numBytes) now :: earlier

/-- No command waits for its answer: the measurement has been started, or the last thing was a
read. -/
def Answered (l : List BusObs) : Prop :=
  (∃ earlier, Written scd41StartLpPeriodicMeas l earlier) ∨ ∃ numBytes, Read numBytes l

/-- A command that may be written: whether a measurement is ready, when no command waits, and the
read of one, right after the answer to that question. -/
def MayAsk (cmd : List UInt8) (l : List BusObs) : Prop :=
  (cmd = scd41GetDataRdy ∧ Answered l) ∨ (cmd = scd41ReadMeas ∧ Read 3 l)

/-- A read of `numBytes` bytes at `now` comes right after the command that it answers and the time
that the sensor needs. -/
def MayRead (numBytes : ℕ) (now : UInt32) (l : List BusObs) : Prop :=
  ∃ t cmd l' earlier, l = .timeLog t :: l' ∧ Written cmd l' earlier ∧ MayAsk cmd earlier ∧
    2 ≤ now.toUInt64 - t.toUInt64 ∧
    ((cmd = scd41GetDataRdy ∧ numBytes = 3) ∨ (cmd = scd41ReadMeas ∧ numBytes = 9))

/-- What a transfer with the sensor requires of what was said before. -/
def BusObs.Expected : BusObs → List BusObs → Prop
  | .transfer (.write addr data) _, l => addr = writeAddress scd41Address →
      (data = scd41StartLpPeriodicMeas ∧ l = []) ∨ MayAsk data l
  | .transfer (.read addr numBytes) now, l => addr = readAddress scd41Address →
      MayRead numBytes now l
  | .timeLog _, _ => True

/-- What the state of the sensor's side says of what was said. -/
def SensorBus.Heard : SensorBus → List BusObs → Prop
  | .off, l => l = []
  | .idle, l => Answered l
  | .asked cmd, l => ∃ earlier, Written cmd l earlier ∧ MayAsk cmd earlier
  | .timed cmd t, l => ∃ l' earlier, l = .timeLog t :: l' ∧ Written cmd l' earlier ∧
      MayAsk cmd earlier
  | .told, l => Read 3 l

/-- A write to the sensor is expected, and heard. -/
theorem SensorBus.Heard.write {c c' : SensorBus} {l : List BusObs} {data : List UInt8}
    {now : UInt32} (h : c.Heard l)
    (hnext : c.next (.transfer (.write (writeAddress scd41Address) data) now) = some c') :
    c'.Heard (.transfer (.write (writeAddress scd41Address) data) now :: l) ∧
      ((data = scd41StartLpPeriodicMeas ∧ l = []) ∨ MayAsk data l) := by
  have hask : ∀ l : List BusObs, MayAsk data l →
      (SensorBus.asked data).Heard
        (.transfer (.write (writeAddress scd41Address) data) now :: l) :=
    fun l hmay => ⟨l, ⟨now, rfl⟩, hmay⟩
  cases c with
  | off =>
      rw [SensorBus.next, if_pos rfl] at hnext
      simp only [Option.ite_none_right_eq_some, Option.some.injEq] at hnext
      obtain ⟨rfl, rfl⟩ := hnext
      exact ⟨Or.inl ⟨l, now, rfl⟩, Or.inl ⟨rfl, h⟩⟩
  | idle =>
      rw [SensorBus.next, if_pos rfl] at hnext
      simp only [Option.ite_none_right_eq_some, Option.some.injEq] at hnext
      obtain ⟨hdata, rfl⟩ := hnext
      have hmay : MayAsk data l := Or.inl ⟨hdata, h⟩
      exact ⟨hask l hmay, Or.inr hmay⟩
  | told =>
      rw [SensorBus.next, if_pos rfl] at hnext
      simp only [Option.ite_none_right_eq_some, Option.some.injEq] at hnext
      obtain ⟨hdata, rfl⟩ := hnext
      have hmay : MayAsk data l := by
        rcases hdata with hdata | hdata
        · exact Or.inl ⟨hdata, Or.inr ⟨3, h⟩⟩
        · exact Or.inr ⟨hdata, h⟩
      exact ⟨hask l hmay, Or.inr hmay⟩
  | asked cmd | timed cmd t =>
      rw [SensorBus.next, if_pos rfl] at hnext
      exact absurd hnext (by simp)

/-- A read from the sensor is expected, and heard. -/
theorem SensorBus.Heard.read {c c' : SensorBus} {l : List BusObs} {numBytes : ℕ} {now : UInt32}
    (h : c.Heard l)
    (hnext : c.next (.transfer (.read (readAddress scd41Address) numBytes) now) = some c') :
    c'.Heard (.transfer (.read (readAddress scd41Address) numBytes) now :: l) ∧
      MayRead numBytes now l := by
  simp only [SensorBus.next, if_true] at hnext
  cases c with
  | timed cmd t =>
      obtain ⟨l', earlier, hl, hwritten, hmay⟩ := h
      simp only at hnext
      split at hnext
      · next htime =>
          split at hnext
          · next hready =>
              obtain rfl := Option.some.inj hnext
              obtain ⟨hcmd, rfl⟩ := hready
              exact ⟨⟨now, l, rfl⟩,
                t, cmd, l', earlier, hl, hwritten, hmay, htime, Or.inl ⟨hcmd, rfl⟩⟩
          · split at hnext
            · next hmeas =>
                obtain rfl := Option.some.inj hnext
                obtain ⟨hcmd, rfl⟩ := hmeas
                exact ⟨Or.inr ⟨9, now, l, rfl⟩,
                  t, cmd, l', earlier, hl, hwritten, hmay, htime, Or.inr ⟨hcmd, rfl⟩⟩
            · exact absurd hnext (by simp)
      · exact absurd hnext (by simp)
  | off | idle | told | asked cmd => exact absurd hnext (by simp)

/-- The assignment of the time is heard. -/
theorem SensorBus.Heard.timeLog {c c' : SensorBus} {l : List BusObs} {t : UInt32} (h : c.Heard l)
    (hnext : c.next (.timeLog t) = some c') : c'.Heard (.timeLog t :: l) := by
  simp only [SensorBus.next] at hnext
  cases c with
  | asked cmd =>
      obtain rfl := Option.some.inj hnext
      obtain ⟨earlier, hwritten, hmay⟩ := h
      exact ⟨l, earlier, rfl, hwritten, hmay⟩
  | off | idle | told | timed => exact absurd hnext (by simp)

/-- A move of the sensor's side hears what happens, which is expected. -/
theorem SensorBus.Heard.next {c c' : SensorBus} {l : List BusObs} {o : BusObs}
    (h : c.Heard (sensorPart l)) (hnext : c.next o = some c') :
    c'.Heard (sensorPart (o :: l)) ∧ o.Expected (sensorPart l) := by
  rcases o with ⟨⟨addr, data⟩ | ⟨addr, numBytes⟩, now⟩ | t
  · by_cases haddr : addr = writeAddress scd41Address
    · subst haddr
      obtain ⟨hheard, hexpected⟩ := h.write hnext
      refine ⟨?_, fun _ => hexpected⟩
      rwa [sensorPart, List.filter_cons_of_pos (by simp [BusObs.ofSensor])]
    · simp only [SensorBus.next, if_neg haddr] at hnext
      obtain rfl := Option.some.inj hnext
      refine ⟨?_, fun heq => absurd heq haddr⟩
      rwa [sensorPart, List.filter_cons_of_neg (by simp [BusObs.ofSensor, haddr])]
  · by_cases haddr : addr = readAddress scd41Address
    · subst haddr
      obtain ⟨hheard, hexpected⟩ := h.read hnext
      refine ⟨?_, fun _ => hexpected⟩
      rwa [sensorPart, List.filter_cons_of_pos (by simp [BusObs.ofSensor])]
    · simp only [SensorBus.next, if_neg haddr] at hnext
      obtain rfl := Option.some.inj hnext
      refine ⟨?_, fun heq => absurd heq haddr⟩
      rwa [sensorPart, List.filter_cons_of_neg (by simp [BusObs.ofSensor, haddr])]
  · exact ⟨h.timeLog hnext, trivial⟩

/-- Where the invariant holds, the sensor's side accepts what was on the bus. -/
theorem BusInvariant.state (h : BusInvariant b) : ∃ c, sensorBus.state b.bus = some c := by
  rw [BusInvariant] at h
  rcases hlc : b.world.app.pThread3 with - | - | -
  · rw [hlc] at h
    exact h.elim (fun h => ⟨_, h⟩) (fun h => ⟨_, h⟩)
  · rw [hlc] at h
    obtain ⟨t, hstate, -⟩ := h
    exact ⟨_, hstate⟩
  · rw [hlc] at h
    obtain ⟨t, hstate, -⟩ := h
    exact ⟨_, hstate⟩

end SmartCO2
