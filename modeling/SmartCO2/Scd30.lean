import SmartCO2.App
import SmartCO2.Library.Lifetime

/-!
# The Other Sensor Thread

The model of `SCD30UpdateValueThread`, which the firmware compiles but does not call as long as
`SCD30_PRESENT` is 0. It goes as the sensor thread of `SCD41.c` does: the thread asks whether a
measurement is ready, leaves if not, and otherwise reads it. Both of its reads go to the start
of one static buffer, and the ready word is taken from the bytes 7 and 8 of it, where the
3-byte answer has not arrived.

## Main results

* `scd30_stage`: in a buffer that is zero at the start these bytes stay zero, so every cycle
  ends without a measurement.
* `scd30_goesOn_iff`: the thread reads no measurement, so it does right exactly if the sensor
  never has one.
-/

namespace SmartCO2

/-! ### State -/

/-- `SCD30_MAX_RXBUFFER_SIZE` -/
abbrev scd30MaxRxBufferSize : ℕ := 10

instance : @NeZero ℕ Zero.ofOfNat0 scd30MaxRxBufferSize := Nat.instNeZeroSucc

/-- `SCD30_GET_DATA_RDY` -/
def scd30GetDataRdy : List UInt8 := [0x02, 0x02]

/-- `SCD30_READ_MEAS` -/
def scd30ReadMeas : List UInt8 := [0x03, 0x00]

/-- What is logged of the thread: the commands it writes, the answers it reads with their size,
and that it sets its done flag. -/
inductive Scd30Obs
  | command (cmd : List UInt8)
  | answer (numBytes : ℕ) (data : List UInt8)
  | ended
  deriving DecidableEq, Repr

/-- The state the thread works on: that of the firmware, where its arguments point to, and the
static variables `timeLog` and `i2c_rxBuffer_scd30` of `SCD30.c`. -/
structure Scd30State where
  world : World
  timeLog : UInt64
  rxBuffer : Fin scd30MaxRxBufferSize → UInt8
  log : List Scd30Obs

namespace Scd30State

/-- Log an observation. -/
def note (s : Scd30State) (o : Scd30Obs) : Scd30State := { s with log := o :: s.log }

/-- `NOW()`, together with the state in which the value was read. -/
def now (s : Scd30State) : UInt32 × Scd30State :=
  let (t, w) := s.world.now
  (t, { s with world := w })

end Scd30State

/-! ### The thread -/

/-- The value `rdy` that decides whether a measurement is ready. -/
def scd30RdyValue (rxBuffer : Fin scd30MaxRxBufferSize → UInt8) : UInt16 :=
  (word (rxBuffer 7) (rxBuffer 8) <<< 5) &&& 65504

/-- The measurement in the receive buffer, whole numbers that a `float` holds exactly. -/
def scd30Decode (rxBuffer : Fin scd30MaxRxBufferSize → UInt8) : Triple where
  co2 := (word (rxBuffer 1) (rxBuffer 2)).toNat
  temp := -45 + 175 * (word (rxBuffer 4) (rxBuffer 5)).toNat
  rh := 100 * (word (rxBuffer 7) (rxBuffer 8)).toNat

section Thread

variable (inp : PassInput)

/-- `PT_SLEEP(4)`, measured from `timeLog`. -/
def scd30Guard (_ : SensorWait) (s : Scd30State) : Scd30State × Option Bool :=
  let (t, s) := s.now
  (s, some (decide (4 ≤ t.toUInt64 - s.timeLog)))

/-- A command is written; `timeLog = NOW()`, and on to the sleep. -/
def scd30Command (l : SensorWait) (cmd : List UInt8) (transfer : I2cOutcome) (s : Scd30State) :
    Scd30State × Jump SensorWait :=
  let _ := i2cWriteCmd cmd transfer
  let (t, s) := (s.note (.command cmd)).now
  ({ s with timeLog := t.toUInt64 }, .wait l)

/-- From `PT_BEGIN` to the first sleep. -/
def scd30Entry (s : Scd30State) : Scd30State × Jump SensorWait :=
  scd30Command .readySleep scd30GetDataRdy inp.readyCmd s

/-- `I2C_Read` into the receive buffer. -/
def scd30Read (numBytes : ℕ) (transfer : I2cOutcome) (s : Scd30State) : Scd30State :=
  { s with rxBuffer := i2cRead s.rxBuffer numBytes transfer }.note
    (.answer numBytes transfer.data)

/-- `*pThreadDone = true` -/
def scd30End (s : Scd30State) : Scd30State :=
  { s with world.app.pThreadDone2 := true }.note .ended

/-- The blocks after the two sleeps. -/
def scd30Body : SensorWait → Scd30State → Scd30State × Jump SensorWait
  | .readySleep, s =>
      let s := scd30Read 3 inp.readyRead s
      if scd30RdyValue s.rxBuffer = 0 then (scd30End s, .exit)
      else scd30Command .measSleep scd30ReadMeas inp.measCmd s
  | .measSleep, s =>
      let s := scd30Read 9 inp.measRead s
      let t := scd30Decode s.rxBuffer
      (scd30End { s with world.app.co2 := t.co2, world.app.temp := t.temp,
                         world.app.rh := t.rh }, .finish)

/-- `SCD30UpdateValueThread` -/
def scd30UpdateValueThread : Protothread SensorWait Scd30State where
  entry := scd30Entry inp
  guard := scd30Guard
  body := scd30Body inp

end Thread

/-- Nothing else uses the static variables of `SCD30.c`. -/
def KeepsScd30 (s s' : Scd30State) : Prop :=
  s'.timeLog = s.timeLog ∧ s'.rxBuffer = s.rxBuffer ∧ s'.log = s.log

/-! ### What the buffer holds -/

/-- The ready word of a 3-byte answer, in its low 11 bits. -/
def readyWord (answer : List UInt8) : ℕ :=
  (word (answer.getD 0 0) (answer.getD 1 0)).toNat % 2048

/-- The buffer is still zero behind the 3 bytes of a ready answer. -/
def ZeroBehindReady (rxBuffer : Fin scd30MaxRxBufferSize → UInt8) : Prop :=
  ∀ i, 3 ≤ i.val → rxBuffer i = 0

/-- A read of 3 bytes ends before the others. -/
theorem ZeroBehindReady.read {rxBuffer : Fin scd30MaxRxBufferSize → UInt8}
    (h : ZeroBehindReady rxBuffer) (transfer : I2cOutcome) :
    ZeroBehindReady (i2cRead rxBuffer 3 transfer) := by
  intro i hi
  rw [i2cRead, if_neg (Nat.not_lt.mpr hi)]
  exact h i hi

/-- The value that decides is made of these bytes. -/
theorem ZeroBehindReady.rdyValue {rxBuffer : Fin scd30MaxRxBufferSize → UInt8}
    (h : ZeroBehindReady rxBuffer) : scd30RdyValue rxBuffer = 0 := by
  have h7 : rxBuffer 7 = 0 := h 7 (by decide)
  have h8 : rxBuffer 8 = 0 := h 8 (by decide)
  rw [scd30RdyValue, h7, h8]
  decide

/-! ### Cycles without a measurement -/

/-- A log of whole cycles, each of which ends after its ready answer. -/
inductive UnreadCycles : List Scd30Obs → Prop
  | nil : UnreadCycles []
  | cycle {l} (data : List UInt8) (h : UnreadCycles l) :
      UnreadCycles (.ended :: .answer 3 data :: .command scd30GetDataRdy :: l)

/-- Where the thread is after whole cycles without a measurement: rewound, or waiting for a
ready answer. -/
def Scd30Stage : Jump SensorWait → Scd30State → Prop
  | .restart, s | .exit, s => ZeroBehindReady s.rxBuffer ∧ UnreadCycles s.log
  | .wait .readySleep, s => ZeroBehindReady s.rxBuffer ∧
      ∃ l, s.log = .command scd30GetDataRdy :: l ∧ UnreadCycles l
  | .wait .measSleep, _ | .finish, _ | .stuck, _ => False

/-- The stage is a matter of the buffer and the log. -/
theorem Scd30Stage.congr {j : Jump SensorWait} {s s' : Scd30State} (h : Scd30Stage j s)
    (hbuffer : s'.rxBuffer = s.rxBuffer) (hlog : s'.log = s.log) : Scd30Stage j s' := by
  cases j with
  | wait l =>
      cases l with
      | readySleep => simpa only [Scd30Stage, hbuffer, hlog] using h
      | measSleep => exact h
  | restart | exit => simpa only [Scd30Stage, hbuffer, hlog] using h
  | finish | stuck => exact h

/-- A cycle begins with its ready command. -/
theorem scd30Entry_stage (inp : PassInput) {j : Jump SensorWait} {s : Scd30State}
    (hbegin : j.continuation = none) (h : Scd30Stage j s) :
    Scd30Stage (scd30Entry inp s).2 (scd30Entry inp s).1 := by
  have hcycles : ZeroBehindReady s.rxBuffer ∧ UnreadCycles s.log := by
    cases j with
    | wait l => exact absurd hbegin (by simp [Jump.continuation])
    | restart | exit => exact h
    | finish | stuck => exact h.elim
  exact ⟨hcycles.1, s.log, rfl, hcycles.2⟩

/-- A ready answer ends the cycle. -/
theorem scd30Body_ended {inp : PassInput} {s : Scd30State} (h : ZeroBehindReady s.rxBuffer) :
    scd30Body inp .readySleep s = (scd30End (scd30Read 3 inp.readyRead s), .exit) := by
  have hzero : ZeroBehindReady (scd30Read 3 inp.readyRead s).rxBuffer := h.read _
  rw [scd30Body, if_pos hzero.rdyValue]

/-- The stage is kept by the blocks: a cycle ends after its ready answer. -/
theorem scd30Body_stage (inp : PassInput) {l : SensorWait} {s : Scd30State}
    (h : Scd30Stage (.wait l) s) :
    Scd30Stage (scd30Body inp l s).2 (scd30Body inp l s).1 := by
  cases l with
  | measSleep => exact h.elim
  | readySleep =>
      obtain ⟨hzero, l, hlog, hcycles⟩ := h
      rw [scd30Body_ended hzero]
      refine ⟨hzero.read _, ?_⟩
      have hended : (scd30End (scd30Read 3 inp.readyRead s)).log =
          .ended :: .answer 3 inp.readyRead.data :: .command scd30GetDataRdy :: l := by
        rw [← hlog]
        rfl
      rw [hended]
      exact hcycles.cycle _

/-- **Every cycle ends without a measurement**, however many there are and whatever the sensor
answers. -/
theorem scd30_stage {s₀ s : Scd30State} {tr : List (Moment SensorWait Scd30State)}
    {j : Jump SensorWait} (hbuffer : ∀ i, s₀.rxBuffer i = 0) (hlog : s₀.log = [])
    (h : Lifetime scd30UpdateValueThread KeepsScd30 s₀ tr j s) : Scd30Stage j s := by
  refine h.invariant ?_ (fun i j s => scd30Entry_stage i) (fun i => ?_) ?_
  · exact ⟨fun i _ => hbuffer i, hlog ▸ .nil⟩
  · refine Protothread.Keeps.of_tests ?_ (fun l s => scd30Body_stage i) ?_
    · exact fun l s hs => hs.congr rfl rfl
    · intro l s s' hguard _
      exact absurd (congrArg Prod.snd hguard) (by simp [scd30UpdateValueThread, scd30Guard])
  · exact fun j s s' hs henv => hs.congr henv.2.1 henv.2.2

/-! ### Which answers are treated right -/

/-- After a ready answer the thread goes on to the read-measurement command exactly if the ready
word of this answer is not zero. -/
def GoesOnIfReady (o : Scd30Obs) (earlier : List Scd30Obs) : Prop :=
  ∀ data before, earlier = .answer 3 data :: before →
    (o = .command scd30ReadMeas ↔ readyWord data ≠ 0)

namespace UnreadCycles

variable {l : List Scd30Obs}

/-- No command reads a measurement. -/
theorem not_mem (h : UnreadCycles l) : .command scd30ReadMeas ∉ l := by
  induction h with
  | nil => simp
  | cycle data _ ih =>
      have hcmd : scd30ReadMeas ≠ scd30GetDataRdy := by decide
      simp [ih, hcmd]

/-- The next cycle does not begin with an answer. -/
theorem goesOn_next (h : UnreadCycles l) (o : Scd30Obs) : GoesOnIfReady o l := by
  cases h with
  | nil => exact fun _ _ heq => absurd heq (by simp)
  | cycle data _ => exact fun _ _ heq => absurd heq (by simp)

/-- The end of a cycle is right if the answer before it was not ready. -/
theorem goesOn_ended (data : List UInt8) (before : List Scd30Obs) :
    GoesOnIfReady .ended (.answer 3 data :: before) ↔ readyWord data = 0 := by
  constructor
  · intro h
    by_contra hready
    exact absurd ((h data before rfl).mpr hready) (by simp)
  · rintro hzero _ _ heq
    obtain rfl : data = _ := (Scd30Obs.answer.inj (List.cons.inj heq).1).2
    simp [hzero]

/-- Cycles without a measurement are right if none of their answers was ready. -/
theorem goesOn_iff (h : UnreadCycles l) :
    Always GoesOnIfReady l ↔ ∀ data, .answer 3 data ∈ l → readyWord data = 0 := by
  induction h with
  | nil => simp [Always]
  | @cycle l data hl ih =>
      have hanswer : GoesOnIfReady (.answer 3 data) (.command scd30GetDataRdy :: l) :=
        fun _ _ heq => absurd heq (by simp)
      rw [always_cons, always_cons, always_cons, goesOn_ended, ih]
      constructor
      · rintro ⟨hzero, -, -, hrest⟩ data' hmem
        simp only [List.mem_cons, reduceCtorEq, false_or, Scd30Obs.answer.injEq, true_and]
          at hmem
        rcases hmem with rfl | hmem
        · exact hzero
        · exact hrest data' hmem
      · intro hall
        refine ⟨hall data (by simp), hanswer, hl.goesOn_next _, fun data' hmem => ?_⟩
        exact hall data' (by simp [hmem])

end UnreadCycles

/-- **The other sensor.** In every run from a buffer of zeros, whatever the transfers bring, the
thread goes on to read a measurement exactly after the ready answers if and only if no answer
was ready: it reads none. -/
theorem scd30_goesOn_iff {s₀ s : Scd30State} {tr : List (Moment SensorWait Scd30State)}
    {j : Jump SensorWait} (hbuffer : ∀ i, s₀.rxBuffer i = 0) (hlog : s₀.log = [])
    (h : Lifetime scd30UpdateValueThread KeepsScd30 s₀ tr j s) :
    (Always GoesOnIfReady s.log ↔ ∀ data, .answer 3 data ∈ s.log → readyWord data = 0) ∧
      .command scd30ReadMeas ∉ s.log := by
  have hstage := scd30_stage hbuffer hlog h
  cases j with
  | wait l =>
      cases l with
      | readySleep =>
          obtain ⟨-, l, hlog', hcycles⟩ := hstage
          have hcmd : scd30ReadMeas ≠ scd30GetDataRdy := by decide
          rw [hlog', always_cons, hcycles.goesOn_iff]
          simp [hcycles.goesOn_next, hcycles.not_mem, hcmd]
      | measSleep => exact hstage.elim
  | restart | exit => exact ⟨hstage.2.goesOn_iff, hstage.2.not_mem⟩
  | finish | stuck => exact hstage.elim

/-- The state at the start of the firmware. -/
def scd30Boot : Scd30State := ⟨boot 0, 0, fun _ => 0, []⟩

/-- The state 4 ms after the first ready command. -/
def scd30Asked : Scd30State :=
  { scd30Boot with world.clock.now := 4, log := [.command scd30GetDataRdy] }

/-- The ready sleep is over. -/
theorem scd30Asked_sleep (inp : PassInput) :
    (scd30UpdateValueThread inp).guard .readySleep scd30Asked = (scd30Asked, some true) := by
  have helapsed : (4 : UInt64) ≤ (4 : UInt32).toUInt64 - 0 := by decide
  exact Prod.ext rfl (congrArg some (decide_eq_true helapsed))

/-- A first cycle, 4 ms long, with the given ready answer. -/
theorem scd30_firstCycle (data : List UInt8) : ∃ tr s,
    Lifetime scd30UpdateValueThread KeepsScd30 scd30Boot tr .exit s ∧
      s.log = [.ended, .answer 3 data, .command scd30GetDataRdy] := by
  have hstart : Lifetime scd30UpdateValueThread KeepsScd30 scd30Boot [] .restart scd30Boot :=
    .start
  have hasked := hstart.enter (.calm data []) rfl (by decide) .refl
  have hlater : KeepsScd30 _ scd30Asked := ⟨rfl, rfl, rfl⟩
  have hanswered := (hasked.elsewhere hlater).passed (.calm data []) (scd30Asked_sleep _) .refl
  have hbody : (scd30UpdateValueThread (.calm data [])).body .readySleep scd30Asked =
      (scd30End (scd30Read 3 ⟨.done, data⟩ scd30Asked), .exit) :=
    scd30Body_ended (fun _ _ => rfl)
  rw [hbody] at hanswered
  exact ⟨_, _, hanswered, rfl⟩

/-- A cycle in which nothing is ready is right. -/
theorem scd30_goesOn_unready : ∃ tr s,
    Lifetime scd30UpdateValueThread KeepsScd30 scd30Boot tr .exit s ∧
      Always GoesOnIfReady s.log ∧ .command scd30ReadMeas ∉ s.log := by
  obtain ⟨tr, s, h, hlog⟩ := scd30_firstCycle [0, 0, 0x81]
  have hiff := scd30_goesOn_iff (fun _ => rfl) rfl h
  refine ⟨tr, s, h, hiff.1.mpr ?_, hiff.2⟩
  intro data hmem
  obtain rfl : data = [0, 0, 0x81] := by simpa [hlog] using hmem
  decide

/-- The sensor answers that a measurement is ready, and the thread leaves all the same. -/
theorem scd30_ready_ignored : ¬ ∀ s₀ s tr j, (∀ i, s₀.rxBuffer i = 0) → s₀.log = [] →
    Lifetime scd30UpdateValueThread KeepsScd30 s₀ tr j s → Always GoesOnIfReady s.log := by
  intro hall
  obtain ⟨tr, s, h, hlog⟩ := scd30_firstCycle [0, 1, 0xB0]
  have hright := hall _ _ _ _ (fun _ => rfl) rfl h
  rw [hlog] at hright
  have hzero : readyWord [0, 1, 0xB0] = 0 := (UnreadCycles.goesOn_ended _ _).mp hright.1
  exact absurd hzero (by decide)

end SmartCO2
