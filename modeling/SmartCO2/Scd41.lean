import SmartCO2.Library.Protothread
import SmartCO2.World

/-!
# The Sensor Thread

The model of `SCD41UpdateValueThread` and of the I2C functions it uses. The thread asks the
sensor whether a measurement is ready, leaves if not, and otherwise reads and decodes it into
`_app.co2`, `_app.temp` and `_app.rh`.
-/

namespace SmartCO2

/-! ### I2C -/

/-- `I2C_Read` of `numBytes` bytes into a buffer. The function polls until the transfer has
ended and logs a failure; the bytes that arrived are in the buffer either way. -/
def i2cRead {n : ℕ} (rxBuff : Fin n → UInt8) (numBytes : ℕ) (transfer : I2cOutcome) :
    Fin n → UInt8 :=
  fun i => if i < numBytes then transfer.data.getD i (rxBuff i) else rxBuff i

/-- `I2C_WriteCmd`: the status of the transfer, which is only logged. -/
def i2cWriteCmd (_writeCmd : List UInt8) (transfer : I2cOutcome) : I2cReturn :=
  transfer.result

/-- `(hi << 8) | lo`, as a `uint16_t`. -/
def word (hi lo : UInt8) : UInt16 := hi.toUInt16 <<< 8 ||| lo.toUInt16

/-! ### Decoding -/

/-- `SCD41_GET_DATA_RDY` -/
def scd41GetDataRdy : List UInt8 := [0xE4, 0xB8]

/-- `SCD41_READ_MEAS` -/
def scd41ReadMeas : List UInt8 := [0xEC, 0x05]

/-- The value `rdy` that decides whether a measurement is ready. -/
def rdyValue (rxBuffer : Fin scd41RxBufferSize → UInt8) : UInt16 :=
  (word (rxBuffer 0) (rxBuffer 1) <<< 5) &&& 0xFFE0

/-- The low 11 bits of the ready word in the receive buffer. -/
def readyBits (rxBuffer : Fin scd41RxBufferSize → UInt8) : ℕ :=
  (word (rxBuffer 0) (rxBuffer 1)).toNat % 2048

/-- The measurement in the receive buffer. The arithmetic is that of `int`, whose division
truncates; each result is converted to `uint16_t` and then to `float`. -/
def decode (rxBuffer : Fin scd41RxBufferSize → UInt8) : Triple :=
  let co2Int := word (rxBuffer 0) (rxBuffer 1)
  let rawTemp : ℤ := (word (rxBuffer 3) (rxBuffer 4)).toNat
  let rawRh : ℤ := (word (rxBuffer 6) (rxBuffer 7)).toNat
  let tempInt := UInt16.ofInt ((175 * rawTemp).tdiv 65536 - 45)
  let rhInt := UInt16.ofInt ((100 * rawRh).tdiv 65536)
  ⟨co2Int.toNat, rhInt.toNat, tempInt.toNat⟩

/-! ### The thread -/

section Thread

variable (inp : PassInput)

/-- `PT_SLEEP(2)`, measured from `timeLog`. -/
def sensorGuard (_ : SensorWait) (w : World) : World × Option Bool :=
  let (t, w) := w.now
  (w, some (decide (2 ≤ t.toUInt64 - w.timeLog)))

/-- `timeLog = NOW()`, after a command has been written, and on to the sleep. -/
def sensorCommand (l : SensorWait) (cmd : List UInt8) (transfer : I2cOutcome) (w : World) :
    World × Jump SensorWait :=
  let _ := i2cWriteCmd cmd transfer
  let (t, w) := w.now
  ({ w with timeLog := t.toUInt64 }, .wait l)

/-- From `PT_BEGIN` to the first sleep. -/
def sensorEntry (w : World) : World × Jump SensorWait :=
  sensorCommand .readySleep scd41GetDataRdy inp.readyCmd w

/-- The blocks after the two sleeps. -/
def sensorBody : SensorWait → World → World × Jump SensorWait
  | .readySleep, w =>
      let w := { w with rxBuffer := i2cRead w.rxBuffer 3 inp.readyRead }
      if rdyValue w.rxBuffer = 0 then
        (({ w with app.pThreadDone3 := true }).note (.sensorEnded false), .exit)
      else sensorCommand .measSleep scd41ReadMeas inp.measCmd w
  | .measSleep, w =>
      let w := { w with rxBuffer := i2cRead w.rxBuffer 9 inp.measRead }
      let t := decode w.rxBuffer
      let w :=
        ({ w with app.co2 := t.co2, app.temp := t.temp, app.rh := t.rh }).note (.decoded t)
      (({ w with app.pThreadDone3 := true }).note (.sensorEnded true), .finish)

/-- `SCD41UpdateValueThread` -/
def scd41UpdateValueThread : Protothread SensorWait World where
  entry := sensorEntry inp
  guard := sensorGuard
  body := sensorBody inp

end Thread

/-! ### What the thread leaves alone -/

/-- The observations of the sensor thread. -/
def Obs.ofSensor : Obs → Bool
  | .decoded _ | .sensorEnded _ => true
  | _ => false

/-- The sensor thread has its own static variables, the measurement and its done flag. -/
def SensorFrame (w w' : World) : Prop :=
  ∃ co2 temp rh done timeLog rxBuffer clock new,
    w' = { w with app.co2 := co2, app.temp := temp, app.rh := rh, app.pThreadDone3 := done,
                  timeLog := timeLog, rxBuffer := rxBuffer, clock := clock,
                  log := new ++ w.log } ∧
      ∀ o ∈ new, o.ofSensor = true

namespace SensorFrame

/-- Nothing has happened. -/
theorem refl (w : World) : SensorFrame w w :=
  ⟨_, _, _, _, _, _, _, [], rfl, by simp⟩

/-- One after the other. -/
theorem trans {w₁ w₂ w₃ : World} (h : SensorFrame w₁ w₂) (h' : SensorFrame w₂ w₃) :
    SensorFrame w₁ w₃ := by
  obtain ⟨_, _, _, _, _, _, _, new, rfl, hnew⟩ := h
  obtain ⟨_, _, _, _, _, _, _, new', rfl, hnew'⟩ := h'
  refine ⟨_, _, _, _, _, _, _, new' ++ new, by rw [List.append_assoc], ?_⟩
  intro o ho
  rcases List.mem_append.mp ho with ho | ho
  · exact hnew' o ho
  · exact hnew o ho

/-- The clock goes on. -/
theorem tick (w : World) : SensorFrame w w.tick := by
  obtain ⟨clock, heq⟩ := w.tick_eq
  rw [heq]
  exact ⟨_, _, _, _, _, _, _, [], rfl, by simp⟩

/-- A command is written and its time taken. -/
theorem command (l : SensorWait) (cmd : List UInt8) (transfer : I2cOutcome) (w : World) :
    SensorFrame w (sensorCommand l cmd transfer w).1 :=
  (tick w).trans ⟨_, _, _, _, _, _, _, [], rfl, by simp⟩

/-- The blocks of the thread. -/
theorem body (inp : PassInput) (l : SensorWait) (w : World) :
    SensorFrame w (sensorBody inp l w).1 := by
  have hread : ∀ rx, SensorFrame w { w with rxBuffer := rx } :=
    fun rx => ⟨_, _, _, _, _, _, _, [], rfl, by simp⟩
  cases l with
  | readySleep =>
      simp only [sensorBody]
      split
      · exact (hread _).trans
          ⟨_, _, _, _, _, _, _, [.sensorEnded false], rfl, by simp [Obs.ofSensor]⟩
      · exact (hread _).trans (command ..)
  | measSleep =>
      exact (hread _).trans
        ⟨_, _, _, _, _, _, _, [.sensorEnded true, .decoded _], rfl, by simp [Obs.ofSensor]⟩

end SensorFrame

/-- **The frame of the sensor thread.** -/
theorem scd41UpdateValueThread_frame {inp : PassInput} {fuel : ℕ} {lc : Option SensorWait}
    {w w' : World} {j : Jump SensorWait}
    (h : (scd41UpdateValueThread inp).resume fuel lc w = some (w', j)) : SensorFrame w w' := by
  have hkeeps : (scd41UpdateValueThread inp).Keeps fun _ s => SensorFrame w s := by
    refine Protothread.Keeps.of_tests ?_ ?_ (fun _ _ _ _ h => h)
    · exact fun _ s h => h.trans (.tick s)
    · exact fun l s h => h.trans (.body inp l s)
  exact hkeeps.resume (fun _ => .command .readySleep scd41GetDataRdy inp.readyCmd w)
    (fun _ _ => .refl w) h

/-! ### Every call returns -/

/-- The tests that follow a wait. -/
def sensorRank : SensorWait → World → ℕ
  | .readySleep, _ => 1
  | .measSleep, _ => 0

/-- **Every call of the thread returns**, after two tests at most. -/
theorem scd41UpdateValueThread_isSome (inp : PassInput) (lc : Option SensorWait) (w : World) :
    ((scd41UpdateValueThread inp).resume 2 lc w).isSome := by
  have hlt : ∀ l w, sensorRank l w < 2 := by
    intro l w
    cases l <;> simp [sensorRank]
  refine Protothread.resume_isSome sensorRank ?_ (fun l _ => hlt l _) (fun l _ => hlt l w)
  intro l s s' _ l' hbody
  cases l with
  | readySleep =>
      simp only [scd41UpdateValueThread, sensorBody] at hbody
      split at hbody
      · exact absurd hbody (by simp)
      · obtain rfl := Jump.wait.inj hbody
        simp [sensorRank]
  | measSleep => exact absurd hbody (by simp [scd41UpdateValueThread, sensorBody])

end SmartCO2
