import Mathlib.Data.Rat.Cast.Order
import Mathlib.Tactic.IntervalCases
import Mathlib.Tactic.Linarith
import Mathlib.Tactic.NormNum
import SmartCO2.Library.Execution
import SmartCO2.Library.MachineInt
import SmartCO2.Pass

/-!
# Measurements

What `SCD41UpdateValueThread` stores in a cycle. The thread takes two calls or more; both of its
reads go to one static buffer, whose bytes stay from one cycle to the next, and what a failed
transfer leaves there is interpreted all the same.

## Main results

* `sensor_execution`: how the thread gets to each of its jumps, and what it has done by then.
* `inCycle_runRule`: every call of the thread in a run of the firmware is part of an execution.
* `triple_changed_iff`: a measurement changes only after two successful reads, exactly if one
  of a failed read changes nothing.
* `measurement_exact_iff`: the measurement is exact to one unit for the raw temperatures from 16853
  on; below, the temperature is negative and becomes a large positive number.
-/

namespace SmartCO2

/-! ### Words and flags -/

/-- The word of two bytes. -/
theorem word_toNat (hi lo : UInt8) : (word hi lo).toNat = 256 * hi.toNat + lo.toNat := by
  have hhi := hi.toNat_lt
  have hlo := lo.toNat_lt
  have h8 : (8 : UInt16).toNat % 16 = 8 := by decide
  have hshift : (hi.toUInt16 <<< (8 : UInt16)).toNat = hi.toNat <<< 8 := by
    rw [UInt16.toNat_shiftLeft, UInt8.toNat_toUInt16, h8, Nat.shiftLeft_eq]
    omega
  rw [word, UInt16.toNat_or, hshift, UInt8.toNat_toUInt16, ← Nat.shiftLeft_add_eq_or_of_lt hlo,
    Nat.shiftLeft_eq]
  omega

/-- The value `rdy` is zero exactly if the low 11 bits of the ready word are. -/
theorem rdyValue_eq_zero_iff (rxBuffer : Fin scd41RxBufferSize → UInt8) :
    rdyValue rxBuffer = 0 ↔ readyBits rxBuffer = 0 := by
  rw [rdyValue, readyBits]
  generalize word (rxBuffer 0) (rxBuffer 1) = x
  have hmask : (x <<< 5 &&& 0xFFE0 : UInt16) = (x <<< 5 : UInt16) := by
    rw [← UInt16.toBitVec_inj]
    refine BitVec.eq_of_getLsbD_eq fun i hi => ?_
    simp
    interval_cases i <;> simp
  have hx := x.toNat_lt
  have h5 : (5 : UInt16).toNat % 16 = 5 := by decide
  rw [hmask, ← UInt16.toNat_inj, UInt16.toNat_shiftLeft, h5, Nat.shiftLeft_eq]
  simp
  omega

/-! ### A cycle of the thread -/

/-- What happens between the calls of the thread leaves the measurement and the receive buffer
alone. -/
def KeepsSensor (w w' : World) : Prop :=
  w'.triple = w.triple ∧ w'.rxBuffer = w.rxBuffer

/-- The receive buffer after the ready read of a cycle. -/
def afterReady (rxBuffer : Fin scd41RxBufferSize → UInt8) (inp : PassInput) :
    Fin scd41RxBufferSize → UInt8 :=
  i2cRead rxBuffer 3 inp.readyRead

/-- The receive buffer after both reads of a cycle. -/
def afterMeas (rxBuffer : Fin scd41RxBufferSize → UInt8) (inp inp' : PassInput) :
    Fin scd41RxBufferSize → UInt8 :=
  i2cRead (afterReady rxBuffer inp) 9 inp'.measRead

/-- The blocks a cycle of the sensor thread has run at each of its jumps, and what they have
made of the measurement and the receive buffer of `w₀`. -/
def SensorStage (w₀ : World) (bs : List (Option SensorWait × PassInput)) :
    Jump SensorWait → World → Prop
  | .wait .readySleep, w =>
      ∃ i, bs = [(none, i)] ∧ w.triple = w₀.triple ∧ w.rxBuffer = w₀.rxBuffer
  | .wait .measSleep, w =>
      ∃ i i₁, bs = [(some .readySleep, i₁), (none, i)] ∧
        readyBits (afterReady w₀.rxBuffer i₁) ≠ 0 ∧ w.triple = w₀.triple ∧
        w.rxBuffer = afterReady w₀.rxBuffer i₁
  | .exit, w =>
      ∃ i i₁, bs = [(some .readySleep, i₁), (none, i)] ∧
        readyBits (afterReady w₀.rxBuffer i₁) = 0 ∧ w.triple = w₀.triple
  | .finish, w =>
      ∃ i i₁ i₂, bs = [(some .measSleep, i₂), (some .readySleep, i₁), (none, i)] ∧
        readyBits (afterReady w₀.rxBuffer i₁) ≠ 0 ∧
        w.triple = decode (afterMeas w₀.rxBuffer i₁ i₂)
  | .restart, _ | .stuck, _ => False

/-- The stage does not depend on what happens elsewhere. -/
theorem SensorStage.elsewhere {w₀ w w' : World} {bs : List (Option SensorWait × PassInput)}
    {j : Jump SensorWait} (h : SensorStage w₀ bs j w) (hkeeps : KeepsSensor w w') :
    SensorStage w₀ bs j w' := by
  obtain ⟨htriple, hbuffer⟩ := hkeeps
  cases j with
  | wait l => cases l <;> simpa only [SensorStage, htriple, hbuffer] using h
  | exit | finish => simpa only [SensorStage, htriple] using h
  | restart | stuck => exact h

/-- A command is written, and nothing of the stage changes. -/
theorem sensorCommand_keeps (l : SensorWait) (cmd : List UInt8) (transfer : I2cOutcome)
    (w : World) : KeepsSensor w (sensorCommand l cmd transfer w).1 := by
  obtain ⟨clock, htick⟩ := w.tick_eq
  simp only [sensorCommand, World.now, htick]
  exact ⟨rfl, rfl⟩

/-- A test leaves the measurement and the receive buffer alone. -/
theorem sensorGuard_keeps {inp : PassInput} {l : SensorWait} {w w' : World} {b : Option Bool}
    (h : (scd41UpdateValueThread inp).guard l w = (w', b)) : KeepsSensor w w' ∧ b.isSome := by
  obtain ⟨clock, htick⟩ := w.tick_eq
  have hw' : w' = w.tick := (congrArg Prod.fst h).symm
  have hb : b = some (decide (2 ≤ w.tick.clock.now.toUInt64 - w.tick.timeLog)) :=
    (congrArg Prod.snd h).symm
  rw [hw', hb, htick]
  exact ⟨⟨rfl, rfl⟩, rfl⟩

/-- **How a cycle goes**: from the ready command to one of the two ends of the thread. -/
theorem sensor_execution {w₀ w : World} {bs : List (Option SensorWait × PassInput)}
    {j : Jump SensorWait} (h : Execution scd41UpdateValueThread KeepsSensor w₀ bs j w) :
    SensorStage w₀ bs j w := by
  induction h with
  | enter i =>
      obtain ⟨htriple, hbuffer⟩ :=
        sensorCommand_keeps .readySleep scd41GetDataRdy i.readyCmd w₀
      exact ⟨i, rfl, htriple, hbuffer⟩
  | blocked i _ hguard ih => exact ih.elsewhere (sensorGuard_keeps hguard).1
  | @passed bs l s s' i _ hguard ih =>
      have hstage := ih.elsewhere (sensorGuard_keeps hguard).1
      cases l with
      | readySleep =>
          obtain ⟨i₀, rfl, htriple, hbuffer⟩ := hstage
          have hread : i2cRead s'.rxBuffer 3 i.readyRead = afterReady w₀.rxBuffer i := by
            rw [hbuffer, afterReady]
          simp only [scd41UpdateValueThread, sensorBody, hread]
          split
          · next hzero =>
              exact ⟨i₀, i, rfl, (rdyValue_eq_zero_iff _).mp hzero, htriple⟩
          · next hready =>
              obtain ⟨htriple', hbuffer'⟩ := sensorCommand_keeps .measSleep scd41ReadMeas
                i.measCmd { s' with rxBuffer := afterReady w₀.rxBuffer i }
              exact ⟨i₀, i, rfl, mt (rdyValue_eq_zero_iff _).mpr hready, htriple'.trans htriple,
                hbuffer'⟩
      | measSleep =>
          obtain ⟨i₀, i₁, rfl, hready, -, hbuffer⟩ := hstage
          refine ⟨i₀, i₁, i, rfl, hready, ?_⟩
          simp only [scd41UpdateValueThread, sensorBody, hbuffer]
          rfl
  | undefined i _ hguard _ => exact absurd (sensorGuard_keeps hguard).2 (by simp)
  | elsewhere _ henv ih => exact ih.elsewhere henv

/-! ### Cycles in the firmware -/

/-- A suspended sensor thread has got to its wait by an execution. -/
def InCycle (w : World) : Prop :=
  ∀ l, w.app.pThread3 = some l →
    ∃ w₀ bs, Execution scd41UpdateValueThread KeepsSensor w₀ bs (.wait l) w

/-- The sensor thread, its measurement and its buffer are left alone. -/
def LeavesSensor (w w' : World) : Prop :=
  w'.app.pThread3 = w.app.pThread3 ∧ KeepsSensor w w'

namespace LeavesSensor

variable {p : Platform} {inp : PassInput} {w w' : World}

/-- A call of thread 1. -/
theorem runNode (hrun : runNode p inp w = some w') : LeavesSensor w w' := by
  rcases runNode_cases hrun with ⟨-, rfl⟩ | ⟨-, w₁, j, hresume, rfl⟩
  · exact ⟨rfl, rfl, rfl⟩
  · obtain ⟨_, _, _, _, _, _, _, _, _, rfl⟩ := nodeConnectThread_frame hresume
    exact ⟨rfl, rfl, rfl⟩

/-- A call of the sending process. -/
theorem runSender (hrun : runSender p inp w = some w') : LeavesSensor w w' := by
  rcases runSender_cases hrun with ⟨-, rfl⟩ | ⟨-, -, w₁, j, hresume, rfl⟩
  · exact ⟨rfl, rfl, rfl⟩
  · obtain ⟨_, _, _, _, _, _, _, _, _, _, _, rfl⟩ := coapSendingProcess_frame hresume
    exact ⟨rfl, rfl, rfl⟩

end LeavesSensor

namespace InCycle

variable {p : Platform} {inp : PassInput} {w w' : World}

/-- What goes on elsewhere. -/
theorem leaves (h : InCycle w) (hleaves : LeavesSensor w w') : InCycle w' := by
  obtain ⟨hnode, hkeeps⟩ := hleaves
  intro l hl
  obtain ⟨w₀, bs, hexec⟩ := h l (hnode.symm.trans hl)
  exact ⟨w₀, bs, hexec.elsewhere hkeeps⟩

/-- **Calls are executions**: each call of the sensor thread begins a cycle or goes on with
one. -/
theorem resume (h : InCycle w) {fuel : ℕ} {j : Jump SensorWait}
    (hresume : (scd41UpdateValueThread inp).resume fuel w.app.pThread3 w = some (w', j)) :
    ∃ w₀ bs, Execution scd41UpdateValueThread KeepsSensor w₀ bs j w' := by
  cases hlc : w.app.pThread3 with
  | none =>
      rw [hlc] at hresume
      obtain ⟨bs, hexec⟩ := Execution.of_resume hresume
      exact ⟨w, bs, hexec⟩
  | some l =>
      rw [hlc] at hresume
      obtain ⟨w₀, bs, hexec⟩ := h l hlc
      obtain ⟨bs', hexec'⟩ := hexec.resume hresume
      exact ⟨w₀, bs', hexec'⟩

/-- A call of thread 3. -/
theorem runSensor (h : InCycle w) (hrun : runSensor inp w = some w') : InCycle w' := by
  rcases runSensor_cases hrun with ⟨-, rfl⟩ | ⟨-, w₁, j, hresume, rfl⟩
  · exact h
  · obtain ⟨w₀, bs, hexec⟩ := h.resume hresume
    intro l hl
    cases j with
    | wait l' =>
        obtain rfl := Option.some.inj hl
        exact ⟨w₀, bs, hexec.elsewhere ⟨rfl, rfl⟩⟩
    | _ => exact absurd hl (by simp [Jump.continuation])

end InCycle

/-- **Cycles in runs**: whenever the sensor thread is suspended, it is in the middle of an
execution, so what is proved of executions holds of every cycle of every run. -/
theorem inCycle_runRule (p : Platform) : RunRule p (fun _ _ => True) InCycle where
  idle _ _ _ _ _ h := h.leaves ⟨rfl, rfl, rfl⟩
  node _ h hrun := h.leaves (.runNode hrun)
  sensor _ h hrun := h.runSensor hrun
  sender _ h hrun := h.leaves (.runSender hrun)
  role changed role _ h := by
    rw [handleNetifStateChanged.eq_def]
    split
    · cases role <;> exact h.leaves ⟨rfl, rfl, rfl⟩
    · exact h
  autostart _ _ h := h.leaves ⟨rfl, rfl, rfl⟩
  browse error response stack _ _ h := by
    rw [browseCallback]
    split <;> exact h.leaves ⟨rfl, rfl, rfl⟩
  request error response _ _ _ h := by
    rw [requestCallback]
    split <;> exact h.leaves ⟨rfl, rfl, rfl⟩

/-- The sensor thread is in a cycle, or between two, in every reachable state. -/
theorem inCycle_run {p : Platform} {now : UInt32} {es : List Event} {w : World}
    (hrun : (firmware p).run (boot now) es = some w) : InCycle w :=
  (inCycle_runRule p).run_all (fun _ hl => absurd hl (by simp [boot])) hrun

/-! ### Failed transfers -/

/-- The cycle has made both reads with success, and the ready word that the first one left in
the buffer is not zero in its low 11 bits. -/
def ReadsSucceed (rxBuffer : Fin scd41RxBufferSize → UInt8)
    (bs : List (Option SensorWait × PassInput)) : Prop :=
  ∃ i₁ i₂, (some .readySleep, i₁) ∈ bs ∧ i₁.readyRead.result = .done ∧
    readyBits (afterReady rxBuffer i₁) ≠ 0 ∧
    (some .measSleep, i₂) ∈ bs ∧ i₂.measRead.result = .done

/-- **A change of the measurement.** Whatever measurement and bytes of earlier cycles a cycle of
the thread begins with, and however its transfers end: the measurement only changes after two
successful reads and a ready word with a bit set, if and only if the cycle makes no second read,
or both reads succeed, or what they leave in the buffer is the measurement as it was. -/
theorem triple_changed_iff {w₀ w : World} {bs : List (Option SensorWait × PassInput)}
    {j : Jump SensorWait} (h : Execution scd41UpdateValueThread KeepsSensor w₀ bs j w) :
    (w.triple ≠ w₀.triple → ReadsSucceed w₀.rxBuffer bs) ↔
      ∀ i₁ i₂, (some .readySleep, i₁) ∈ bs → (some .measSleep, i₂) ∈ bs →
        (i₁.readyRead.result = .done ∧ i₂.measRead.result = .done) ∨
          decode (afterMeas w₀.rxBuffer i₁ i₂) = w₀.triple := by
  have hstage := sensor_execution h
  cases j with
  | wait l =>
      cases l with
      | readySleep =>
          obtain ⟨i, rfl, htriple, -⟩ := hstage
          simp [htriple]
      | measSleep =>
          obtain ⟨i, i₁, rfl, -, htriple, -⟩ := hstage
          simp [htriple]
  | exit =>
      obtain ⟨i, i₁, rfl, -, htriple⟩ := hstage
      simp [htriple]
  | finish =>
      obtain ⟨i, i₁, i₂, rfl, hready, htriple⟩ := hstage
      rw [htriple]
      constructor
      · intro hsucceed j₁ j₂ hmem₁ hmem₂
        obtain rfl : j₁ = i₁ := by simpa using hmem₁
        obtain rfl : j₂ = i₂ := by simpa using hmem₂
        by_cases hsame : decode (afterMeas w₀.rxBuffer j₁ j₂) = w₀.triple
        · exact Or.inr hsame
        · obtain ⟨k₁, k₂, hk₁, hdone₁, -, hk₂, hdone₂⟩ := hsucceed hsame
          obtain rfl : k₁ = j₁ := by simpa using hk₁
          obtain rfl : k₂ = j₂ := by simpa using hk₂
          exact Or.inl ⟨hdone₁, hdone₂⟩
      · intro h hchanged
        obtain ⟨hdone₁, hdone₂⟩ := (h i₁ i₂ (by simp) (by simp)).resolve_right hchanged
        exact ⟨i₁, i₂, by simp, hdone₁, hready, by simp, hdone₂⟩
  | restart | stuck => exact hstage.elim

/-- The end of a cycle that measured 600 ppm, with the readings of the clock to come. -/
def afterCycle : World :=
  { boot 0 with
    app.co2 := 600
    app.temp := 24
    app.rh := 50
    rxBuffer := fun i => [2, 88, 0, 102, 102, 0, 128, 0, 0, 0].getD i 0
    clock := ⟨0, [10, 20, 20, 30]⟩ }

/-- A cycle in which both sleeps are passed at once. -/
theorem afterCycle_execution {inp : PassInput}
    (hready : rdyValue (afterReady afterCycle.rxBuffer inp) ≠ 0) :
    ∃ w, Execution scd41UpdateValueThread KeepsSensor afterCycle
        [(some .measSleep, inp), (some .readySleep, inp), (none, inp)] .finish w ∧
      w.triple = decode (afterMeas afterCycle.rxBuffer inp inp) := by
  have h₀ : Execution scd41UpdateValueThread KeepsSensor afterCycle [(none, inp)]
      (.wait .readySleep) { afterCycle with timeLog := 10, clock := ⟨10, [20, 20, 30]⟩ } :=
    .enter inp
  have hguard : (scd41UpdateValueThread inp).guard .readySleep
      { afterCycle with timeLog := 10, clock := ⟨10, [20, 20, 30]⟩ } =
        ({ afterCycle with timeLog := 10, clock := ⟨20, [20, 30]⟩ }, some true) := rfl
  have h₁ := h₀.passed inp hguard
  have hbody : (scd41UpdateValueThread inp).body .readySleep
      { afterCycle with timeLog := 10, clock := ⟨20, [20, 30]⟩ } =
        ({ afterCycle with
            timeLog := 20
            clock := ⟨20, [30]⟩
            rxBuffer := afterReady afterCycle.rxBuffer inp }, .wait .measSleep) := by
    simp only [scd41UpdateValueThread, sensorBody]
    exact if_neg hready
  rw [hbody] at h₁
  have helapsed : decide ((2 : UInt64) ≤ (30 : UInt32).toUInt64 - 20) = true := by decide
  exact ⟨_, h₁.pass inp (congrArg some helapsed), rfl⟩

/-- A cycle with two successful reads. -/
theorem measuring_changed_iff : ∃ w bs,
    Execution scd41UpdateValueThread KeepsSensor afterCycle bs .finish w ∧
      ((w.triple ≠ afterCycle.triple → ReadsSucceed afterCycle.rxBuffer bs) ↔
        ∀ i₁ i₂, (some .readySleep, i₁) ∈ bs → (some .measSleep, i₂) ∈ bs →
          (i₁.readyRead.result = .done ∧ i₂.measRead.result = .done) ∨
            decode (afterMeas afterCycle.rxBuffer i₁ i₂) = afterCycle.triple) := by
  have hready : rdyValue (afterReady afterCycle.rxBuffer measuring) ≠ 0 := by decide
  obtain ⟨w, h, -⟩ := afterCycle_execution hready
  exact ⟨w, _, h, triple_changed_iff h⟩

/-- A ready read that fails, and a measurement of 800 ppm. -/
def failedReady : PassInput :=
  { PassInput.calm [] [3, 32, 0, 102, 102, 0, 128, 0, 0] with readyRead := ⟨.nack, []⟩ }

/-- The ready read fails, the 600 ppm in the buffer pass for a ready word, and 800 ppm are
stored. -/
theorem changed_after_failed_read :
    ¬ ∀ bs j w, Execution scd41UpdateValueThread KeepsSensor afterCycle bs j w →
      w.triple ≠ afterCycle.triple → ReadsSucceed afterCycle.rxBuffer bs := by
  intro hclaim
  have hready : rdyValue (afterReady afterCycle.rxBuffer failedReady) ≠ 0 := by decide
  obtain ⟨w, h, htriple⟩ := afterCycle_execution hready
  obtain ⟨i₁, i₂, hmem, hdone, -⟩ := hclaim _ _ w h (by rw [htriple]; decide)
  obtain rfl : i₁ = failedReady := by simpa using hmem
  exact absurd hdone (by decide)

/-! ### The values -/

/-- The big-endian word at the byte `k` of an answer. -/
def bigEndian (data : List UInt8) (k : ℕ) : ℕ :=
  256 * (data.getD k 0).toNat + (data.getD (k + 1) 0).toNat

/-- A big-endian word has 16 bits. -/
theorem bigEndian_lt (data : List UInt8) (k : ℕ) : bigEndian data k < 65536 := by
  have hhi := (data.getD k 0).toNat_lt
  have hlo := (data.getD (k + 1) 0).toNat_lt
  rw [bigEndian]
  omega

/-- What is decoded of a complete answer, in whatever state the buffer was. -/
theorem decode_answer (rxBuffer : Fin scd41RxBufferSize → UInt8) {transfer : I2cOutcome}
    (hlen : transfer.data.length = 9) :
    decode (i2cRead rxBuffer 9 transfer) =
      ⟨bigEndian transfer.data 0,
        (UInt16.ofInt ((100 * bigEndian transfer.data 6 : ℕ) / 65536)).toNat,
        (UInt16.ofInt ((175 * bigEndian transfer.data 3 : ℕ) / 65536 - 45)).toNat⟩ := by
  have hbyte : ∀ k : Fin scd41RxBufferSize, k.val < 9 →
      i2cRead rxBuffer 9 transfer k = transfer.data.getD k.val 0 := by
    intro k hk
    have hlt : k.val < transfer.data.length := by omega
    simp [i2cRead, hk, hlt]
  have hword : ∀ (hi lo : Fin scd41RxBufferSize), lo.val = hi.val + 1 → lo.val < 9 →
      (word (i2cRead rxBuffer 9 transfer hi) (i2cRead rxBuffer 9 transfer lo)).toNat =
        bigEndian transfer.data hi.val := by
    intro hi lo hnext hlt
    rw [word_toNat, hbyte hi (by omega), hbyte lo hlt, hnext, bigEndian]
  have hdiv : ∀ n : ℕ, ((n : ℤ)).tdiv 65536 = (n : ℤ) / 65536 := by
    intro n
    exact Int.tdiv_eq_ediv_of_nonneg (Int.natCast_nonneg n)
  have htemp := hdiv (175 * bigEndian transfer.data 3)
  have hrh := hdiv (100 * bigEndian transfer.data 6)
  push_cast at htemp hrh ⊢
  simp only [decode, hword 0 1 rfl (by decide), hword 3 4 rfl (by decide),
    hword 6 7 rfl (by decide)]
  rw [← htemp, ← hrh]
  rfl

/-- The raw temperature from which on the temperature is not negative. -/
def rawZeroTemp : ℕ := 16853

/-- The stored humidity is the quotient. -/
theorem rhInt_toNat {raw : ℕ} (h : raw < 65536) :
    (UInt16.ofInt ((100 * raw : ℕ) / 65536)).toNat = 100 * raw / 65536 := by
  have hmod := UInt16.ofInt_toNat ((100 * raw : ℕ) / 65536)
  omega

/-- The stored temperature is the quotient less 45, as long as that is not negative; a negative
temperature is stored modulo `2 ^ 16`. -/
theorem tempInt_toNat {raw : ℕ} (h : raw < 65536) :
    ((UInt16.ofInt ((175 * raw : ℕ) / 65536 - 45)).toNat : ℤ) =
      if rawZeroTemp ≤ raw then ((175 * raw / 65536 : ℕ) : ℤ) - 45
      else ((175 * raw / 65536 : ℕ) : ℤ) + 65491 := by
  have hmod := UInt16.ofInt_toNat ((175 * raw : ℕ) / 65536 - 45)
  rw [rawZeroTemp]
  split <;> omega

/-- The measurement is the one of the answer, exact to one unit. -/
structure Accurate (data : List UInt8) (t : Triple) : Prop where
  co2 : t.co2 = bigEndian data 0
  temp : |(t.temp : ℚ) - (175 * bigEndian data 3 / 65536 - 45)| < 1
  rh : |(t.rh : ℚ) - 100 * bigEndian data 6 / 65536| < 1

/-- A quotient is exact to one unit. -/
theorem abs_quotient_sub_lt (n : ℕ) : |((n / 65536 : ℕ) : ℚ) - n / 65536| < 1 := by
  have hlow : ((65536 * (n / 65536) : ℕ) : ℚ) ≤ n := by exact_mod_cast Nat.mul_div_le n 65536
  have hhigh : (n : ℚ) < ((65536 * (n / 65536) + 65536 : ℕ) : ℚ) := by
    exact_mod_cast (by omega : n < 65536 * (n / 65536) + 65536)
  push_cast at hlow hhigh
  rw [abs_lt]
  constructor <;> linarith

/-- **The decoded values.** -/
theorem accurate_iff (rxBuffer : Fin scd41RxBufferSize → UInt8) {transfer : I2cOutcome}
    (hlen : transfer.data.length = 9) :
    Accurate transfer.data (decode (i2cRead rxBuffer 9 transfer)) ↔
      rawZeroTemp ≤ bigEndian transfer.data 3 := by
  have hraw := bigEndian_lt transfer.data 3
  rw [decode_answer rxBuffer hlen]
  constructor
  · rintro ⟨-, htemp, -⟩
    by_contra hcold
    have hbound : (bigEndian transfer.data 3 : ℚ) < 65536 := by exact_mod_cast hraw
    have hquotient : (0 : ℚ) ≤ ((175 * bigEndian transfer.data 3 / 65536 : ℕ) : ℚ) :=
      Nat.cast_nonneg _
    have hlt := (abs_lt.mp htemp).2
    simp only [tempInt_toNat hraw, if_neg hcold, Int.cast_add, Int.cast_natCast,
      Int.cast_ofNat] at hlt
    linarith
  · intro hwarm
    have htemp := abs_quotient_sub_lt (175 * bigEndian transfer.data 3)
    have hrh := abs_quotient_sub_lt (100 * bigEndian transfer.data 6)
    push_cast at htemp hrh
    refine ⟨rfl, ?_, ?_⟩
    · simp only [tempInt_toNat hraw, if_pos hwarm, Int.cast_sub, Int.cast_natCast,
        Int.cast_ofNat, sub_sub_sub_cancel_right]
      exact htemp
    · simp only [rhInt_toNat (bigEndian_lt transfer.data 6), Int.cast_natCast]
      exact hrh

/-- The thread has ended a cycle with the answer of nine bytes to its read of the measurement. -/
def Decoded (data : List UInt8) (w : World) : Prop :=
  data.length = 9 ∧ ∃ w₀ bs inp,
    Execution scd41UpdateValueThread KeepsSensor w₀ bs .finish w ∧
      (some .measSleep, inp) ∈ bs ∧ inp.measRead.data = data

/-- What has been decoded then. -/
theorem Decoded.triple_eq {data : List UInt8} {w : World} (h : Decoded data w) :
    ∃ rxBuffer transfer, transfer.data = data ∧ transfer.data.length = 9 ∧
      w.triple = decode (i2cRead rxBuffer 9 transfer) := by
  obtain ⟨hlen, w₀, bs, inp, hexec, hmem, rfl⟩ := h
  obtain ⟨_, i₁, i₂, rfl, -, htriple⟩ := sensor_execution hexec
  obtain rfl : inp = i₂ := by simpa using hmem
  exact ⟨_, inp.measRead, rfl, hlen, htriple⟩

/-- **The decoded measurement.** After every cycle that has decoded an answer, whatever state it
began in, the measurement is exact to one unit if and only if the raw temperature is at least
16853, that is, unless the temperature is negative. Of two answers the one with the higher raw
temperature has the higher temperature unless the temperatures differ in sign, and the one with
the higher raw humidity has the higher humidity. -/
theorem measurement_exact_iff {data data' : List UInt8} {w w' : World} (h : Decoded data w)
    (h' : Decoded data' w') :
    (Accurate data w.triple ↔ 16853 ≤ bigEndian data 3) ∧
      (bigEndian data 3 ≤ bigEndian data' 3 → (w.triple.temp ≤ w'.triple.temp ↔
        ¬ (bigEndian data 3 < 16853 ∧ 16853 ≤ bigEndian data' 3))) ∧
      (bigEndian data 6 ≤ bigEndian data' 6 → w.triple.rh ≤ w'.triple.rh) := by
  obtain ⟨rx, transfer, rfl, hlen, htriple⟩ := h.triple_eq
  obtain ⟨rx', transfer', rfl, hlen', htriple'⟩ := h'.triple_eq
  have hraw := tempInt_toNat (bigEndian_lt transfer.data 3)
  have hraw' := tempInt_toNat (bigEndian_lt transfer'.data 3)
  have hrh := rhInt_toNat (bigEndian_lt transfer.data 6)
  have hrh' := rhInt_toNat (bigEndian_lt transfer'.data 6)
  have hlt := bigEndian_lt transfer.data 3
  have hlt' := bigEndian_lt transfer'.data 3
  rw [htriple, htriple']
  refine ⟨accurate_iff rx hlen, ?_, ?_⟩ <;>
    rw [decode_answer rx hlen, decode_answer rx' hlen']
  · intro hle
    rw [rawZeroTemp] at hraw hraw'
    simp only [hraw, hraw']
    split <;> split <;> omega
  · intro hle
    simp only [hrh, hrh']
    omega

/-- A complete answer that the thread has read after `afterCycle` is decoded. -/
theorem afterCycle_decoded {inp : PassInput}
    (hready : rdyValue (afterReady afterCycle.rxBuffer inp) ≠ 0)
    (hlen : inp.measRead.data.length = 9) :
    ∃ w, Decoded inp.measRead.data w ∧
      w.triple = decode (afterMeas afterCycle.rxBuffer inp inp) := by
  obtain ⟨w, h, htriple⟩ := afterCycle_execution hready
  exact ⟨w, ⟨hlen, _, _, inp, h, by simp, rfl⟩, htriple⟩

/-- A decoded answer of 25 degrees. -/
theorem measuring_exact : ∃ w, Decoded measuring.measRead.data w ∧
    (Accurate measuring.measRead.data w.triple ↔
      16853 ≤ bigEndian measuring.measRead.data 3) ∧
    (bigEndian measuring.measRead.data 3 ≤ bigEndian measuring.measRead.data 3 →
      (w.triple.temp ≤ w.triple.temp ↔
        ¬ (bigEndian measuring.measRead.data 3 < 16853 ∧
          16853 ≤ bigEndian measuring.measRead.data 3))) ∧
    (bigEndian measuring.measRead.data 6 ≤ bigEndian measuring.measRead.data 6 →
      w.triple.rh ≤ w.triple.rh) := by
  have hready : rdyValue (afterReady afterCycle.rxBuffer measuring) ≠ 0 := by decide
  obtain ⟨w, h, -⟩ := afterCycle_decoded hready (by decide)
  exact ⟨w, h, measurement_exact_iff h h⟩

/-- A measurement in the frost: -1.25 degrees. -/
def frost : PassInput :=
  .calm [0x80, 6, 0] [2, 88, 0, 0x40, 0, 0, 128, 0, 0]

/-- The frost becomes 65534 degrees. -/
theorem frost_not_accurate : ¬ ∀ data w, Decoded data w → Accurate data w.triple := by
  intro hclaim
  have hready : rdyValue (afterReady afterCycle.rxBuffer frost) ≠ 0 := by decide
  obtain ⟨w, h, htriple⟩ := afterCycle_decoded hready (by decide)
  have haccurate := hclaim _ w h
  rw [htriple, afterMeas, accurate_iff _ (by decide)] at haccurate
  exact absurd haccurate (by decide)

end SmartCO2
