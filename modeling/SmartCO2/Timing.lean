import SmartCO2.Library.MachineInt
import SmartCO2.App

/-!
# The Clock and the Timed Waits

`NOW()` is a 32-bit counter of milliseconds that wraps; the bases `_app.then` and `timeLog` are
64-bit. The difference `NOW() - base` is taken in 64 bits, where the wrap of the counter does
not cancel: once the counter has wrapped, the difference is more than any 32-bit limit.

## Main results

* `timed_wait_exact_iff`: a timed wait ends at the right time except where the counter has
  wrapped and the limit is not reached yet; there it ends early. None is missed.
-/

namespace SmartCO2

section Guards

variable {w : World} {t₀ d : UInt32} (hnow : w.now.1 = t₀ + d)

include hnow

/-- A sleep of the connection thread. -/
theorem nodeSleep_exact_iff (hbase : w.app.thenTime = t₀.toUInt64) (l : NodeWait) (x : UInt32) :
    (nodeSleep l x.toUInt64 w).2 = some (decide (x ≤ d)) ↔ ¬ FiresEarly t₀ d x := by
  obtain ⟨clock, htick⟩ := w.tick_eq
  have hguard : (nodeSleep l x.toUInt64 w).2 =
      some (decide (x.toUInt64 ≤ w.now.1.toUInt64 - w.app.thenTime)) := by
    simp only [nodeSleep, World.now, htick]
  rw [hguard, hnow, hbase, Option.some.injEq, decide_eq_decide, elapsed_exact_iff]

/-- The wait for the answer to a search, while there is none. -/
theorem answer_exact_iff (hbase : w.app.thenTime = t₀.toUInt64) (hdone : w.appDone = false) :
    (nodeGuard .answer w).2 = some (decide (15000 ≤ d)) ↔ ¬ FiresEarly t₀ d 15000 := by
  obtain ⟨clock, htick⟩ := w.tick_eq
  have hguard : (nodeGuard .answer w).2 =
      some (decide ((15000 : UInt32).toUInt64 ≤ w.now.1.toUInt64 - w.app.thenTime)) := by
    simp only [nodeGuard, hdone, World.now, htick]
    rfl
  rw [hguard, hnow, hbase, Option.some.injEq, decide_eq_decide, elapsed_exact_iff]

/-- A sleep of the sensor thread. -/
theorem sensorGuard_exact_iff (hbase : w.timeLog = t₀.toUInt64) (l : SensorWait) :
    (sensorGuard l w).2 = some (decide (2 ≤ d)) ↔ ¬ FiresEarly t₀ d 2 := by
  obtain ⟨clock, htick⟩ := w.tick_eq
  have hguard : (sensorGuard l w).2 =
      some (decide ((2 : UInt32).toUInt64 ≤ w.now.1.toUInt64 - w.timeLog)) := by
    simp only [sensorGuard, World.now, htick]
    rfl
  rw [hguard, hnow, hbase, Option.some.injEq, decide_eq_decide, elapsed_exact_iff]

end Guards

/-- **Timed waits and the wrap of the clock.** With the base recorded at the tick `t₀` and the
clock read `d` ms later, the sleeps of the connection thread, its wait for an answer and the
sleeps of the sensor thread compare the elapsed time with their limit correctly if and only if
the counter has not wrapped since, or the limit is reached anyway. -/
theorem timed_wait_exact_iff {w : World} {t₀ d : UInt32} (hnow : w.now.1 = t₀ + d) :
    (w.app.thenTime = t₀.toUInt64 → ∀ l (x : UInt32),
      (nodeSleep l x.toUInt64 w).2 = some (decide (x ≤ d)) ↔ ¬ FiresEarly t₀ d x) ∧
    (w.app.thenTime = t₀.toUInt64 → w.appDone = false →
      ((nodeGuard .answer w).2 = some (decide (15000 ≤ d)) ↔ ¬ FiresEarly t₀ d 15000)) ∧
    (w.timeLog = t₀.toUInt64 → ∀ l,
      (sensorGuard l w).2 = some (decide (2 ≤ d)) ↔ ¬ FiresEarly t₀ d 2) :=
  ⟨nodeSleep_exact_iff hnow, answer_exact_iff hnow, sensorGuard_exact_iff hnow⟩

/-- A base recorded half a second before the counter wraps, and the clock 600 ms later. -/
def nearWrap : World :=
  { boot 0xFFFFFE00 with timeLog := 0xFFFFFE00, clock := ⟨0xFFFFFE00, [0xFFFFFE00 + 600]⟩ }

/-- The waits at that moment. -/
theorem nearWrap_waits :
    (∀ l (x : UInt32), (nodeSleep l x.toUInt64 nearWrap).2 = some (decide (x ≤ 600)) ↔
      ¬ FiresEarly 0xFFFFFE00 600 x) ∧
    ((nodeGuard .answer nearWrap).2 = some (decide ((15000 : UInt32) ≤ 600)) ↔
      ¬ FiresEarly 0xFFFFFE00 600 15000) ∧
    ∀ l, (sensorGuard l nearWrap).2 = some (decide ((2 : UInt32) ≤ 600)) ↔
      ¬ FiresEarly 0xFFFFFE00 600 2 :=
  ⟨(timed_wait_exact_iff rfl).1 rfl, (timed_wait_exact_iff rfl).2.1 rfl rfl,
    (timed_wait_exact_iff rfl).2.2 rfl⟩

/-- A sleep of 1000 ms ends after 600 ms, and so does the wait of 15 s for an answer. -/
theorem nearWrap_fires_early :
    nearWrap.now.1 = 0xFFFFFE00 + 600 ∧ nearWrap.app.thenTime = (0xFFFFFE00 : UInt32).toUInt64 ∧
      nodeGuard .mdnsInitSleep nearWrap =
        nodeSleep .mdnsInitSleep (1000 : UInt32).toUInt64 nearWrap ∧
      ¬ (nodeGuard .mdnsInitSleep nearWrap).2 = some (decide ((1000 : UInt32) ≤ 600)) ∧
      ¬ (nodeGuard .answer nearWrap).2 = some (decide ((15000 : UInt32) ≤ 600)) := by
  refine ⟨rfl, rfl, rfl, ?_, ?_⟩ <;> decide

end SmartCO2
