import Mathlib.Algebra.Group.Nat.Defs
import Mathlib.Data.Int.Notation
import Mathlib.Data.Nat.Basic

/-!
# Machine Integers

Two conversions of C that lose something: an `int` that becomes a `uint16_t`, and a wrapping
32-bit counter that is subtracted from a 64-bit base.

## Main results

* `UInt16.ofInt_toNat`: the conversion reduces modulo `2 ^ 16`.
* `elapsed_exact_iff`: the 64-bit difference of two 32-bit readings compares right with a limit
  unless the counter has wrapped before the limit is reached.
-/

/-- An `int` is converted to a `uint16_t` modulo `2 ^ 16`. -/
theorem UInt16.ofInt_toNat (n : ℤ) : ((UInt16.ofInt n).toNat : ℤ) = n % 65536 := by
  rw [UInt16.ofInt, UInt16.toNat_ofNat']
  omega

/-- A number in the range of a `uint16_t` is kept. -/
theorem UInt16.ofInt_natCast_toNat {n : ℕ} (h : n < 65536) :
    (UInt16.ofInt (n : ℤ)).toNat = n := by
  have hmod := UInt16.ofInt_toNat n
  omega

/-- The difference between the reading `d` after `t₀` of a 32-bit counter and a 64-bit base that
was recorded at `t₀`. -/
theorem elapsed_toNat (t₀ d : UInt32) :
    ((t₀ + d).toUInt64 - t₀.toUInt64).toNat =
      if t₀.toNat + d.toNat < 2 ^ 32 then d.toNat else d.toNat + (2 ^ 64 - 2 ^ 32) := by
  have ht := t₀.toNat_lt
  have hd := d.toNat_lt
  rw [UInt64.toNat_sub, UInt32.toNat_toUInt64, UInt32.toNat_toUInt64, UInt32.toNat_add]
  split
  · next hsum =>
      rw [Nat.mod_eq_of_lt hsum]
      omega
  · next hsum =>
      have hwrap : (t₀.toNat + d.toNat) % 2 ^ 32 = t₀.toNat + d.toNat - 2 ^ 32 := by omega
      rw [hwrap]
      omega

/-- A limit is reached by the difference between a reading and an earlier base exactly if the
reading is that far from the base. -/
theorem le_elapsed_iff {base t : UInt64} (h : base.toNat ≤ t.toNat) (x : UInt64) :
    x ≤ t - base ↔ base.toNat + x.toNat ≤ t.toNat := by
  rw [UInt64.le_iff_toNat_le, UInt64.toNat_sub_of_le _ _ (UInt64.le_iff_toNat_le.mpr h)]
  omega

/-- The counter has wrapped since the reading `t₀`, and the limit `x` is not reached. -/
def FiresEarly (t₀ d x : UInt32) : Prop := 2 ^ 32 ≤ t₀.toNat + d.toNat ∧ d < x

instance (t₀ d x : UInt32) : Decidable (FiresEarly t₀ d x) :=
  inferInstanceAs (Decidable (_ ∧ _))

/-- The comparison with a limit says whether the limit is reached, unless it fires early. -/
theorem elapsed_exact_iff (t₀ d x : UInt32) :
    (x.toUInt64 ≤ (t₀ + d).toUInt64 - t₀.toUInt64 ↔ x ≤ d) ↔ ¬ FiresEarly t₀ d x := by
  have hx := x.toNat_lt
  rw [UInt64.le_iff_toNat_le, elapsed_toNat, UInt32.toNat_toUInt64, UInt32.le_iff_toNat_le,
    FiresEarly, UInt32.lt_iff_toNat_lt]
  split <;> omega
