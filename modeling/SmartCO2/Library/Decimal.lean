import Mathlib.Algebra.Group.Nat.Defs
import Mathlib.Data.List.Basic
import SmartCO2.Library.CString

/-!
# Decimal Numbers in Texts

The decimal representation of a natural number as ASCII bytes: all of them are digits, they
determine the number, and their count bounds it. Fields of this kind between delimiters that
are no digits can be read back one after the other (`digits_cons_inj`).
-/

/-- The decimal representation of a number. -/
def digits (n : ℕ) : List UInt8 := ascii n.repr

/-- Texts are concatenated byte by byte. -/
theorem ascii_append (s t : String) : ascii (s ++ t) = ascii s ++ ascii t := by
  simp [ascii]

/-- The representation is that of `Nat.toDigits`. -/
theorem digits_eq (n : ℕ) : digits n = (Nat.toDigits 10 n).map fun c => c.toNat.toUInt8 := by
  rw [digits, ascii, Nat.toList_repr]

/-- A digit is an ASCII character, so its byte is its code. -/
theorem toDigits_byte {n : ℕ} {c : Char} (h : c ∈ Nat.toDigits 10 n) :
    48 ≤ c.toNat ∧ c.toNat ≤ 57 ∧ c.toNat.toUInt8.toNat = c.toNat := by
  have hdigit := Nat.isDigit_of_mem_toDigits (by decide) (by decide) h
  obtain ⟨hlow, hhigh⟩ : 48 ≤ c.toNat ∧ c.toNat ≤ 57 := Char.isDigit_iff_toNat.mp hdigit
  refine ⟨hlow, hhigh, UInt8.toNat_ofNat_of_lt' ?_⟩
  exact lt_of_le_of_lt hhigh (by decide)

/-- Every byte of a number is a digit. -/
theorem isDigit_of_mem_digits {n : ℕ} {b : UInt8} (h : b ∈ digits n) : 48 ≤ b ∧ b ≤ 57 := by
  rw [digits_eq] at h
  obtain ⟨c, hc, rfl⟩ := List.mem_map.mp h
  obtain ⟨hlow, hhigh, hbyte⟩ := toDigits_byte hc
  rw [UInt8.le_iff_toNat_le, UInt8.le_iff_toNat_le, hbyte]
  exact ⟨hlow, hhigh⟩

/-- The representation of a number determines it. -/
theorem digits_injective {n m : ℕ} (h : digits n = digits m) : n = m := by
  have hback : ∀ k, (digits k).map (fun b => Char.ofNat b.toNat) = Nat.toDigits 10 k := by
    intro k
    rw [digits_eq, List.map_map]
    refine (List.map_congr_left fun c hc => ?_).trans (List.map_id _)
    obtain ⟨-, -, hbyte⟩ := toDigits_byte hc
    simp only [Function.comp, hbyte, Char.ofNat_toNat, id]
  calc
    n = Nat.ofDigitChars 10 (Nat.toDigits 10 n) 0 := Nat.ofDigitChars_ten_toDigits.symm
    _ = Nat.ofDigitChars 10 (Nat.toDigits 10 m) 0 := by rw [← hback n, h, hback m]
    _ = m := Nat.ofDigitChars_ten_toDigits

/-- A number below `10 ^ k` has at most `k` digits. -/
theorem digits_length_le {n k : ℕ} (hk : 0 < k) (h : n < 10 ^ k) : (digits n).length ≤ k := by
  rw [digits_eq, List.length_map]
  exact (Nat.length_toDigits_le_iff (by decide) hk).mpr h

/-- Two texts that agree up to a byte which stands in neither of their beginnings agree in
their beginnings and in their rests. -/
theorem append_cons_inj {d : UInt8} {x y s t : List UInt8} (hx : d ∉ x) (hy : d ∉ y)
    (h : x ++ d :: s = y ++ d :: t) : x = y ∧ s = t := by
  induction x generalizing y with
  | nil =>
      cases y with
      | nil => exact ⟨rfl, (List.cons.inj h).2⟩
      | cons b y => exact absurd (List.mem_cons.mpr (Or.inl (List.cons.inj h).1)) hy
  | cons a x ih =>
      cases y with
      | nil => exact absurd (List.mem_cons.mpr (Or.inl (List.cons.inj h).1.symm)) hx
      | cons b y =>
          obtain ⟨rfl, htail⟩ := List.cons.inj h
          obtain ⟨rfl, hrest⟩ := ih (fun hmem => hx (List.mem_cons_of_mem a hmem))
            (fun hmem => hy (List.mem_cons_of_mem a hmem)) htail
          exact ⟨rfl, hrest⟩

/-- **Reading a field back.** A number is determined by a text that begins with it and goes on
with a byte that is no digit, and so is the rest of the text. -/
theorem digits_cons_inj {n m : ℕ} {d : UInt8} {s t : List UInt8} (hd : ¬ (48 ≤ d ∧ d ≤ 57))
    (h : digits n ++ d :: s = digits m ++ d :: t) : n = m ∧ s = t := by
  have hnot : ∀ k, d ∉ digits k := fun k hmem => hd (isDigit_of_mem_digits hmem)
  obtain ⟨hdigits, hrest⟩ := append_cons_inj (hnot n) (hnot m) h
  exact ⟨digits_injective hdigits, hrest⟩
