import Mathlib.Data.Rat.Defs
import Mathlib.Tactic.NormNum
import SmartCO2.Library.Decimal

/-!
# JSON Objects of Numbers

A reader for a part of JSON: objects whose members are numbers, with whitespace wherever JSON
admits it. Numbers have no exponent and the names of the members no escapes, so every text that is
read is a JSON text, and is read as what it means there.

## Main results

* `denotes_digits`: a decimal number with a fraction is read as its value.
* `object_write`: an object that is written member by member is read as these members.
-/

namespace Json

/-! ### Reading -/

/-- Whitespace. -/
def isSpace (b : UInt8) : Bool := b = 32 || b = 9 || b = 10 || b = 13

/-- A digit. -/
def isDigit (b : UInt8) : Bool := 48 ≤ b && b ≤ 57

/-- An ASCII character that stands for itself in a string. -/
def isPlain (b : UInt8) : Bool := 32 ≤ b && b < 127 && b ≠ 34 && b ≠ 92

/-- The byte `b`, and whitespace before it. -/
def token (b : UInt8) (s : List UInt8) : Option (List UInt8) :=
  match s.dropWhile isSpace with
  | [] => none
  | c :: rest => if c = b then some rest else none

/-- The value of a row of digits. -/
def ofDigits (ds : List UInt8) : ℕ := ds.foldl (fun n b => 10 * n + (b.toNat - 48)) 0

/-- The integer part of a number: digits without leading zeros. -/
def integer (s : List UInt8) : Option (ℕ × List UInt8) :=
  let ds := s.takeWhile isDigit
  if ds = [] ∨ (ds.head? = some 48 ∧ ds ≠ [48]) then none
  else some (ofDigits ds, s.dropWhile isDigit)

/-- The fraction of a number, if there is one: a point and digits. -/
def fraction (s : List UInt8) : Option (ℚ × List UInt8) :=
  match s with
  | [] => some (0, [])
  | c :: rest =>
      if c = 46 then
        let ds := rest.takeWhile isDigit
        if ds = [] then none else some (ofDigits ds / 10 ^ ds.length, rest.dropWhile isDigit)
      else some (0, s)

/-- A number without its sign. -/
def magnitude (s : List UInt8) : Option (ℚ × List UInt8) := do
  let (n, s) ← integer s
  let (f, s) ← fraction s
  some (n + f, s)

/-- A number, and whitespace before it. -/
def number (s : List UInt8) : Option (ℚ × List UInt8) :=
  match token 45 s with
  | some s => (magnitude s).map fun r => (-r.1, r.2)
  | none => magnitude (s.dropWhile isSpace)

/-- The name of a member. -/
def name (s : List UInt8) : Option (List UInt8 × List UInt8) := do
  let s ← token 34 s
  let rest := s.dropWhile isPlain
  if rest.head? = some 34 then some (s.takeWhile isPlain, rest.tail) else none

/-- A member: its name and its value. -/
def member (s : List UInt8) : Option ((List UInt8 × ℚ) × List UInt8) := do
  let (key, s) ← name s
  let s ← token 58 s
  let (value, s) ← number s
  some ((key, value), s)

/-- One member or more, `fuel` at most. -/
def members : ℕ → List UInt8 → Option (List (List UInt8 × ℚ) × List UInt8)
  | 0, _ => none
  | fuel + 1, s => do
      let (m, s) ← member s
      match token 44 s with
      | some s =>
          let (ms, s) ← members fuel s
          some (m :: ms, s)
      | none => some ([m], s)

/-- A text that is an object. -/
def object (s : List UInt8) : Option (List (List UInt8 × ℚ)) := do
  let s ← token 123 s
  let (ms, s) ←
    match token 125 s with
    | some s => some ([], s)
    | none => do
        let (ms, s) ← members s.length s
        let s ← token 125 s
        some (ms, s)
  if s.all isSpace then some ms else none

/-! ### Tokens -/

section Tokens

variable {b c : UInt8} {s : List UInt8}

/-- A byte that is no whitespace is the next token. -/
theorem token_cons (h : isSpace c = false) : token b (c :: s) = if c = b then some s else none := by
  rw [token, List.dropWhile_cons_of_neg (by simp [h])]

/-- Whitespace before a token does not matter. -/
theorem token_space (h : isSpace c = true) : token b (c :: s) = token b s := by
  rw [token, List.dropWhile_cons_of_pos h, token]

end Tokens

/-! ### Numbers -/

/-- Digits up to a byte that is none. -/
theorem takeWhile_digits {ds rest : List UInt8} (h : ∀ b ∈ ds, isDigit b = true)
    (hrest : ∀ b ∈ rest.head?, isDigit b = false) :
    (ds ++ rest).takeWhile isDigit = ds ∧ (ds ++ rest).dropWhile isDigit = rest := by
  have hstop : rest.takeWhile isDigit = [] ∧ rest.dropWhile isDigit = rest := by
    cases rest with
    | nil => exact ⟨rfl, rfl⟩
    | cons b rest =>
        have hb : ¬ isDigit b = true := by simp [hrest b rfl]
        exact ⟨List.takeWhile_cons_of_neg hb, List.dropWhile_cons_of_neg hb⟩
  rw [List.takeWhile_append_of_pos h, List.dropWhile_append_of_pos h, hstop.1, hstop.2]
  exact ⟨List.append_nil ds, rfl⟩

/-- A number of more than one digit is its quotient by 10 and its last digit. -/
theorem digits_split {n : ℕ} (h : 10 ≤ n) : digits n = digits (n / 10) ++ digits (n % 10) := by
  rw [digits_eq, digits_eq, digits_eq, Nat.toDigits_of_base_le (by decide) h,
    Nat.toDigits_of_lt_base (Nat.mod_lt n (by decide)), List.map_append]

/-- The digits of a number have its value. -/
theorem ofDigits_digits (n : ℕ) : ofDigits (digits n) = n := by
  induction n using Nat.strongRecOn with
  | ind n ih =>
      have hone : ∀ k < 10, digits k = [UInt8.ofNat (48 + k)] ∧
          (UInt8.ofNat (48 + k)).toNat - 48 = k := by decide
      by_cases hn : n < 10
      · obtain ⟨hd, hvalue⟩ := hone n hn
        rw [hd, ofDigits, List.foldl_cons, hvalue]
        simp
      · obtain ⟨hd, hvalue⟩ := hone (n % 10) (Nat.mod_lt n (by decide))
        have hquot := ih (n / 10) (by omega)
        rw [digits_split (by omega), hd, ofDigits, List.foldl_append, ← ofDigits, hquot,
          List.foldl_cons, hvalue, List.foldl_nil]
        omega

/-- No number is written with leading zeros. -/
theorem digits_eq_of_head {n : ℕ} (h : (digits n).head? = some 48) : digits n = [48] := by
  induction n using Nat.strongRecOn with
  | ind n ih =>
      have hzero : digits 0 = [48] := rfl
      by_cases hn : n < 10
      · have hone : ∀ k < 10, (digits k).head? = some 48 → digits k = [48] := by decide
        exact hone n hn h
      · rw [digits_split (by omega), List.head?_append_of_ne_nil] at h
        · have hquot : n / 10 = 0 := digits_injective ((ih (n / 10) (by omega) h).trans hzero.symm)
          omega
        · rw [digits_eq]
          simp

/-- The text denotes the number, wherever it is not followed by a digit. -/
def Denotes (text : List UInt8) (q : ℚ) : Prop :=
  ∀ b rest, isDigit b = false → number (text ++ b :: rest) = some (q, b :: rest)

/-- **A number with a fraction.** -/
theorem denotes_digits (n : ℕ) {ds : List UInt8} (hne : ds ≠ [])
    (hds : ∀ b ∈ ds, isDigit b = true) :
    Denotes (digits n ++ 46 :: ds) (n + ofDigits ds / 10 ^ ds.length) := by
  intro b rest hb
  have hdigit : ∀ b ∈ digits n, isDigit b = true := by
    intro b hb
    simpa [isDigit] using isDigit_of_mem_digits hb
  have hpoint : ∀ c ∈ (46 :: (ds ++ b :: rest)).head?, isDigit c = false := by
    intro c hc
    obtain rfl := Option.some.inj hc
    decide
  obtain ⟨hint, htail⟩ := takeWhile_digits hdigit hpoint
  have hend : ∀ c ∈ (b :: rest).head?, isDigit c = false := by
    intro c hc
    obtain rfl := Option.some.inj hc
    exact hb
  obtain ⟨hfrac, hrest⟩ := takeWhile_digits hds hend
  obtain ⟨d, more, hfirst⟩ : ∃ d more, digits n = d :: more := by
    refine List.exists_cons_of_ne_nil ?_
    rw [digits_eq]
    simp
  have hd : isDigit d = true := hdigit d (by simp [hfirst])
  have hspace : isSpace d = false := by
    rw [Bool.eq_false_iff]
    intro h
    simp only [isSpace, Bool.or_eq_true, decide_eq_true_eq] at h
    rcases h with ((rfl | rfl) | rfl) | rfl <;> exact absurd hd (by decide)
  have hsign : d ≠ 45 := by
    rintro rfl
    exact absurd hd (by decide)
  have hzeros : ¬ (digits n = [] ∨ ((digits n).head? = some 48 ∧ digits n ≠ [48])) := by
    rintro (hnil | ⟨hhead, hlong⟩)
    · exact absurd (hfirst.symm.trans hnil) (by simp)
    · exact hlong (digits_eq_of_head hhead)
  have hinteger : integer (digits n ++ 46 :: (ds ++ b :: rest)) =
      some (n, 46 :: (ds ++ b :: rest)) := by
    simp only [integer, hint, htail, if_neg hzeros, ofDigits_digits]
  have hfraction : fraction (46 :: (ds ++ b :: rest)) =
      some ((ofDigits ds : ℚ) / 10 ^ ds.length, b :: rest) := by
    simp only [fraction, if_true, hfrac, hrest, if_neg hne]
  have hmagnitude : magnitude (digits n ++ 46 :: (ds ++ b :: rest)) =
      some ((n : ℚ) + ofDigits ds / 10 ^ ds.length, b :: rest) := by
    simp [magnitude, hinteger, hfraction]
  rw [List.append_assoc, List.cons_append, number]
  rw [hfirst, List.cons_append] at hmagnitude ⊢
  rw [token_cons hspace, if_neg hsign, List.dropWhile_cons_of_neg (by simp [hspace])]
  exact hmagnitude

/-! ### Writing -/

/-- What is written of a member: its name, and a text that denotes its value. -/
structure Field where
  name : List UInt8
  text : List UInt8
  value : ℚ
  plain : ∀ b ∈ name, isPlain b = true
  denotes : Denotes text value

/-- One member. -/
def Field.write (f : Field) : List UInt8 := 34 :: (f.name ++ 34 :: 58 :: 32 :: f.text)

/-- Members, with commas between them. -/
def writeFields : List Field → List UInt8
  | [] => []
  | [f] => f.write
  | f :: fs => f.write ++ 44 :: 32 :: writeFields fs

/-- An object. -/
def write (fs : List Field) : List UInt8 := 123 :: (writeFields fs ++ [125])

/-- A member is read as it is written. -/
theorem member_write (f : Field) {b : UInt8} (hb : isDigit b = false) (rest : List UInt8) :
    member (f.write ++ b :: rest) = some ((f.name, f.value), b :: rest) := by
  have hquote : isSpace 34 = false := by decide
  have hcolon : isSpace 58 = false := by decide
  have hname : name (f.write ++ b :: rest) =
      some (f.name, 58 :: 32 :: (f.text ++ b :: rest)) := by
    have hend : ¬ isPlain 34 = true := by decide
    have htake : (f.name ++ 34 :: 58 :: 32 :: (f.text ++ b :: rest)).takeWhile isPlain =
        f.name := by
      rw [List.takeWhile_append_of_pos f.plain, List.takeWhile_cons_of_neg hend, List.append_nil]
    have hdrop : (f.name ++ 34 :: 58 :: 32 :: (f.text ++ b :: rest)).dropWhile isPlain =
        34 :: 58 :: 32 :: (f.text ++ b :: rest) := by
      rw [List.dropWhile_append_of_pos f.plain, List.dropWhile_cons_of_neg hend]
    simp [Field.write, name, token_cons hquote, htake, hdrop]
  have hnumber : number (32 :: (f.text ++ b :: rest)) = some (f.value, b :: rest) := by
    have hspace : isSpace 32 = true := by decide
    rw [number, token_space hspace, List.dropWhile_cons_of_pos hspace, ← number]
    exact f.denotes b rest hb
  simp [member, hname, token_cons hcolon, hnumber]

/-- Whitespace before members does not matter. -/
theorem members_space (fuel : ℕ) (s : List UInt8) : members fuel (32 :: s) = members fuel s := by
  have hspace : isSpace 32 = true := by decide
  cases fuel with
  | zero => rfl
  | succ fuel => simp only [members, member, name, token_space hspace]

/-- Members are read as they are written. -/
theorem members_write (f : Field) (fs : List Field) {fuel : ℕ} (hfuel : fs.length < fuel) :
    members fuel (writeFields (f :: fs) ++ [125]) =
      some ((f :: fs).map fun f => (f.name, f.value), [125]) := by
  have hcomma : isDigit 44 = false ∧ isSpace 44 = false := by decide
  have hbrace : isDigit 125 = false ∧ isSpace 125 = false := by decide
  induction fs generalizing f fuel with
  | nil =>
      obtain ⟨fuel, rfl⟩ := Nat.exists_eq_succ_of_ne_zero (Nat.ne_zero_of_lt hfuel)
      have hlast := member_write f hbrace.1 []
      simp [writeFields, members, hlast, token_cons hbrace.2]
  | cons f' fs ih =>
      obtain ⟨fuel, rfl⟩ := Nat.exists_eq_succ_of_ne_zero (Nat.ne_zero_of_lt hfuel)
      have hfirst := member_write f hcomma.1 (32 :: (writeFields (f' :: fs) ++ [125]))
      have hrest := ih f' (Nat.lt_of_succ_lt_succ hfuel)
      simp [writeFields, members, hfirst, token_cons hcomma.2, members_space, hrest]

/-- Every member takes at least one byte. -/
theorem length_le_writeFields (fs : List Field) : fs.length ≤ (writeFields fs).length := by
  induction fs with
  | nil => exact le_rfl
  | cons f fs ih =>
      cases fs with
      | nil => simp [writeFields, Field.write]
      | cons f' fs =>
          simp only [writeFields, List.length_append, List.length_cons] at ih ⊢
          omega

/-- **An object is read as it is written.** -/
theorem object_write (fs : List Field) :
    object (write fs) = some (fs.map fun f => (f.name, f.value)) := by
  have hopen : isSpace 123 = false := by decide
  have hclose : isSpace 125 = false := by decide
  cases fs with
  | nil => simp [write, writeFields, object, token_cons hopen, token_cons hclose]
  | cons f fs =>
      have hquote : isSpace 34 = false := by decide
      obtain ⟨more, hfirst⟩ : ∃ more, writeFields (f :: fs) ++ [125] = 34 :: more := by
        cases fs <;> exact ⟨_, rfl⟩
      have hfuel : fs.length < (writeFields (f :: fs) ++ [125]).length := by
        have hlen := length_le_writeFields (f :: fs)
        rw [List.length_append]
        simp only [List.length_cons] at hlen ⊢
        omega
      have hempty : token 125 (writeFields (f :: fs) ++ [125]) = none := by
        rw [hfirst, token_cons hquote]
        rfl
      simp only [write, object, token_cons hopen, if_true, Option.bind_eq_bind, Option.bind_some,
        hempty, members_write f fs hfuel, token_cons hclose, List.all_nil]

end Json
