import Mathlib.Data.Int.Notation
import Mathlib.Data.List.Basic
import Mathlib.Data.List.TakeWhile
import Mathlib.Data.Nat.Basic

/-!
# C Strings

The string functions of the C library on byte lists. A `char` array that is only used as a
string is represented by the bytes before its terminating NUL; an array whose stale bytes
matter is represented by all of its bytes, and `cString` reads the string it holds.
-/

/-- The bytes of an ASCII text. -/
def ascii (text : String) : List UInt8 :=
  text.toList.map fun c => c.toNat.toUInt8

/-- The string that an array of bytes holds: everything before the first NUL. -/
def cString (bytes : List UInt8) : List UInt8 :=
  bytes.takeWhile (· ≠ 0)

/-- The `n` bytes that `strncpy(dst, src, n)` writes from `dst` on: the string of `src`,
cut to `n` bytes and otherwise padded with NULs. A string of `n` bytes or more gets no
terminator. -/
def strncpy (src : List UInt8) (n : ℕ) : List UInt8 :=
  (cString src).take n ++ List.replicate (n - (cString src).length) 0

/-- `snprintf` into a buffer of `size` bytes that holds the string `old`: the returned value
and the string held afterwards. The formatted text is `none` on an encoding error; otherwise
the value is its full length, also when only its beginning fits. -/
def snprintf (size : ℕ) (text : Option (List UInt8)) (old : List UInt8) : ℤ × List UInt8 :=
  match text with
  | none => (-1, old)
  | some t => (t.length, t.take (size - 1))

/-- A text that can be formatted is cut to what the buffer holds, and its whole length is
returned. -/
theorem snprintf_some (size : ℕ) (t old : List UInt8) :
    snprintf size (some t) old = ((t.length : ℤ), t.take (size - 1)) := rfl

/-! ### Strings in arrays -/

variable {bytes rest src : List UInt8}

/-- A string holds no NUL. -/
theorem ne_zero_of_mem_cString {b : UInt8} (h : b ∈ cString bytes) : b ≠ 0 := by
  simpa using List.mem_takeWhile_imp h

/-- A string is no longer than the array that holds it. -/
theorem cString_length_le (bytes : List UInt8) : (cString bytes).length ≤ bytes.length :=
  (List.takeWhile_sublist _).length_le

/-- An array without a NUL is all string. -/
theorem cString_eq_self (h : 0 ∉ bytes) : cString bytes = bytes := by
  refine List.takeWhile_eq_self_iff.mpr fun b hb => ?_
  have hne : b ≠ 0 := fun heq => h (heq ▸ hb)
  simpa using hne

/-- A string and its terminator hold the string, whatever stands behind. -/
theorem cString_terminated (h : 0 ∉ bytes) (rest : List UInt8) :
    cString (bytes ++ 0 :: rest) = bytes := by
  have hpos : ∀ b ∈ bytes, decide (b ≠ 0) = true := by
    intro b hb
    have hne : b ≠ 0 := fun heq => h (heq ▸ hb)
    simpa using hne
  rw [cString, List.takeWhile_append_of_pos hpos]
  simp

/-- An array with a NUL is a string, its terminator and more bytes. -/
theorem exists_eq_cString_append (h : 0 ∈ bytes) :
    ∃ more, bytes = cString bytes ++ 0 :: more := by
  obtain ⟨before, more, rfl, hnot⟩ := List.eq_append_cons_of_mem h
  exact ⟨more, by rw [cString_terminated hnot]⟩

/-- What stands behind the terminator is not part of the string. -/
theorem cString_append (h : 0 ∈ bytes) (rest : List UInt8) :
    cString (bytes ++ rest) = cString bytes := by
  obtain ⟨more, heq⟩ := exists_eq_cString_append h
  have hnot : 0 ∉ cString bytes := fun hmem => ne_zero_of_mem_cString hmem rfl
  rw [heq, List.append_assoc, List.cons_append, cString_terminated hnot, cString_terminated hnot]

/-- Copied with its own length, an array without a NUL gets no terminator. -/
theorem strncpy_of_not_mem (h : 0 ∉ src) : strncpy src src.length = src := by
  rw [strncpy, cString_eq_self h, List.take_length, Nat.sub_self, List.replicate_zero,
    List.append_nil]

/-- Copied with its own length, an array with a NUL keeps its string and is terminated. -/
theorem strncpy_of_mem (h : 0 ∈ src) :
    0 ∈ strncpy src src.length ∧ cString (strncpy src src.length) = cString src := by
  obtain ⟨more, heq⟩ := exists_eq_cString_append h
  have hlen : src.length = (cString src).length + (more.length + 1) := by
    conv_lhs => rw [heq]
    simp
  have hpad : src.length - (cString src).length = more.length + 1 := by omega
  have hcopy : strncpy src src.length = cString src ++ 0 :: List.replicate more.length 0 := by
    rw [strncpy, hpad, List.take_of_length_le (cString_length_le src), List.replicate_succ]
  rw [hcopy]
  exact ⟨by simp, cString_terminated (fun hmem => ne_zero_of_mem_cString hmem rfl) _⟩
