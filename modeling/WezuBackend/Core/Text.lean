import WezuBackend.Core.Base
import Mathlib.Data.List.TakeWhile

/-!
# Texts

Python's `str.strip`, `int` of a text and, on texts that are then compared with ASCII ones,
`str.lower`; and that the text of a number determines it, so that a reference to a row by the text
of its id is one to that row.
-/

namespace WezuBackend.Core.Text

open Core.Base

/-- `str.isspace` of a character. -/
def isSpace (c : Char) : Bool :=
  let n := c.toNat
  (9 ≤ n ∧ n ≤ 13) ∨ (28 ≤ n ∧ n ≤ 32) ∨ n = 0x85 ∨ n = 0xa0 ∨ n = 0x1680 ∨
    (0x2000 ≤ n ∧ n ≤ 0x200a) ∨ n = 0x2028 ∨ n = 0x2029 ∨ n = 0x202f ∨ n = 0x205f ∨ n = 0x3000

/-- Without the blanks at the end. -/
def rstrip (cs : List Char) : List Char := (cs.reverse.dropWhile isSpace).reverse

def strip (text : String) : String := String.ofList (rstrip (text.toList.dropWhile isSpace))

def lower (text : String) : String := String.ofList (text.toList.map Char.toLower)

/-- The zeroes of Unicode 14; the other digits of a script follow its zero. -/
def zeroes : List ℕ :=
  [0x30, 0x660, 0x6f0, 0x7c0, 0x966, 0x9e6, 0xa66, 0xae6, 0xb66, 0xbe6, 0xc66, 0xce6, 0xd66, 0xde6,
   0xe50, 0xed0, 0xf20, 0x1040, 0x1090, 0x17e0, 0x1810, 0x1946, 0x19d0, 0x1a80, 0x1a90, 0x1b50,
   0x1bb0, 0x1c40, 0x1c50, 0xa620, 0xa8d0, 0xa900, 0xa9d0, 0xa9f0, 0xaa50, 0xabf0, 0xff10, 0x104a0,
   0x10d30, 0x11066, 0x110f0, 0x11136, 0x111d0, 0x112f0, 0x11450, 0x114d0, 0x11650, 0x116c0,
   0x11730, 0x118e0, 0x11950, 0x11c50, 0x11d50, 0x11da0, 0x16a60, 0x16ac0, 0x16b50, 0x1d7ce,
   0x1d7d8, 0x1d7e2, 0x1d7ec, 0x1d7f6, 0x1e140, 0x1e2f0, 0x1e950, 0x1fbf0]

def decimalDigit (c : Char) : Option ℕ :=
  (zeroes.find? fun z => z ≤ c.toNat ∧ c.toNat < z + 10).map fun z => c.toNat - z

/-- `\d` of a pattern. -/
def isDecimal (c : Char) : Bool := (decimalDigit c).isSome

def decimal (digits : List Char) : ℕ :=
  digits.foldl (fun n c => 10 * n + (decimalDigit c).getD 0) 0

/-- Decimal digits, with single underscores between them. -/
def spelledDigits (cs : List Char) : Option ℕ :=
  if (cs.splitOn '_').all fun group => group ≠ [] ∧ group.all isDecimal then
    some (decimal (cs.filter isDecimal))
  else none

def spelledInt (text : String) : Option ℤ :=
  match (strip text).toList with
  | '-' :: cs => (spelledDigits cs).map fun n => -(n : ℤ)
  | '+' :: cs => (spelledDigits cs).map fun n => (n : ℤ)
  | cs => (spelledDigits cs).map fun n => (n : ℤ)

/-- The longest number that is converted between `int` and `str`, in digits. -/
def maxDigits : ℕ := 4300

def tooLong : Exc := .valueError "Exceeds the limit (4300 digits) for integer string conversion"

/-- `int(text)`. -/
def intOfText (text : String) : Except Exc ℤ :=
  match spelledInt text with
  | some n => if (text.toList.filter isDecimal).length ≤ maxDigits then .ok n else .error tooLong
  | none => .error (.valueError ("invalid literal for int() with base 10: '" ++ text ++ "'"))

/-- `str(n)`. -/
def textOfInt (n : ℤ) : Except Exc String :=
  if n.natAbs < 10 ^ maxDigits then .ok (toString n) else .error tooLong

theorem eq_of_toString_eq {m n : ℕ} (h : toString m = toString n) : m = n := by
  have hdigits : Nat.toDigits 10 m = Nat.toDigits 10 n := by
    rw [← Nat.toList_repr, ← Nat.toList_repr]
    exact congrArg String.toList h
  rw [← Nat.ofDigitChars_ten_toDigits (n := m), hdigits, Nat.ofDigitChars_ten_toDigits]

/-! ## The text of a number is read back -/

theorem decimalDigit_of_isDigit {c : Char} (h : c.isDigit = true) :
    decimalDigit c = some (c.toNat - '0'.toNat) := by
  have hrange : 48 ≤ c.toNat ∧ c.toNat ≤ 57 := by
    rw [Char.isDigit, Bool.and_eq_true, decide_eq_true_eq, decide_eq_true_eq] at h
    exact h
  unfold decimalDigit zeroes
  rw [List.find?_cons_of_pos (by simp; omega)]
  rfl

theorem isDecimal_of_isDigit {c : Char} (h : c.isDigit = true) : isDecimal c = true := by
  unfold isDecimal
  rw [decimalDigit_of_isDigit h]
  rfl

theorem foldl_decimalDigit {digits : List Char} (h : ∀ c ∈ digits, c.isDigit = true) (n : ℕ) :
    digits.foldl (fun n c => 10 * n + (decimalDigit c).getD 0) n =
      digits.foldl (fun n c => 10 * n + (c.toNat - '0'.toNat)) n := by
  induction digits generalizing n with
  | nil => rfl
  | cons c cs ih =>
    rw [List.foldl_cons, List.foldl_cons, decimalDigit_of_isDigit (h c List.mem_cons_self)]
    exact ih (fun c' hc' => h c' (List.mem_cons_of_mem _ hc')) _

theorem isSpace_of_isDigit {c : Char} (h : c.isDigit = true) : isSpace c = false := by
  have hrange : 48 ≤ c.toNat ∧ c.toNat ≤ 57 := by
    rw [Char.isDigit, Bool.and_eq_true, decide_eq_true_eq, decide_eq_true_eq] at h
    exact h
  unfold isSpace
  rw [decide_eq_false_iff_not]
  omega

theorem dropWhile_of_head {cs : List Char} (h : ∀ c ∈ cs.head?, isSpace c = false) :
    cs.dropWhile isSpace = cs := by
  rcases cs with _ | ⟨c, cs⟩
  · rfl
  · have hc : isSpace c = false := h c rfl
    rw [List.dropWhile_cons_of_neg (by simp [hc])]

theorem rstrip_of_getLast {cs : List Char} (h : ∀ c ∈ cs.getLast?, isSpace c = false) :
    rstrip cs = cs := by
  have hreverse : cs.reverse.dropWhile isSpace = cs.reverse :=
    dropWhile_of_head (by rwa [List.head?_reverse])
  unfold rstrip
  rw [hreverse, List.reverse_reverse]

variable {text : String}

theorem strip_of_ends (hfirst : ∀ c ∈ text.toList.head?, isSpace c = false)
    (hlast : ∀ c ∈ text.toList.getLast?, isSpace c = false) : strip text = text := by
  unfold strip
  rw [dropWhile_of_head hfirst, rstrip_of_getLast hlast, String.ofList_toList]

theorem strip_of_not_space (h : ∀ c ∈ text.toList, isSpace c = false) :
    strip text = text :=
  strip_of_ends (fun c hc => h c (List.mem_of_head? hc)) fun c hc => h c (List.mem_of_getLast? hc)

theorem strip_of_isDigit (h : ∀ c ∈ text.toList, c.isDigit = true) :
    strip text = text :=
  strip_of_not_space fun c hc => isSpace_of_isDigit (h c hc)

theorem spelledDigits_toDigits (n : ℕ) : spelledDigits (Nat.toDigits 10 n) = some n := by
  have hdigits : ∀ c ∈ Nat.toDigits 10 n, c.isDigit = true := fun c hc =>
    Nat.isDigit_of_mem_toDigits (by omega) (by omega) hc
  have hdecimal : ∀ c ∈ Nat.toDigits 10 n, isDecimal c = true := fun c hc =>
    isDecimal_of_isDigit (hdigits c hc)
  have hsplit : (Nat.toDigits 10 n).splitOn '_' = [Nat.toDigits 10 n] :=
    List.splitOnP_eq_singleton fun c hc => beq_eq_false_iff_ne.mpr fun h =>
      Nat.underscore_not_in_toDigits (h ▸ hc)
  have hall : ((Nat.toDigits 10 n).splitOn '_').all
      (fun group => group ≠ [] ∧ group.all isDecimal) = true := by
    rw [hsplit]
    simpa [Nat.toDigits_ne_nil] using hdecimal
  unfold spelledDigits decimal
  rw [if_pos hall, List.filter_eq_self.mpr hdecimal, foldl_decimalDigit hdigits]
  exact congrArg some Nat.ofDigitChars_ten_toDigits

/-- **The text of a number is read back.** -/
theorem intOfText_toString {n : ℕ} (h : n < 10 ^ maxDigits) : intOfText (toString n) = .ok n := by
  have hlist : (toString n).toList = Nat.toDigits 10 n := Nat.toList_repr
  have hdigits : ∀ c ∈ (toString n).toList, c.isDigit = true := by
    rw [hlist]
    exact fun c hc => Nat.isDigit_of_mem_toDigits (by omega) (by omega) hc
  have hspelled : spelledInt (toString n) = some (n : ℤ) := by
    unfold spelledInt
    rw [strip_of_isDigit hdigits, hlist]
    rw [hlist] at hdigits
    split
    · next cs hcs => exact absurd (hdigits '-' (by rw [hcs]; exact List.mem_cons_self)) (by decide)
    · next cs hcs => exact absurd (hdigits '+' (by rw [hcs]; exact List.mem_cons_self)) (by decide)
    · rw [spelledDigits_toDigits]
      rfl
  have hlength : ((toString n).toList.filter isDecimal).length ≤ maxDigits := by
    rw [List.filter_eq_self.mpr fun c hc => isDecimal_of_isDigit (hdigits c hc), hlist]
    exact (Nat.length_toDigits_le_iff (by omega) (by decide)).mpr h
  unfold intOfText
  rw [hspelled]
  exact if_pos hlength

end WezuBackend.Core.Text
