import WezuBackend.Core.Letters

/-!
# Characters beyond ASCII

Python's `str.lower`, `str.isdigit` and `int` of a text know all characters of Unicode.
`Characters` and `Numerals` are what they are relied on for; on ASCII texts they are the functions
of `Core.Text`.
-/

namespace WezuBackend.Core.Unicode

open Core.Base Core.Text

/-- Python's `str.lower`, and its `str.isdigit` of a character. -/
class Characters where
  /-- `str.lower` -/
  lowered : String → String
  /-- `str.isdigit` of a character -/
  isdigit : Char → Bool
  lowered_ascii : ∀ s, (∀ c ∈ s.toList, c.toNat < 128) → lowered s = lower s
  isdigit_ascii : ∀ c, c.toNat < 128 → isdigit c = c.isDigit

export Characters (lowered isdigit)

/-- No letter and no digit beyond ASCII. -/
instance asciiCharacters : Characters where
  lowered := lower
  isdigit := Char.isDigit
  lowered_ascii _ _ := rfl
  isdigit_ascii _ _ := rfl

/-- `str.lower` leaves no capital letter. -/
class LowerCase [Characters] : Prop where
  lowered_not_capital : ∀ s, ∀ c ∈ (lowered s).toList, ¬ (65 ≤ c.toNat ∧ c.toNat ≤ 90)

instance lowerCase : LowerCase where
  lowered_not_capital s c hc := by
    obtain ⟨d, -, rfl⟩ := List.mem_map.mp (String.toList_ofList ▸ hc)
    have hlower := Letters.toNat_toLower d
    split_ifs at hlower <;> omega

/-- Python's `int` of a text; not every digit is a decimal one. -/
class Numerals where
  /-- `int(text)` -/
  intOf : String → Except Exc ℤ
  intOf_ascii : ∀ s, (∀ c ∈ s.toList, c.toNat < 128) → intOf s = intOfText s

export Numerals (intOf)

/-- No number with digits beyond ASCII. -/
instance asciiNumerals : Numerals where
  intOf := intOfText
  intOf_ascii _ _ := rfl

/-! ## Decimal digits -/

/-- `int` of decimal digits. -/
def intOfDigits (digits : List Char) : Except Exc ℕ :=
  if digits.length ≤ maxDigits then
    .ok (digits.foldl (fun n c => 10 * n + (decimalDigit c).getD 0) 0)
  else .error tooLong

/-- **The digits of a number are read back**, up to the limit of Python. -/
theorem intOfDigits_toDigits_iff {n : ℕ} :
    intOfDigits (Nat.toDigits 10 n) = .ok n ↔ n < 10 ^ maxDigits := by
  have hdigits : ∀ c ∈ Nat.toDigits 10 n, c.isDigit = true := fun c hc =>
    Nat.isDigit_of_mem_toDigits (by omega) (by omega) hc
  have hvalue : (Nat.toDigits 10 n).foldl (fun n c => 10 * n + (decimalDigit c).getD 0) 0 = n := by
    rw [foldl_decimalDigit hdigits]
    exact Nat.ofDigitChars_ten_toDigits
  have hlength : (Nat.toDigits 10 n).length ≤ maxDigits ↔ n < 10 ^ maxDigits :=
    Nat.length_toDigits_le_iff (by omega) (by decide)
  unfold intOfDigits
  rw [hvalue, ← hlength]
  by_cases h : (Nat.toDigits 10 n).length ≤ maxDigits
  · exact iff_of_true (if_pos h) h
  · rw [if_neg h]
    exact iff_of_false (fun herror => by cases herror) h

end WezuBackend.Core.Unicode
