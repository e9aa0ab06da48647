import WezuBackend.Core.Base
import Mathlib.Data.Nat.Log

/-!
# Amounts of money

Amounts enter the backend as numbers or texts and are turned into two-decimal `Decimal`s by
`_to_money`; from there on they are exact, and an integer stands for the amount in hundredths.
`Amount` is what `Decimal(str(value))` makes of an argument.  Decimals carry 28 digits: `quantize`
raises when the result needs more (`Fits`).
-/

namespace WezuBackend.Core.Amounts

open Core.Base

/-- What `Decimal(str(value))` makes of an argument: `finite c e` is `c * 10 ^ e`. -/
inductive Amount where
  /-- `Decimal(str(value))` raises -/
  | unparsable
  | nan
  | infinity
  | finite (coeff exp : ℤ)
  deriving DecidableEq, Repr

/-- A two-decimal amount as an argument. -/
def Amount.ofMoney (m : ℤ) : Amount := .finite m (-2)

/-- The digits a `Decimal` carries. -/
def precision : ℕ := 28

/-- The amount has no more digits than a `Decimal` carries. -/
def Fits (m : ℤ) : Prop := m.natAbs < 10 ^ precision

instance (m : ℤ) : Decidable (Fits m) := by unfold Fits; infer_instance

/-- `n / d` rounded to the nearest integer, a tie to the even one. -/
def roundHalfEven (n : ℤ) (d : ℕ) : ℤ :=
  let q := n / d
  let r := n % d
  if 2 * r < d then q else if d < 2 * r then q + 1 else if q % 2 = 0 then q else q + 1

/-- `c * 10 ^ e` in hundredths. -/
def hundredths (coeff exp : ℤ) : ℤ :=
  if 0 ≤ exp + 2 then coeff * 10 ^ (exp + 2).toNat
  else roundHalfEven coeff (10 ^ (-(exp + 2)).toNat)

/-- `Decimal(...).quantize(Decimal("0.01"))`. -/
def quantize (coeff exp : ℤ) : Except Exc ℤ :=
  if Fits (hundredths coeff exp) then .ok (hundredths coeff exp) else .error .invalidOperation

/-- `WalletService._to_money`.  A NaN passes `quantize`, and the comparison that follows every call
of `_to_money` on an argument raises `InvalidOperation` on it. -/
def toMoney (value : Amount) : Except Exc ℤ :=
  match value with
  | .unparsable => .error (.http 400 "Invalid amount")
  | .nan => .error .invalidOperation
  | .infinity => .error .invalidOperation
  | .finite coeff exp => quantize coeff exp

/-- The text of a two-decimal amount. -/
def moneyText (m : ℤ) : String :=
  let cents := m.natAbs % 100
  (if m < 0 then "-" else "") ++ toString (m.natAbs / 100) ++ "." ++
    (if cents < 10 then "0" else "") ++ toString cents

/-- A decimal rounded to the digits it carries, as the result of an arithmetic operation is. -/
def roundToPrecision (coeff exp : ℤ) : ℤ × ℤ :=
  if coeff.natAbs < 10 ^ precision then (coeff, exp)
  else
    let k := Nat.log 10 coeff.natAbs + 1 - precision
    (roundHalfEven coeff (10 ^ k), exp + k)

/-- `Decimal(str(paise)) / Decimal("100")`. -/
def Amount.divHundred (paise : Amount) : Amount :=
  match paise with
  | .finite coeff exp =>
    let r := roundToPrecision coeff exp
    .finite r.1 (r.2 - 2)
  | other => other

theorem toMoney_ofMoney (m : ℤ) :
    toMoney (.ofMoney m) = if Fits m then .ok m else .error .invalidOperation := by
  have h : hundredths m (-2) = m := by simp [hundredths]
  simp only [toMoney, Amount.ofMoney, quantize, h]

@[simp] theorem toMoney_ofMoney_ok {m v : ℤ} :
    toMoney (.ofMoney m) = .ok v ↔ Fits m ∧ m = v := by
  rw [toMoney_ofMoney]
  split_ifs with h <;> simp [h]

theorem toMoney_fits {a : Amount} {v : ℤ} (h : toMoney a = .ok v) : Fits v := by
  unfold toMoney at h
  split at h
  · cases h
  · cases h
  · cases h
  · unfold quantize at h
    split_ifs at h with hf
    cases h
    exact hf

end WezuBackend.Core.Amounts
