import WezuBackend.Core.Amounts
import Mathlib.Data.Int.Log
import Mathlib.Data.Rat.Floor

/-!
# Significant digits

What Python keeps of the exact result of an operation: a float has 53 binary digits, a `Decimal` of
the default context 28 decimal ones, and a tie goes to the even last digit.  Numbers too large for
either are left out.
-/

namespace WezuBackend.Core.Floats

open Core.Amounts

/-- The weight of the last digit that is kept of `x`, at least `base ^ least`. -/
def lastPlace (base digits : ℕ) (least : ℤ) (x : ℚ) : ℚ :=
  (base : ℚ) ^ max least (Int.log base |x| + 1 - digits)

def roundDigits (base digits : ℕ) (least : ℤ) (x : ℚ) : ℚ :=
  let place := lastPlace base digits least x
  roundHalfEven (x / place).num (x / place).den * place

/-- The float nearest to `x`. -/
def binary64 (x : ℚ) : ℚ := roundDigits 2 53 (-1074) x

/-- The `Decimal` that an operation with the exact result `x` gives. -/
def decimal28 (x : ℚ) : ℚ := roundDigits 10 28 (-1000026) x

/-- `24.0 * 0.2` is `4.800000000000001`. -/
example : binary64 (24 * binary64 (1 / 5)) = 1351079888211149 / 281474976710656 ∧
    binary64 (24 / 5) = 5404319552844595 / 1125899906842624 := by
  decide +kernel

/-! ## Amounts that are floats -/

/-- `repr` of a positive float: the decimal of the fewest digits that reads back as it.  Above a
power of two the floats lie wider than below it, so the next decimal may where the nearest does
not. -/
def shortest (x : ℚ) : ℚ :=
  ((List.range 17).findSome? fun d =>
    let y := roundDigits 10 (d + 1) (-340) x
    [y, y + lastPlace 10 (d + 1) (-340) x].find? fun y => binary64 y = x).getD x

/-- What `_to_money` reads of a float, in hundredths. -/
def readBack (x : ℚ) : ℤ :=
  let y := shortest |x| * 100
  x.num.sign * roundHalfEven y.num y.den

/-- The amounts, in hundredths, of which a float keeps every digit: it keeps fifteen. -/
def Kept (m : ℤ) : Prop := m.natAbs < 10 ^ 15

instance (m : ℤ) : Decidable (Kept m) := by unfold Kept; infer_instance

/-- The amount that a `float` column gives back for one that is stored. -/
def column (m : ℤ) : ℤ := if Kept m then m else readBack (binary64 (m / 100))

/-- `round(a - b, 2)` of two amounts that are floats. -/
def floatSub (a b : ℤ) : ℤ :=
  if Kept a ∧ Kept b then a - b
  else
    let difference := binary64 (binary64 (a / 100) - binary64 (b / 100)) * 100
    readBack (binary64 (roundHalfEven difference.num difference.den / 100))

variable {a b m : ℤ}

theorem column_of_kept (h : Kept m) : column m = m := if_pos h

theorem Kept.of_le (hb : Kept b) (h₀ : 0 ≤ a) (h : a ≤ b) : Kept a := by
  unfold Kept at hb ⊢
  omega

theorem roundHalfEven_nonneg {n : ℤ} (hn : 0 ≤ n) (d : ℕ) : 0 ≤ roundHalfEven n d := by
  have hq : 0 ≤ n / (d : ℤ) := Int.ediv_nonneg hn (Int.natCast_nonneg d)
  unfold roundHalfEven
  dsimp only
  split_ifs <;> omega

variable {x : ℚ}

theorem lastPlace_pos {base : ℕ} (hb : 0 < base) (digits : ℕ) (least : ℤ) (x : ℚ) :
    0 < lastPlace base digits least x :=
  zpow_pos (by exact_mod_cast hb) _

theorem roundDigits_nonneg {base : ℕ} (hb : 0 < base) (digits : ℕ) (least : ℤ) (hx : 0 ≤ x) :
    0 ≤ roundDigits base digits least x := by
  have hplace := lastPlace_pos hb digits least x
  have hnum : 0 ≤ (x / lastPlace base digits least x).num :=
    Rat.num_nonneg.mpr (div_nonneg hx hplace.le)
  have hround := roundHalfEven_nonneg hnum (x / lastPlace base digits least x).den
  exact mul_nonneg (by exact_mod_cast hround) hplace.le

theorem shortest_nonneg (hx : 0 ≤ x) : 0 ≤ shortest x := by
  unfold shortest
  rcases hfound : (List.range 17).findSome? _ with _ | y
  · exact hx
  · obtain ⟨d, -, hd⟩ := List.exists_of_findSome?_eq_some hfound
    have hnear := roundDigits_nonneg (by decide : 0 < 10) (d + 1) (-340) hx
    have hplace := lastPlace_pos (by decide : 0 < 10) (d + 1) (-340) x
    rcases List.mem_pair.mp (List.mem_of_find?_eq_some hd) with rfl | rfl
    · exact hnear
    · exact add_nonneg hnear hplace.le

theorem readBack_nonneg (hx : 0 ≤ x) : 0 ≤ readBack x :=
  mul_nonneg (Int.sign_nonneg_iff.mpr (Rat.num_nonneg.mpr hx)) <| roundHalfEven_nonneg
    (Rat.num_nonneg.mpr (mul_nonneg (shortest_nonneg (abs_nonneg x)) (by norm_num))) _

/-- A `float` column makes no amount negative. -/
theorem column_nonneg (h : 0 ≤ m) : 0 ≤ column m := by
  unfold column
  split_ifs
  · exact h
  · exact readBack_nonneg (roundDigits_nonneg (by decide) _ _
      (div_nonneg (by exact_mod_cast h) (by norm_num)))

/-- Next to `100000000000000.00` the floats are a 64th apart. -/
example : column 10000000000000001 = 10000000000000002 ∧
    column 9999999999999999 = 9999999999999998 := by
  decide +kernel

end WezuBackend.Core.Floats
