import WezuBackend.Core.Text
import Mathlib.Data.List.DropRight

/-!
# Letter case

Serials are kept stripped and in upper case, and are looked up with the database's `upper(...)`.
`Casing` is what the two functions are relied on for: `normal` is idempotent (`normal_normal`), and
the database leaves what Python put in upper case as it is.  On ASCII texts both are `Char.toUpper`.
-/

namespace WezuBackend.Core.Letters

open Core.Text

/-- Python's `str.upper` and the `upper` of the database. -/
class Casing where
  /-- `str.upper` -/
  upper : String → String
  /-- `upper(...)` in SQL -/
  sqlUpper : String → String
  upper_upper : ∀ s, upper (upper s) = upper s
  strip_upper : ∀ s, strip (upper (strip s)) = upper (strip s)
  sqlUpper_upper : ∀ s, sqlUpper (upper s) = upper s

export Casing (upper sqlUpper)

section

variable [Casing]

/-- `raw.strip().upper()`. -/
def normal (raw : String) : String := upper (strip raw)

@[simp] theorem normal_normal (s : String) : normal (normal s) = normal s := by
  unfold normal
  rw [Casing.strip_upper, Casing.upper_upper]

@[simp] theorem sqlUpper_normal (s : String) : sqlUpper (normal s) = normal s :=
  Casing.sqlUpper_upper _

/-- A text of the capital letters `A` to `Z`. -/
def IsCapital (s : String) : Prop := ∀ c ∈ s.toList, 65 ≤ c.toNat ∧ c.toNat ≤ 90

instance (s : String) : Decidable (IsCapital s) :=
  List.decidableBAll (fun c : Char => 65 ≤ c.toNat ∧ c.toNat ≤ 90) s.toList

/-- `str.upper` leaves capital letters alone. -/
class Capitals [Casing] : Prop where
  upper_capital : ∀ s, IsCapital s → upper s = s

theorem normal_capital [Capitals] {s : String} (h : IsCapital s) (hstrip : strip s = s) :
    normal s = s := by
  unfold normal
  rw [hstrip, Capitals.upper_capital s h]

end

/-! ## ASCII -/

theorem toNat_toUpper (c : Char) :
    c.toUpper.toNat = if 97 ≤ c.toNat ∧ c.toNat ≤ 122 then c.toNat - 32 else c.toNat := by
  have ha : 'a'.val.toNat = 97 := by decide
  have hz : 'z'.val.toNat = 122 := by decide
  have hiff : ('a'.val ≤ c.val ∧ c.val ≤ 'z'.val) ↔ (97 ≤ c.toNat ∧ c.toNat ≤ 122) := by
    rw [UInt32.le_iff_toNat_le, UInt32.le_iff_toNat_le, ha, hz]
    rfl
  unfold Char.toUpper
  by_cases h : 97 ≤ c.toNat ∧ c.toNat ≤ 122
  · rw [dif_pos (hiff.mpr h), if_pos h]
    show (c.val + ('A'.val - 'a'.val)).toNat = _
    have hshift : ('A'.val - 'a'.val).toNat = 2 ^ 32 - 32 := by decide
    have hc : c.val.toNat = c.toNat := rfl
    rw [UInt32.toNat_add, hshift, hc]
    omega
  · rw [dif_neg fun hlower => h (hiff.mp hlower), if_neg h]

theorem toUpper_toUpper (c : Char) : c.toUpper.toUpper = c.toUpper := by
  have h : c.toUpper.toUpper.toNat = c.toUpper.toNat := by
    rw [toNat_toUpper c.toUpper, if_neg]
    rw [toNat_toUpper c]
    split_ifs <;> omega
  exact Char.ext (UInt32.toNat_inj.mp h)

theorem toNat_toLower (c : Char) :
    c.toLower.toNat = if 65 ≤ c.toNat ∧ c.toNat ≤ 90 then c.toNat + 32 else c.toNat := by
  have hA : 'A'.val.toNat = 65 := by decide
  have hZ : 'Z'.val.toNat = 90 := by decide
  have hiff : ('A'.val ≤ c.val ∧ c.val ≤ 'Z'.val) ↔ (65 ≤ c.toNat ∧ c.toNat ≤ 90) := by
    rw [UInt32.le_iff_toNat_le, UInt32.le_iff_toNat_le, hA, hZ]
    rfl
  unfold Char.toLower
  by_cases h : 65 ≤ c.toNat ∧ c.toNat ≤ 90
  · rw [dif_pos (hiff.mpr h), if_pos h]
    show (c.val + ('a'.val - 'A'.val)).toNat = _
    have hshift : ('a'.val - 'A'.val).toNat = 32 := by decide
    have hc : c.val.toNat = c.toNat := rfl
    rw [UInt32.toNat_add, hshift, hc]
    omega
  · rw [dif_neg fun hupper => h (hiff.mp hupper), if_neg h]

theorem toLower_toLower (c : Char) : c.toLower.toLower = c.toLower := by
  have h : c.toLower.toLower.toNat = c.toLower.toNat := by
    rw [toNat_toLower c.toLower, if_neg]
    rw [toNat_toLower c]
    split_ifs <;> omega
  exact Char.ext (UInt32.toNat_inj.mp h)

theorem eq_of_toLower {c d : Char} (h : c.toLower = d) (hd : d.toNat < 97) : c = d := by
  have hc := toNat_toLower c
  rw [h] at hc
  split_ifs at hc
  · omega
  · exact Char.ext (UInt32.toNat_inj.mp hc.symm)

theorem isSpace_of_letter {c : Char} (h : 65 ≤ c.toNat) (h' : c.toNat ≤ 122) :
    isSpace c = false := by
  unfold isSpace
  rw [decide_eq_false_iff_not]
  omega

theorem isSpace_toUpper (c : Char) : isSpace c.toUpper = isSpace c := by
  have hupper := toNat_toUpper c
  by_cases h : 97 ≤ c.toNat ∧ c.toNat ≤ 122
  · rw [if_pos h] at hupper
    rw [isSpace_of_letter (by omega) (by omega), isSpace_of_letter (by omega) (by omega)]
  · rw [if_neg h] at hupper
    unfold isSpace
    rw [hupper]

theorem isSpace_toLower (c : Char) : isSpace c.toLower = isSpace c := by
  have hlower := toNat_toLower c
  by_cases h : 65 ≤ c.toNat ∧ c.toNat ≤ 90
  · rw [if_pos h] at hlower
    rw [isSpace_of_letter (by omega) (by omega), isSpace_of_letter (by omega) (by omega)]
  · rw [if_neg h] at hlower
    unfold isSpace
    rw [hlower]

variable {f : Char → Char}

theorem rstrip_map (hf : ∀ c, isSpace (f c) = isSpace c) (cs : List Char) :
    rstrip (cs.map f) = (rstrip cs).map f := by
  have hcomp : isSpace ∘ f = isSpace := funext hf
  unfold rstrip
  rw [← List.map_reverse, List.dropWhile_map, hcomp, List.map_reverse]

/-- A text that does not start with a blank still does not once its end is stripped. -/
theorem dropWhile_rstrip (cs : List Char) :
    (rstrip (cs.dropWhile isSpace)).dropWhile isSpace = rstrip (cs.dropWhile isSpace) := by
  rw [List.dropWhile_eq_self_iff]
  intro hlen hspace
  have hrstrip : rstrip (cs.dropWhile isSpace) <+: cs.dropWhile isSpace :=
    List.rdropWhile_prefix isSpace _
  have hlen' : 0 < (cs.dropWhile isSpace).length := lt_of_lt_of_le hlen hrstrip.length_le
  rw [hrstrip.getElem hlen] at hspace
  have hself := List.dropWhile_eq_self_iff.mp (List.dropWhile_idempotent isSpace cs) hlen'
  exact hself hspace

theorem rstrip_rstrip (cs : List Char) : rstrip (rstrip cs) = rstrip cs :=
  List.rdropWhile_idempotent isSpace cs

@[simp] theorem strip_strip (s : String) : strip (strip s) = strip s := by
  unfold strip
  rw [String.toList_ofList, dropWhile_rstrip, rstrip_rstrip]

/-- A text without blanks at its start has none after its characters are replaced by others that are
not blanks. -/
theorem dropWhile_map_of_fixed (hf : ∀ c, isSpace c = false → isSpace (f c) = false)
    {cs : List Char} (h : cs.dropWhile isSpace = cs) :
    (cs.map f).dropWhile isSpace = cs.map f := by
  rcases cs with _ | ⟨c, cs⟩
  · rfl
  · have hc : isSpace c = false := by
      have hself := List.dropWhile_eq_self_iff.mp h (Nat.zero_lt_succ _)
      simpa using hself
    exact dropWhile_of_head fun x hx => (Option.some.inj hx) ▸ hf c hc

theorem rstrip_map_of_fixed (hf : ∀ c, isSpace c = false → isSpace (f c) = false)
    {cs : List Char} (h : rstrip cs = cs) : rstrip (cs.map f) = cs.map f := by
  have hreverse : cs.reverse.dropWhile isSpace = cs.reverse := by
    rw [← List.reverse_inj, List.reverse_reverse]
    exact h
  unfold rstrip
  rw [← List.map_reverse, dropWhile_map_of_fixed hf hreverse, List.map_reverse,
    List.reverse_reverse]

def asciiUpper (s : String) : String := String.ofList (s.toList.map Char.toUpper)

/-- Both are ASCII's. -/
instance ascii : Casing where
  upper := asciiUpper
  sqlUpper := asciiUpper
  upper_upper s := by
    simp [asciiUpper, Function.comp_def, toUpper_toUpper]
  strip_upper s := by
    have hmap : ∀ cs : List Char, (cs.map Char.toUpper).dropWhile isSpace =
        (cs.dropWhile isSpace).map Char.toUpper := by
      intro cs
      have hcomp : isSpace ∘ Char.toUpper = isSpace := funext isSpace_toUpper
      rw [List.dropWhile_map, hcomp]
    simp only [asciiUpper, strip, String.toList_ofList]
    rw [hmap, rstrip_map isSpace_toUpper, dropWhile_rstrip, rstrip_rstrip]
  sqlUpper_upper s := by
    simp [asciiUpper, Function.comp_def, toUpper_toUpper]

/-- `str.upper` is ASCII's on ASCII texts. -/
class AsciiUpper [Casing] : Prop where
  upper_ascii : ∀ s : String, (∀ c ∈ s.toList, c.toNat < 128) → upper s = asciiUpper s

instance asciiUpper_ascii : @AsciiUpper ascii where
  upper_ascii _ _ := rfl

instance capitals : @Capitals ascii where
  upper_capital s h := by
    have hmap : s.toList.map Char.toUpper = s.toList.map id := by
      refine List.map_congr_left fun c hc => Char.ext (UInt32.toNat_inj.mp ?_)
      obtain ⟨h65, h90⟩ := h c hc
      have hupper := toNat_toUpper c
      rw [if_neg (by omega)] at hupper
      exact hupper
    show asciiUpper s = s
    rw [asciiUpper, hmap, List.map_id, String.ofList_toList]

example : normal " b-07\n" = "B-07" := by decide

end WezuBackend.Core.Letters
