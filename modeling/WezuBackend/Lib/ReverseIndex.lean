import WezuBackend.Lib.Tables
import Mathlib.Data.Finset.Insert
import Mathlib.Data.Finset.Erase

/-!
# Reverse indexes

A table of entries that have an owner, and beside it a dictionary from each owner to the set of the
keys of its entries.  What the dictionary should be is a function of the table (`indexOf`), without
empty sets, and each write to the table has the write to the dictionary that follows it
(`discard_indexOf`, `add_indexOf`, `update_indexOf`).
-/

namespace WezuBackend.Lib.ReverseIndex

open Lib.Tables

variable {α κ υ : Type} [Row α κ] [DecidableEq κ] [DecidableEq υ]

def keysOf (owner : α → υ) (t : Table α) (u : υ) : Finset κ :=
  ((t.filter fun e => owner e = u).map Row.key).toFinset

/-- A set, unless it is empty. -/
def nonEmpty (keys : Finset κ) : Option (Finset κ) := if keys = ∅ then none else some keys

def indexOf (owner : α → υ) (t : Table α) : υ → Option (Finset κ) :=
  fun u => nonEmpty (keysOf owner t u)

/-- Take a key out of the set of an owner; an emptied set goes. -/
def discard (index : υ → Option (Finset κ)) (u : υ) (k : κ) : υ → Option (Finset κ) :=
  match index u with
  | none => index
  | some keys =>
    if keys = ∅ then index else Function.update index u (nonEmpty (keys.erase k))

/-- Put a key into the set of an owner. -/
def add (index : υ → Option (Finset κ)) (u : υ) (k : κ) : υ → Option (Finset κ) :=
  Function.update index u (some (insert k ((index u).getD ∅)))

variable {owner : α → υ} {t : Table α}

@[simp] theorem getD_nonEmpty (keys : Finset κ) : (nonEmpty keys).getD ∅ = keys := by
  unfold nonEmpty
  split_ifs with h
  · exact h.symm
  · rfl

variable {u : υ}

theorem mem_keysOf {k : κ} :
    k ∈ keysOf owner t u ↔ ∃ e ∈ t, Row.key e = k ∧ owner e = u := by
  simp only [keysOf, List.mem_toFinset, List.mem_map, Table.mem_filter, decide_eq_true_eq]
  constructor
  · rintro ⟨e, ⟨he, howner⟩, hk⟩
    exact ⟨e, he, hk, howner⟩
  · rintro ⟨e, he, hk, howner⟩
    exact ⟨e, ⟨he, howner⟩, hk⟩

/-- **What the index of a table has**: for each owner the keys of its entries, if there are any. -/
theorem indexOf_eq_some {keys : Finset κ} : indexOf owner t u = some keys ↔
    keys ≠ ∅ ∧ ∀ k, k ∈ keys ↔ ∃ e ∈ t, Row.key e = k ∧ owner e = u := by
  unfold indexOf nonEmpty
  constructor
  · intro h
    split_ifs at h with hempty
    obtain rfl := Option.some.inj h
    exact ⟨hempty, fun k => mem_keysOf⟩
  · rintro ⟨hne, hkeys⟩
    have heq : keysOf owner t u = keys := by
      ext k
      rw [mem_keysOf, hkeys]
    rw [heq, if_neg hne]

theorem indexOf_empty : indexOf owner (.empty : Table α) = fun _ => none := by
  funext u
  rfl

theorem indexOf_congr {t' : Table α}
    (h : ∀ k, (∃ e ∈ t, Row.key e = k ∧ owner e = u) ↔ ∃ e ∈ t', Row.key e = k ∧ owner e = u) :
    indexOf owner t u = indexOf owner t' u := by
  have heq : keysOf owner t u = keysOf owner t' u := by
    ext k
    rw [mem_keysOf, mem_keysOf, h]
  unfold indexOf
  rw [heq]

/-- **An entry is deleted**, and its key is taken out of the set of its owner. -/
theorem discard_indexOf {e : α} (he : e ∈ t) :
    discard (indexOf owner t) (owner e) (Row.key e) = indexOf owner (t.erase (Row.key e)) := by
  have hmem : Row.key e ∈ keysOf owner t (owner e) := mem_keysOf.mpr ⟨e, he, rfl, rfl⟩
  have hne : keysOf owner t (owner e) ≠ ∅ := Finset.ne_empty_of_mem hmem
  have hsome : indexOf owner t (owner e) = some (keysOf owner t (owner e)) := if_neg hne
  have herase : (keysOf owner t (owner e)).erase (Row.key e) =
      keysOf owner (t.erase (Row.key e)) (owner e) := by
    ext k
    simp only [Finset.mem_erase, mem_keysOf, Table.mem_erase]
    constructor
    · rintro ⟨hk, x, hx, rfl, howner⟩
      exact ⟨x, ⟨hx, hk⟩, rfl, howner⟩
    · rintro ⟨x, ⟨hx, hk⟩, rfl, howner⟩
      exact ⟨hk, x, hx, rfl, howner⟩
  funext u
  unfold discard
  rw [hsome]
  dsimp only
  rw [if_neg hne, herase]
  by_cases hu : u = owner e
  · rw [hu, Function.update_self]
    rfl
  · rw [Function.update_of_ne hu]
    refine indexOf_congr fun k => ?_
    simp only [Table.mem_erase]
    constructor
    · rintro ⟨x, hx, rfl, rfl⟩
      -- an entry of another owner is another entry
      have hkey : Row.key x ≠ Row.key e := fun hkey => hu (by rw [Table.eq_of_key hx he hkey])
      exact ⟨x, ⟨hx, hkey⟩, rfl, rfl⟩
    · rintro ⟨x, ⟨hx, -⟩, rfl, rfl⟩
      exact ⟨x, hx, rfl, rfl⟩

/-- **An entry is stored** whose key is in no set, and its key is put into the set of its owner. -/
theorem add_indexOf (e : α) :
    add (indexOf owner (t.erase (Row.key e))) (owner e) (Row.key e) = indexOf owner (t.put e) := by
  funext u
  unfold add
  by_cases hu : u = owner e
  · subst hu
    rw [Function.update_self]
    refine (indexOf_eq_some.mpr ⟨Finset.insert_ne_empty _ _, fun k => ?_⟩).symm
    have hgetD : (indexOf owner (t.erase (Row.key e)) (owner e)).getD ∅ =
        keysOf owner (t.erase (Row.key e)) (owner e) := getD_nonEmpty _
    rw [hgetD, Finset.mem_insert, mem_keysOf]
    simp only [Table.mem_erase, Table.mem_put]
    constructor
    · rintro (rfl | ⟨x, hx, rfl, howner⟩)
      · exact ⟨e, .inl rfl, rfl, rfl⟩
      · exact ⟨x, .inr hx, rfl, howner⟩
    · rintro ⟨x, rfl | hx, rfl, howner⟩
      · exact .inl rfl
      · exact .inr ⟨x, hx, rfl, howner⟩
  · rw [Function.update_of_ne hu]
    refine indexOf_congr fun k => ?_
    simp only [Table.mem_erase, Table.mem_put]
    constructor
    · rintro ⟨x, hx, rfl, rfl⟩
      exact ⟨x, .inr hx, rfl, rfl⟩
    · rintro ⟨x, rfl | hx, rfl, rfl⟩
      · exact absurd rfl hu
      · exact ⟨x, hx, rfl, rfl⟩

theorem mem_getD_indexOf {e : α} (he : e ∈ t) :
    Row.key e ∈ (indexOf owner t u).getD ∅ ↔ owner e = u := by
  have hgetD : (indexOf owner t u).getD ∅ = keysOf owner t u := getD_nonEmpty _
  rw [hgetD, mem_keysOf]
  constructor
  · rintro ⟨x, hx, hkey, rfl⟩
    rw [Table.eq_of_key hx he hkey]
  · rintro rfl
    exact ⟨e, he, rfl, rfl⟩

/-- **The entries of an owner are deleted**, and its set goes. -/
theorem update_indexOf (u : υ) : Function.update (indexOf owner t) u none =
    indexOf owner (t.deleteWhere fun e => Row.key e ∈ (indexOf owner t u).getD ∅) := by
  have hmem : ∀ e, e ∈ t.deleteWhere (fun e => Row.key e ∈ (indexOf owner t u).getD ∅) ↔
      e ∈ t ∧ owner e ≠ u := by
    intro e
    rw [Table.mem_deleteWhere, decide_eq_false_iff_not]
    exact and_congr_right fun he => not_congr (mem_getD_indexOf he)
  funext v
  by_cases hv : v = u
  · subst hv
    rw [Function.update_self]
    symm
    rw [Option.eq_none_iff_forall_ne_some]
    intro keys hkeys
    obtain ⟨hne, hiff⟩ := indexOf_eq_some.mp hkeys
    obtain ⟨k, hk⟩ := Finset.nonempty_iff_ne_empty.mpr hne
    obtain ⟨e, he, -, howner⟩ := (hiff k).mp hk
    exact ((hmem e).mp he).2 howner
  · rw [Function.update_of_ne hv]
    refine indexOf_congr fun k => ?_
    constructor
    · rintro ⟨x, hx, rfl, rfl⟩
      exact ⟨x, (hmem x).mpr ⟨hx, hv⟩, rfl, rfl⟩
    · rintro ⟨x, hx, rfl, rfl⟩
      exact ⟨x, ((hmem x).mp hx).1, rfl, rfl⟩

end WezuBackend.Lib.ReverseIndex
