import WezuBackend.Lib.Tables

/-!
# Tables rewritten row by row

`Rewrites t t' f`: the second table has the rows of the first, each rewritten by `f`.  What a write
does to every row is what `f` does (`Rewrites.forall_mem`), and writes one after the other rewrite
by the composition (`Rewrites.trans`).
-/

namespace WezuBackend.Lib.RowMaps

open Lib.Tables

variable {α κ : Type} [Row α κ] [DecidableEq κ]

/-- The rows of `t'` are those of `t` rewritten by `f`. -/
def Rewrites (t t' : Table α) (f : α → α) : Prop := ∀ k, t'.get? k = (t.get? k).map f

theorem rewrites_refl (t : Table α) : Rewrites t t id := fun _ => Option.map_id'.symm

theorem Rewrites.trans {t t' t'' : Table α} {f g : α → α} (h : Rewrites t t' f)
    (h' : Rewrites t' t'' g) : Rewrites t t'' (g ∘ f) := by
  intro k
  rw [h' k, h k, Option.map_map]

variable {t t' : Table α}

theorem Rewrites.congr {f g : α → α} (h : Rewrites t t' f)
    (hfg : ∀ r ∈ t, f r = g r) : Rewrites t t' g := by
  intro k
  rw [h k]
  rcases hk : t.get? k with _ | r
  · rfl
  · have hr : r ∈ t := (Table.get?_eq_some.mp hk).1
    rw [Option.map_some, Option.map_some, hfg r hr]

theorem rewrites_set (t : Table α) (y : α) :
    Rewrites t (t.set y) fun x => if Row.key x = Row.key y then y else x := by
  intro k
  rw [Table.get?_set]

variable {f : α → α}

theorem Rewrites.key_eq (h : Rewrites t t' f) {r : α} (hr : r ∈ t) :
    Row.key (f r) = Row.key r := by
  have hget : t'.get? (Row.key r) = some (f r) := by
    rw [h, Table.get?_of_mem hr, Option.map_some]
  exact (Table.get?_eq_some.mp hget).2

theorem Rewrites.mem_iff (h : Rewrites t t' f) {x : α} :
    x ∈ t' ↔ ∃ r ∈ t, f r = x := by
  constructor
  · intro hx
    have hget := Table.get?_of_mem hx
    rw [h] at hget
    obtain ⟨r, hr, rfl⟩ := Option.map_eq_some_iff.mp hget
    exact ⟨r, (Table.get?_eq_some.mp hr).1, rfl⟩
  · rintro ⟨r, hr, rfl⟩
    have hget : t'.get? (Row.key r) = some (f r) := by
      rw [h, Table.get?_of_mem hr, Option.map_some]
    exact (Table.get?_eq_some.mp hget).1

theorem Rewrites.forall_mem (h : Rewrites t t' f) {P : α → Prop} :
    (∀ x ∈ t', P x) ↔ ∀ r ∈ t, P (f r) := by
  constructor
  · exact fun hall r hr => hall _ (h.mem_iff.mpr ⟨r, hr, rfl⟩)
  · intro hall x hx
    obtain ⟨r, hr, rfl⟩ := h.mem_iff.mp hx
    exact hall r hr

/-- A property that rows have under their keys survives a rewrite exactly if every row keeps it. -/
theorem Rewrites.kept_iff (h : Rewrites t t' f) {P : α → Prop} :
    (∀ k, (∃ r, t.get? k = some r ∧ P r) → ∃ r, t'.get? k = some r ∧ P r) ↔
      ∀ r ∈ t, P r → P (f r) := by
  constructor
  · intro hall r hr hP
    obtain ⟨r', hr', hP'⟩ := hall (Row.key r) ⟨r, Table.get?_of_mem hr, hP⟩
    rw [h, Table.get?_of_mem hr, Option.map_some] at hr'
    cases hr'
    exact hP'
  · rintro hall k ⟨r, hr, hP⟩
    refine ⟨f r, ?_, hall r (Table.get?_eq_some.mp hr).1 hP⟩
    rw [h, hr, Option.map_some]

end WezuBackend.Lib.RowMaps
