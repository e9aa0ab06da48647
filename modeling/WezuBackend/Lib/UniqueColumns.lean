import WezuBackend.Lib.Tables

/-!
# Unique columns

A column of a table, or a combination of columns, is a function of the row.  It is unique if no two
rows have the same value (`UniqueOn`).  A replacement that keeps the value of the row keeps the
column unique (`UniqueOn.set`), and so does a new row with a new value (`UniqueOn.add`); the rows
with one value are none or one (`UniqueOn.filter_eq`, `UniqueOn.find?_eq`).
-/

namespace WezuBackend.Lib.Tables

variable {α κ β : Type} [Row α κ]

/-- No two rows have the same value in the column. -/
def Table.UniqueOn (t : Table α) (column : α → β) : Prop :=
  ∀ x ∈ t, ∀ y ∈ t, column x = column y → x = y

namespace Table.UniqueOn

variable {t : Table α} {column : α → β}

theorem empty : (Table.empty : Table α).UniqueOn column :=
  fun x hx => absurd hx (Table.not_mem_empty x)

theorem filter_eq [DecidableEq β] (h : t.UniqueOn column) {r : α} (hr : r ∈ t) :
    (t.filter fun x => column x = column r) = [r] := by
  have hmem : r ∈ t.filter fun x => column x = column r :=
    Table.mem_filter.mpr ⟨hr, decide_eq_true rfl⟩
  have hle : (t.filter fun x => column x = column r).length ≤ 1 := by
    refine Table.length_filter_le_one fun x hx y hy hpx hpy => h x hx y hy ?_
    exact (of_decide_eq_true hpx).trans (of_decide_eq_true hpy).symm
  rcases hrows : t.filter fun x => column x = column r with _ | ⟨x, _ | ⟨y, l⟩⟩
  · rw [hrows] at hmem
    cases hmem
  · rw [hrows, List.mem_singleton] at hmem
    rw [hmem]
  · rw [hrows] at hle
    simp at hle

theorem find?_eq [DecidableEq β] (h : t.UniqueOn column) {r : α} (hr : r ∈ t) :
    (t.find? fun x => column x = column r) = some r := by
  rcases hfound : t.find? fun x => column x = column r with _ | x
  · have hno := Table.find?_eq_none.mp hfound r hr
    simp at hno
  · have hsame := Table.find?_prop hfound
    rw [h x (Table.find?_mem hfound) r hr (of_decide_eq_true hsame)]

variable [DecidableEq κ]

/-- **A replacement** with the value of the row that it replaces. -/
theorem set (h : t.UniqueOn column) {r r' : α} (hr : r ∈ t) (hkey : Row.key r' = Row.key r)
    (hvalue : column r' = column r) : (t.set r').UniqueOn column := by
  have hother : ∀ x ∈ t, Row.key x ≠ Row.key r' → column x ≠ column r' := by
    intro x hx hne hsame
    rw [h x hx r hr (hsame.trans hvalue)] at hne
    exact hne hkey.symm
  intro x hx y hy hxy
  rcases Table.mem_set.mp hx with ⟨hxt, hxkey⟩ | ⟨hxr, -⟩ <;>
    rcases Table.mem_set.mp hy with ⟨hyt, hykey⟩ | ⟨hyr, -⟩
  · exact h x hxt y hyt hxy
  · subst hyr
    exact absurd hxy (hother x hxt hxkey)
  · subst hxr
    exact absurd hxy.symm (hother y hyt hykey)
  · rw [hxr, hyr]

end Table.UniqueOn

/-- **A new row** with a new value. -/
theorem Table.UniqueOn.add {α : Type} [Row α ℕ] {t : Table α} {column : α → β}
    (h : t.UniqueOn column) {mk : ℕ → α} {hmk : ∀ k, Row.key (mk k) = k}
    (hnew : ∀ x ∈ t, column x ≠ column (mk t.freshKey)) : (t.add mk hmk).UniqueOn column := by
  intro x hx y hy hxy
  rcases Table.mem_add.mp hx with hxt | rfl <;> rcases Table.mem_add.mp hy with hyt | rfl
  · exact h x hxt y hyt hxy
  · exact absurd hxy (hnew x hxt)
  · exact absurd hxy.symm (hnew y hyt)
  · rfl

end WezuBackend.Lib.Tables
