import Mathlib.Algebra.BigOperators.Group.List.Basic
import Mathlib.Algebra.Ring.Int.Defs
import Mathlib.Data.List.Nodup

/-!
# Keyed tables

A table is a list of rows in insertion order with pairwise different keys; the keys' being
different is a field, so a table with two rows of one key cannot be built.  A row is added at the
end (`insert`, `add` under a fresh numeric key), replaced in place (`set`, `update`) and deleted
(`erase`).

* look-up by key: `get?_eq_some`, `get?_set_self`, `get?_set_ne`, `get?_add`;
* membership after each operation: `mem_add`, `mem_set`, `mem_erase`;
* the first row with a property: `find?_add`, `find?_set`;
* sums over the rows: `sum_add`, `sum_set`, and from them what a write changes.
-/

namespace WezuBackend.Lib.Tables

/-- The amounts of the entries of one kind, if there is at most one. -/
theorem sum_filter_le {α β : Type} [DecidableEq β] {f : α → Option β} {amount : α → ℤ} {k : β}
    {l : List α} {b : ℤ} (hl : (l.filterMap f).Nodup) (hb : 0 ≤ b)
    (h : ∀ x ∈ l, f x = some k → amount x ≤ b) :
    ((l.filter fun x => f x = some k).map amount).sum ≤ b := by
  induction l with
  | nil => exact hb
  | cons x l ih =>
    have hrest := fun y hy => h y (List.mem_cons_of_mem _ hy)
    by_cases hx : f x = some k
    · rw [List.filterMap_cons_some hx, List.nodup_cons] at hl
      have hnone : l.filter (fun y => f y = some k) = [] := by
        refine List.filter_eq_nil_iff.mpr fun y hy hyk => hl.1 ?_
        exact List.mem_filterMap.mpr ⟨y, hy, of_decide_eq_true hyk⟩
      rw [List.filter_cons_of_pos (p := fun y => decide (f y = some k)) (decide_eq_true hx), hnone,
        List.map_singleton, List.sum_singleton]
      exact h x List.mem_cons_self hx
    · have hl' : (l.filterMap f).Nodup := hl.sublist ((List.sublist_cons_self x l).filterMap f)
      rw [List.filter_cons_of_neg (p := fun y => decide (f y = some k))
        (by rwa [decide_eq_true_eq])]
      exact ih hl' hrest

/-- The primary key of a row. -/
class Row (α : Type) (κ : outParam Type) where
  key : α → κ

/-- A table of rows with pairwise different keys. -/
structure Table (α : Type) {κ : Type} [Row α κ] where
  rows : List α
  nodup : (rows.map Row.key).Nodup

namespace Table

variable {α κ : Type} [Row α κ]

instance : Membership α (Table α) := ⟨fun t r => r ∈ t.rows⟩

theorem mem_def {t : Table α} {r : α} : r ∈ t ↔ r ∈ t.rows := Iff.rfl

instance {t : Table α} {p : α → Prop} [DecidablePred p] : Decidable (∀ r ∈ t, p r) :=
  inferInstanceAs (Decidable (∀ r ∈ t.rows, p r))

instance {t : Table α} {p : α → Prop} [DecidablePred p] : Decidable (∃ r ∈ t, p r) :=
  inferInstanceAs (Decidable (∃ r ∈ t.rows, p r))

/-- The table without rows. -/
def empty : Table α := ⟨[], List.nodup_nil⟩

/-- The first row with the property. -/
def find? (t : Table α) (p : α → Bool) : Option α := t.rows.find? p

/-- The rows with the property. -/
def filter (t : Table α) (p : α → Bool) : List α := t.rows.filter p

/-- The sum of `f` over the rows. -/
def sum (t : Table α) (f : α → ℤ) : ℤ := (t.rows.map f).sum

@[simp] theorem not_mem_empty (r : α) : ¬ r ∈ (empty : Table α) := List.not_mem_nil

theorem eq_of_key {t : Table α} {r r' : α} (hr : r ∈ t) (hr' : r' ∈ t)
    (h : Row.key r = Row.key r') : r = r' :=
  List.inj_on_of_nodup_map t.nodup hr hr' h

theorem find?_mem {t : Table α} {p : α → Bool} {r : α} (h : t.find? p = some r) : r ∈ t :=
  List.mem_of_find?_eq_some h

theorem find?_prop {t : Table α} {p : α → Bool} {r : α} (h : t.find? p = some r) : p r = true :=
  List.find?_some h

theorem find?_spec {t : Table α} {P : α → Prop} [DecidablePred P] {r : α}
    (h : t.find? (fun r => decide (P r)) = some r) : r ∈ t ∧ P r := by
  have hprop := find?_prop h
  exact ⟨find?_mem h, of_decide_eq_true hprop⟩

theorem find?_eq_none {t : Table α} {p : α → Bool} :
    t.find? p = none ↔ ∀ r ∈ t, p r = false := by
  simp [find?, mem_def]

theorem mem_filter {t : Table α} {p : α → Bool} {r : α} :
    r ∈ t.filter p ↔ r ∈ t ∧ p r = true := List.mem_filter

theorem sum_congr {t : Table α} {f g : α → ℤ} (h : ∀ r ∈ t, f r = g r) : t.sum f = t.sum g := by
  unfold sum
  rw [List.map_congr_left h]

theorem sum_eq_zero {t : Table α} {f : α → ℤ} (h : ∀ r ∈ t, f r = 0) : t.sum f = 0 := by
  rw [sum_congr (g := fun _ => 0) h]
  simp [sum]

theorem sum_add_distrib (t : Table α) (f g : α → ℤ) :
    (t.sum fun r => f r + g r) = t.sum f + t.sum g := by
  unfold sum
  exact List.sum_map_add

theorem sum_filter (t : Table α) (p : α → Prop) [DecidablePred p] (f : α → ℤ) :
    ((t.filter fun r => p r).map f).sum = t.sum fun r => if p r then f r else 0 := by
  unfold filter sum
  induction t.rows with
  | nil => rfl
  | cons r rows ih =>
    rw [List.map_cons, List.sum_cons, ← ih]
    by_cases hr : p r
    · rw [List.filter_cons_of_pos (p := fun r => decide (p r)) (decide_eq_true hr), if_pos hr,
        List.map_cons, List.sum_cons]
    · rw [List.filter_cons_of_neg (p := fun r => decide (p r)) (by rwa [decide_eq_true_eq]),
        if_neg hr, zero_add]

/-! ## Rows with a property that at most one row has -/

def Unique (t : Table α) (p : α → Prop) : Prop := ∀ x ∈ t, ∀ y ∈ t, p x → p y → x = y

theorem length_filter_le_one {t : Table α} {p : α → Bool} (h : t.Unique fun r => p r) :
    (t.filter p).length ≤ 1 := by
  have hnodup : (t.filter p).Nodup := (List.Nodup.of_map _ t.nodup).filter _
  rcases hl : t.filter p with _ | ⟨x, _ | ⟨y, l⟩⟩
  · exact Nat.zero_le _
  · exact Nat.le_refl _
  · have hx : x ∈ t.filter p := by simp [hl]
    have hy : y ∈ t.filter p := by simp [hl]
    rw [hl, List.nodup_cons] at hnodup
    rw [mem_filter] at hx hy
    rw [h x hx.1 y hy.1 hx.2 hy.2] at hnodup
    exact absurd List.mem_cons_self hnodup.1

/-- A sum over the rows with such a property is bounded by what bounds one summand. -/
theorem sum_le_of_unique {t : Table α} {p : α → Prop} [DecidablePred p] {f : α → ℤ} {b : ℤ}
    (h : t.Unique p) (hf : ∀ x ∈ t, p x → f x ≤ b) (hb : 0 ≤ b) :
    (t.sum fun x => if p x then f x else 0) ≤ b := by
  by_cases hex : ∃ x ∈ t, p x
  · obtain ⟨x, hx, hpx⟩ := hex
    obtain ⟨l, l', hl⟩ := List.append_of_mem hx
    have hother : ∀ y ∈ l ++ l', (if p y then f y else 0) = 0 := by
      intro y hy
      have hty : y ∈ t := by
        rw [mem_def, hl]
        rw [List.mem_append] at hy
        simp only [List.mem_append, List.mem_cons]
        tauto
      refine if_neg fun hpy => ?_
      have hyx := h y hty x hx hpy hpx
      have hnodup : t.rows.Nodup := List.Nodup.of_map _ t.nodup
      rw [hl, List.nodup_middle, List.nodup_cons] at hnodup
      exact hnodup.1 (hyx ▸ hy)
    have hl₀ : (l.map fun y => if p y then f y else 0) = l.map fun _ => 0 :=
      List.map_congr_left fun y hy => hother y (List.mem_append_left _ hy)
    have hl₁ : (l'.map fun y => if p y then f y else 0) = l'.map fun _ => 0 :=
      List.map_congr_left fun y hy => hother y (List.mem_append_right _ hy)
    have hfx := hf x hx hpx
    simpa [sum, hl, hl₀, hl₁, hpx] using hfx
  · refine (sum_eq_zero fun x hx => ?_).trans_le hb
    exact if_neg fun hpx => hex ⟨x, hx, hpx⟩

/-- Add a row at the end; its key must be new. -/
def insert (t : Table α) (r : α) (h : ∀ x ∈ t, Row.key x ≠ Row.key r) : Table α where
  rows := t.rows ++ [r]
  nodup := by
    rw [List.map_append, List.nodup_append]
    refine ⟨t.nodup, by simp, ?_⟩
    rintro _ hk _ hk' rfl
    obtain ⟨x, hx, hxk⟩ := List.mem_map.mp hk
    simp only [List.map_cons, List.map_nil, List.mem_singleton] at hk'
    exact h x hx (hxk.trans hk')

theorem mem_insert {t : Table α} {r : α} {h : ∀ x ∈ t, Row.key x ≠ Row.key r} {x : α} :
    x ∈ t.insert r h ↔ x ∈ t ∨ x = r := by
  simp [mem_def, insert]

theorem sum_insert {t : Table α} {r : α} {h : ∀ x ∈ t, Row.key x ≠ Row.key r} (f : α → ℤ) :
    (t.insert r h).sum f = t.sum f + f r := by
  simp [sum, insert]

section Keyed

variable [DecidableEq κ]

def get? (t : Table α) (k : κ) : Option α := t.find? fun r => Row.key r = k

theorem map_key_replace (l : List α) (r : α) :
    (l.map fun x => if Row.key x = Row.key r then r else x).map Row.key =
      l.map (Row.key : α → κ) := by
  rw [List.map_map]
  refine List.map_congr_left fun x _ => ?_
  simp only [Function.comp_apply]
  split_ifs with hx
  · exact hx.symm
  · rfl

/-- Replace the row with the key of `r` by `r`. -/
def set (t : Table α) (r : α) : Table α where
  rows := t.rows.map fun x => if Row.key x = Row.key r then r else x
  nodup := by
    rw [map_key_replace]
    exact t.nodup

/-- Delete the row of a key. -/
def erase (t : Table α) (k : κ) : Table α where
  rows := t.rows.filter fun x => Row.key x ≠ k
  nodup := t.nodup.sublist ((List.filter_sublist).map _)

/-- Delete the rows with a property. -/
def deleteWhere (t : Table α) (p : α → Bool) : Table α where
  rows := t.rows.filter fun x => !p x
  nodup := t.nodup.sublist ((List.filter_sublist).map _)

/-- Replace the row with the key of `r`, or add `r`. -/
def put (t : Table α) (r : α) : Table α :=
  (t.erase (Row.key r)).insert r fun x hx => by
    have hne := (List.mem_filter.mp hx).2
    simpa using hne

/-- Rewrite the rows with a property; a row keeps its key. -/
def update (t : Table α) (p : α → Bool) (f : α → α) (hf : ∀ r, Row.key (f r) = Row.key r) :
    Table α where
  rows := t.rows.map fun x => if p x then f x else x
  nodup := by
    have hkeys : (t.rows.map fun x => if p x then f x else x).map Row.key = t.rows.map Row.key := by
      rw [List.map_map]
      refine List.map_congr_left fun x _ => ?_
      dsimp only [Function.comp_apply]
      split_ifs
      · exact hf x
      · rfl
    rw [hkeys]
    exact t.nodup

omit [DecidableEq κ] in
theorem mem_update {t : Table α} {p : α → Bool} {f : α → α}
    {hf : ∀ r, Row.key (f r) = Row.key r} {x : α} :
    x ∈ t.update p f hf ↔ ∃ r ∈ t, (if p r then f r else r) = x := List.mem_map

omit [DecidableEq κ] in
theorem sum_update {t : Table α} {p : α → Bool} {f : α → α}
    (hf : ∀ r, Row.key (f r) = Row.key r) (g : α → ℤ) :
    (t.update p f hf).sum g = t.sum fun r => if p r then g (f r) else g r := by
  unfold sum update
  rw [List.map_map]
  refine congrArg List.sum (List.map_congr_left fun x _ => ?_)
  dsimp only [Function.comp_apply]
  split_ifs <;> rfl

/-- The keys of the rows, in order. -/
def keys (t : Table α) : List κ := t.rows.map Row.key

theorem keys_set (t : Table α) (r : α) : (t.set r).keys = t.keys := map_key_replace t.rows r

omit [DecidableEq κ] in
theorem mem_keys {t : Table α} {k : κ} : k ∈ t.keys ↔ ∃ r ∈ t, Row.key r = k := List.mem_map

theorem get?_eq_some {t : Table α} {k : κ} {r : α} :
    t.get? k = some r ↔ r ∈ t ∧ Row.key r = k := by
  constructor
  · intro h
    exact ⟨find?_mem h, by simpa using find?_prop h⟩
  · rintro ⟨hr, rfl⟩
    unfold get?
    rcases h : t.find? (fun x => decide (Row.key x = Row.key r)) with _ | x
    · have := find?_eq_none.mp h r hr
      simp at this
    · rw [eq_of_key (find?_mem h) hr (by simpa using find?_prop h)]

theorem get?_eq_none {t : Table α} {k : κ} : t.get? k = none ↔ ∀ r ∈ t, Row.key r ≠ k := by
  unfold get?
  rw [find?_eq_none]
  simp

theorem get?_of_mem {t : Table α} {r : α} (h : r ∈ t) : t.get? (Row.key r) = some r :=
  get?_eq_some.mpr ⟨h, rfl⟩

theorem mem_set {t : Table α} {r x : α} :
    x ∈ t.set r ↔ (x ∈ t ∧ Row.key x ≠ Row.key r) ∨ (x = r ∧ ∃ y ∈ t, Row.key y = Row.key r) := by
  simp only [mem_def, set, List.mem_map]
  constructor
  · rintro ⟨y, hy, rfl⟩
    split_ifs with h
    · exact .inr ⟨rfl, y, hy, h⟩
    · exact .inl ⟨hy, h⟩
  · rintro (⟨hx, h⟩ | ⟨rfl, y, hy, h⟩)
    · exact ⟨x, hx, if_neg h⟩
    · exact ⟨y, hy, if_pos h⟩

theorem mem_erase {t : Table α} {k : κ} {x : α} : x ∈ t.erase k ↔ x ∈ t ∧ Row.key x ≠ k := by
  simp [mem_def, erase]

omit [DecidableEq κ] in
theorem mem_deleteWhere {t : Table α} {p : α → Bool} {x : α} :
    x ∈ t.deleteWhere p ↔ x ∈ t ∧ p x = false := by
  change x ∈ t.rows.filter _ ↔ x ∈ t.rows ∧ _
  simp

theorem mem_put {t : Table α} {r x : α} :
    x ∈ t.put r ↔ x = r ∨ x ∈ t ∧ Row.key x ≠ Row.key r := by
  rw [put, mem_insert, mem_erase]
  exact or_comm

theorem set_self {t : Table α} {r : α} (h : r ∈ t) : t.set r = t := by
  have hrows : (t.rows.map fun x => if Row.key x = Row.key r then r else x) = t.rows := by
    conv_rhs => rw [← List.map_id t.rows]
    refine List.map_congr_left fun x hx => ?_
    split_ifs with hk
    · exact (eq_of_key hx h hk).symm
    · rfl
  unfold set
  congr 1

theorem get?_update {t : Table α} {p : α → Bool} {f : α → α} (hf : ∀ r, Row.key (f r) = Row.key r)
    (k : κ) : (t.update p f hf).get? k = (t.get? k).map fun r => if p r then f r else r := by
  have hkey : ((fun r => decide (Row.key r = k)) ∘ fun r : α => if p r then f r else r) =
      fun r => decide (Row.key r = k) := by
    funext r
    dsimp only [Function.comp_apply]
    split_ifs
    · rw [hf]
    · rfl
  unfold get? find? update
  rw [List.find?_map, hkey]

omit [DecidableEq κ] in
theorem filter_update {t : Table α} {p q : α → Bool} {f : α → α}
    (hf : ∀ r, Row.key (f r) = Row.key r) (h : ∀ r ∈ t, p r → q (f r) = q r) :
    (t.update p f hf).filter q = (t.filter q).map fun x => if p x then f x else x := by
  unfold filter update
  rw [List.filter_map]
  refine congrArg _ (List.filter_congr fun x hx => ?_)
  dsimp only [Function.comp_apply]
  split_ifs with hp
  · exact h x hx hp
  · rfl

theorem length_filter_set_le {t : Table α} {r : α} {p : α → Bool} (h : p r = false) :
    ((t.set r).filter p).length ≤ (t.filter p).length := by
  unfold filter set
  rw [← List.countP_eq_length_filter, ← List.countP_eq_length_filter, List.countP_map]
  refine List.countP_mono_left fun x _ hx => ?_
  dsimp only [Function.comp_apply] at hx
  split_ifs at hx
  · rw [h] at hx
    cases hx
  · exact hx

theorem filter_set {t : Table α} {r : α} {p : α → Bool}
    (h : ∀ x ∈ t, Row.key x = Row.key r → p x = p r) :
    (t.set r).filter p = (t.filter p).map fun x => if Row.key x = Row.key r then r else x := by
  unfold filter set
  rw [List.filter_map]
  refine congrArg _ (List.filter_congr fun x hx => ?_)
  dsimp only [Function.comp_apply]
  split_ifs with hk
  · exact (h x hx hk).symm
  · rfl

theorem filter_set_of_not {t : Table α} {r : α} {p : α → Bool} (hr : p r = false)
    (h : ∀ x ∈ t, Row.key x = Row.key r → p x = false) : (t.set r).filter p = t.filter p := by
  rw [filter_set fun x hx hk => (h x hx hk).trans hr.symm]
  conv_rhs => rw [← List.map_id (t.filter p)]
  refine List.map_congr_left fun x hx => if_neg fun hk => ?_
  obtain ⟨hmem, hp⟩ := mem_filter.mp hx
  rw [h x hmem hk] at hp
  cases hp

theorem filter_erase_of_not {t : Table α} {k : κ} {p : α → Bool}
    (h : ∀ x ∈ t, Row.key x = k → p x = false) : (t.erase k).filter p = t.filter p := by
  unfold filter erase
  rw [List.filter_filter]
  refine List.filter_congr fun x hx => ?_
  by_cases hk : Row.key x = k
  · rw [h x hx hk, Bool.false_and]
  · simp [hk]

theorem update_eq_set {t : Table α} {p : α → Bool} {f : α → α}
    {hf : ∀ r, Row.key (f r) = Row.key r} {r : α} (hr : r ∈ t)
    (hp : ∀ x, p x = true ↔ Row.key x = Row.key r) : t.update p f hf = t.set (f r) := by
  have hrows : (t.rows.map fun x => if p x then f x else x) =
      t.rows.map fun x => if Row.key x = Row.key (f r) then f r else x := by
    refine List.map_congr_left fun x hx => ?_
    by_cases hk : Row.key x = Row.key r
    · rw [if_pos ((hp x).mpr hk), if_pos (hk.trans (hf r).symm), eq_of_key hx hr hk]
    · rw [if_neg fun hpx => hk ((hp x).mp hpx), if_neg fun h => hk (h.trans (hf r))]
  unfold update set
  congr 1

theorem set_set {t : Table α} {r r' : α} (h : Row.key r = Row.key r') :
    (t.set r).set r' = t.set r' := by
  unfold set
  congr 1
  rw [List.map_map]
  refine List.map_congr_left fun x _ => ?_
  simp only [Function.comp_apply]
  by_cases hx : Row.key x = Row.key r
  · rw [if_pos hx, if_pos h, if_pos (hx.trans h)]
  · rw [if_neg hx]

theorem get?_set_self {t : Table α} {r old : α} (h : t.get? (Row.key r) = some old) :
    (t.set r).get? (Row.key r) = some r := by
  obtain ⟨hm, hk⟩ := get?_eq_some.mp h
  exact get?_eq_some.mpr ⟨mem_set.mpr (.inr ⟨rfl, old, hm, hk⟩), rfl⟩

theorem get?_set_ne {t : Table α} {r : α} {k : κ} (h : k ≠ Row.key r) :
    (t.set r).get? k = t.get? k := by
  refine Option.ext fun x => ?_
  simp only [get?_eq_some, mem_set]
  constructor
  · rintro ⟨⟨hx, -⟩ | ⟨rfl, -⟩, rfl⟩
    · exact ⟨hx, rfl⟩
    · exact absurd rfl h
  · rintro ⟨hx, rfl⟩
    exact ⟨.inl ⟨hx, h⟩, rfl⟩

/-- Rows are replaced one after the other. -/
def setAll (t : Table α) (rs : List α) : Table α := rs.foldl set t

theorem get?_setAll_of_not_mem {t : Table α} {rs : List α} {k : κ} (h : k ∉ rs.map Row.key) :
    (t.setAll rs).get? k = t.get? k := by
  induction rs generalizing t with
  | nil => rfl
  | cons r rs ih =>
    rw [List.map_cons, List.mem_cons, not_or] at h
    have hcons : t.setAll (r :: rs) = (t.set r).setAll rs := rfl
    rw [hcons, ih h.2, get?_set_ne h.1]

theorem get?_setAll {t : Table α} {rs : List α} (hrs : (rs.map Row.key).Nodup) {r old : α}
    (hr : r ∈ rs) (hold : t.get? (Row.key r) = some old) :
    (t.setAll rs).get? (Row.key r) = some r := by
  induction rs generalizing t old with
  | nil => cases hr
  | cons x rs ih =>
    have hcons : t.setAll (x :: rs) = (t.set x).setAll rs := rfl
    rw [List.map_cons, List.nodup_cons] at hrs
    rw [hcons]
    rcases List.mem_cons.mp hr with rfl | hr
    · rw [get?_setAll_of_not_mem hrs.1, get?_set_self hold]
    · have hne : Row.key r ≠ Row.key x := fun h => hrs.1 (h ▸ List.mem_map_of_mem hr)
      exact ih hrs.2 hr ((get?_set_ne hne).trans hold)

theorem find?_set {t : Table α} {r : α} {p : α → Bool}
    (h : ∀ x ∈ t, Row.key x = Row.key r → p x = p r) :
    (t.set r).find? p = (t.find? p).map fun x => if Row.key x = Row.key r then r else x := by
  have hl : ∀ l : List α, (∀ x ∈ l, Row.key x = Row.key r → p x = p r) →
      (l.map fun x => if Row.key x = Row.key r then r else x).find? p =
        (l.find? p).map fun x => if Row.key x = Row.key r then r else x := by
    intro l hl
    induction l with
    | nil => rfl
    | cons y ys ih =>
      have hy : p (if Row.key y = Row.key r then r else y) = p y := by
        split_ifs with hk
        · exact (hl y List.mem_cons_self hk).symm
        · rfl
      rw [List.map_cons, List.find?_cons, List.find?_cons, hy,
        ih fun x hx => hl x (List.mem_cons_of_mem _ hx)]
      cases p y <;> rfl
  exact hl t.rows h

theorem get?_set (t : Table α) (r : α) (k : κ) :
    (t.set r).get? k = (t.get? k).map fun x => if Row.key x = Row.key r then r else x :=
  find?_set fun x _ hx => by rw [hx]

theorem sum_map_replace {l : List α} (hl : (l.map Row.key).Nodup) {r old : α} (hm : old ∈ l)
    (hk : Row.key old = Row.key r) (f : α → ℤ) :
    ((l.map fun x => if Row.key x = Row.key r then r else x).map f).sum =
      (l.map f).sum - f old + f r := by
  induction l with
  | nil => cases hm
  | cons y ys ih =>
    rw [List.map_cons, List.nodup_cons] at hl
    simp only [List.map_cons, List.sum_cons]
    by_cases hy : Row.key y = Row.key r
    · have hnot : ∀ x ∈ ys, Row.key x ≠ Row.key r := fun x hx hxr =>
        hl.1 (hy ▸ hxr ▸ List.mem_map_of_mem hx)
      have hold : old = y := by
        rcases List.mem_cons.mp hm with h | h
        · exact h
        · exact absurd hk (hnot old h)
      have htail : (ys.map fun x => if Row.key x = Row.key r then r else x) = ys := by
        conv_rhs => rw [← List.map_id ys]
        exact List.map_congr_left fun x hx => if_neg (hnot x hx)
      rw [if_pos hy, htail, hold]
      omega
    · have hm' : old ∈ ys := by
        rcases List.mem_cons.mp hm with h | h
        · exact absurd (h ▸ hk) hy
        · exact h
      rw [if_neg hy, ih hl.2 hm']
      omega

/-- **What a replacement does to a sum**: the old row's summand goes, the new row's comes. -/
theorem sum_set {t : Table α} {r old : α} (h : t.get? (Row.key r) = some old) (f : α → ℤ) :
    (t.set r).sum f = t.sum f - f old + f r := by
  obtain ⟨hm, hk⟩ := get?_eq_some.mp h
  exact sum_map_replace t.nodup hm hk f

end Keyed

/-! ## Numeric keys -/

section Numbered

variable {α : Type} [Row α ℕ]

/-- The next key: one more than the largest in use. -/
def freshKey (t : Table α) : ℕ := t.rows.foldr (fun r m => max (Row.key r) m) 0 + 1

theorem key_lt_freshKey {t : Table α} {r : α} (h : r ∈ t) : Row.key r < t.freshKey := by
  have hle : ∀ l : List α, r ∈ l → Row.key r ≤ l.foldr (fun x m => max (Row.key x) m) 0 := by
    intro l hl
    induction l with
    | nil => cases hl
    | cons y ys ih =>
      rw [List.foldr_cons]
      rcases List.mem_cons.mp hl with rfl | hy
      · exact Nat.le_max_left _ _
      · exact Nat.le_trans (ih hy) (Nat.le_max_right _ _)
  exact Nat.lt_succ_of_le (hle t.rows h)

/-- Add the row `mk k` under a fresh key `k`. -/
def add (t : Table α) (mk : ℕ → α) (hmk : ∀ k, Row.key (mk k) = k := by intro _; rfl) : Table α :=
  t.insert (mk t.freshKey) fun x hx h => by
    have := key_lt_freshKey hx
    rw [h, hmk] at this
    exact Nat.lt_irrefl _ this

variable {t : Table α} {mk : ℕ → α} {hmk : ∀ k, Row.key (mk k) = k}

theorem mem_add {x : α} : x ∈ t.add mk hmk ↔ x ∈ t ∨ x = mk t.freshKey := mem_insert

/-- `mem_add` where the proof that the rows carry their keys has to be named. -/
theorem mem_add_mk (hmk : ∀ k, Row.key (mk k) = k) {x : α} :
    x ∈ t.add mk hmk ↔ x ∈ t ∨ x = mk t.freshKey := mem_add

theorem get?_add_fresh : (t.add mk hmk).get? t.freshKey = some (mk t.freshKey) :=
  get?_eq_some.mpr ⟨mem_add.mpr (.inr rfl), hmk _⟩

theorem get?_add_ne {k : ℕ} (h : k ≠ t.freshKey) : (t.add mk hmk).get? k = t.get? k := by
  refine Option.ext fun x => ?_
  simp only [get?_eq_some, mem_add]
  constructor
  · rintro ⟨hx | rfl, rfl⟩
    · exact ⟨hx, rfl⟩
    · exact absurd (hmk _) h
  · rintro ⟨hx, rfl⟩
    exact ⟨.inl hx, rfl⟩

theorem get?_add_of_some {k : ℕ} {r : α} (h : t.get? k = some r) :
    (t.add mk hmk).get? k = some r := by
  obtain ⟨hr, rfl⟩ := get?_eq_some.mp h
  exact get?_eq_some.mpr ⟨mem_add.mpr (.inl hr), rfl⟩

theorem find?_add (p : α → Bool) :
    (t.add mk hmk).find? p =
      (t.find? p).or (if p (mk t.freshKey) then some (mk t.freshKey) else none) := by
  unfold find? add insert
  rw [List.find?_append, List.find?_singleton]

/-- `find?_add` where the proof that the rows carry their keys has to be named. -/
theorem find?_add_mk (hmk : ∀ k, Row.key (mk k) = k) (p : α → Bool) :
    (t.add mk hmk).find? p =
      (t.find? p).or (if p (mk t.freshKey) then some (mk t.freshKey) else none) := find?_add p

theorem filter_add (p : α → Bool) :
    (t.add mk hmk).filter p =
      t.filter p ++ if p (mk t.freshKey) then [mk t.freshKey] else [] := by
  unfold filter add insert
  rw [List.filter_append]
  refine congrArg _ ?_
  by_cases hp : p (mk t.freshKey) = true <;> simp [hp]

theorem filter_add_mk (hmk : ∀ k, Row.key (mk k) = k) (p : α → Bool) :
    (t.add mk hmk).filter p =
      t.filter p ++ if p (mk t.freshKey) then [mk t.freshKey] else [] := filter_add p

theorem sum_add (f : α → ℤ) : (t.add mk hmk).sum f = t.sum f + f (mk t.freshKey) := sum_insert f

theorem sum_add_mk (hmk : ∀ k, Row.key (mk k) = k) (f : α → ℤ) :
    (t.add mk hmk).sum f = t.sum f + f (mk t.freshKey) := sum_add f

end Numbered

end Table

end WezuBackend.Lib.Tables
