import Mathlib.Data.List.Induction
import Mathlib.Data.List.Nodup

/-!
# Entries in order

A dictionary that keeps the order of its insertions, as the list of its entries: `assign` replaces
an entry in its place or adds it at the end.  A dictionary that is built from a list of assignments
has the last value of each key (`lookup_ofEntries`), so two of them with the same keys in the same
order are equal exactly if the last values are (`ofEntries_eq_iff`).
-/

namespace WezuBackend.Lib.Entries

variable {κ α : Type} [DecidableEq κ]

/-- `entries[key] = value`. -/
def assign (entries : List (κ × α)) (key : κ) (value : α) : List (κ × α) :=
  if key ∈ entries.map Prod.fst then
    entries.map fun entry => if entry.1 = key then (key, value) else entry
  else entries ++ [(key, value)]

def ofEntries (assignments : List (κ × α)) : List (κ × α) :=
  assignments.foldl (fun entries e => assign entries e.1 e.2) []

section

variable (entries : List (κ × α)) (key k : κ) (value : α)

theorem keys_assign : (assign entries key value).map Prod.fst =
    if key ∈ entries.map Prod.fst then entries.map Prod.fst else entries.map Prod.fst ++ [key] := by
  unfold assign
  split_ifs with h
  · rw [List.map_map]
    refine List.map_congr_left fun entry _ => ?_
    rw [Function.comp_apply]
    split_ifs with heq
    · exact heq.symm
    · rfl
  · rw [List.map_append, List.map_singleton]

theorem nodup_assign (h : (entries.map Prod.fst).Nodup) :
    ((assign entries key value).map Prod.fst).Nodup := by
  rw [keys_assign]
  split_ifs with hmem
  · exact h
  · exact h.append (List.nodup_singleton key) (by simpa using hmem)

theorem lookup_eq_none {entries : List (κ × α)} {k : κ} :
    entries.lookup k = none ↔ k ∉ entries.map Prod.fst := by
  rw [List.lookup_eq_none_iff, List.mem_map]
  constructor
  · rintro h ⟨entry, hentry, rfl⟩
    simpa using h entry hentry
  · intro h entry hentry
    have hne : k ≠ entry.1 := fun heq => h ⟨entry, hentry, heq.symm⟩
    simpa using hne

theorem lookup_reverse_of_last {as bs : List (κ × α)} {k : κ} {x : α}
    (h : k ∉ bs.map Prod.fst) : (as ++ (k, x) :: bs).reverse.lookup k = some x := by
  have hnone : bs.reverse.lookup k = none := by
    rw [lookup_eq_none, List.map_reverse, List.mem_reverse]
    exact h
  rw [List.reverse_append, List.reverse_cons, List.append_assoc, List.lookup_append, hnone]
  simp

theorem lookup_replaced : (entries.map fun entry => if entry.1 = key then (key, value) else
      entry).lookup k =
    if k = key then (entries.lookup k).map fun _ => value else entries.lookup k := by
  induction entries with
  | nil => split_ifs <;> rfl
  | cons entry entries ih =>
    obtain ⟨k', x⟩ := entry
    rw [List.map_cons]
    by_cases hk : k' = key
    · subst hk
      rw [if_pos rfl, List.lookup_cons, List.lookup_cons]
      by_cases heq : k = k'
      · simp [heq]
      · rw [ih, beq_false_of_ne heq]
    · rw [if_neg hk, List.lookup_cons, List.lookup_cons, ih]
      by_cases heq : k = k'
      · subst heq
        simp [hk]
      · simp [beq_false_of_ne heq]

@[simp] theorem lookup_assign : (assign entries key value).lookup k =
    if k = key then some value else entries.lookup k := by
  unfold assign
  split_ifs with hmem heq heq
  · rw [lookup_replaced, if_pos heq]
    obtain ⟨x, hx⟩ : ∃ x, entries.lookup k = some x := by
      rw [← Option.isSome_iff_exists, List.lookup_isSome_iff]
      obtain ⟨entry, hentry, hkey⟩ := List.mem_map.mp hmem
      exact ⟨entry, hentry, by simp [heq, hkey]⟩
    rw [hx]
    rfl
  · rw [lookup_replaced, if_neg heq]
  · rw [List.lookup_append, lookup_eq_none.mpr (heq ▸ hmem), heq]
    simp
  · rw [List.lookup_append, List.lookup_cons, beq_false_of_ne heq]
    simp

variable {entries key value}

theorem mem_assign {e : κ × α} (h : e ∈ assign entries key value) : e ∈ entries ∨ e.2 = value := by
  unfold assign at h
  split_ifs at h
  · obtain ⟨e', he', rfl⟩ := List.mem_map.mp h
    split_ifs
    · exact .inr rfl
    · exact .inl he'
  · rcases List.mem_append.mp h with he | he
    · exact .inl he
    · exact .inr (by rw [List.mem_singleton.mp he])

end

section

variable {assignments : List (κ × α)}

theorem ofEntries_append (assignments : List (κ × α)) (key : κ) (value : α) :
    ofEntries (assignments ++ [(key, value)]) = assign (ofEntries assignments) key value := by
  rw [ofEntries, List.foldl_append]
  rfl

theorem nodup_ofEntries (assignments : List (κ × α)) :
    ((ofEntries assignments).map Prod.fst).Nodup := by
  induction assignments using List.reverseRecOn with
  | nil => exact List.nodup_nil
  | append_singleton assignments e ih =>
    rw [ofEntries_append]
    exact nodup_assign _ _ _ ih

theorem ofEntries_of_nodup {entries : List (κ × α)} (h : (entries.map Prod.fst).Nodup) :
    ofEntries entries = entries := by
  induction entries using List.reverseRecOn with
  | nil => rfl
  | append_singleton entries e ih =>
    rw [List.map_append, List.map_singleton, List.nodup_append] at h
    have hnew : e.1 ∉ (ofEntries entries).map Prod.fst := by
      rw [ih h.1]
      exact fun hmem => h.2.2 _ hmem _ (List.mem_singleton_self _) rfl
    rw [ofEntries_append, assign, if_neg hnew, ih h.1]

/-- **The last assignment to a key counts.** -/
theorem lookup_ofEntries (assignments : List (κ × α)) (k : κ) :
    (ofEntries assignments).lookup k = assignments.reverse.lookup k := by
  induction assignments using List.reverseRecOn with
  | nil => rfl
  | append_singleton assignments e ih =>
    obtain ⟨key, value⟩ := e
    rw [ofEntries_append, lookup_assign, ih, List.reverse_append, List.reverse_singleton,
      List.singleton_append, List.lookup_cons]
    by_cases hk : k = key
    · simp [hk]
    · simp [hk, beq_false_of_ne hk]

variable {as bs : List (κ × α)}

theorem keys_ofEntries_congr (h : as.map Prod.fst = bs.map Prod.fst) :
    (ofEntries as).map Prod.fst = (ofEntries bs).map Prod.fst := by
  induction as using List.reverseRecOn generalizing bs with
  | nil =>
    obtain rfl : bs = [] := by simpa using h.symm
    rfl
  | append_singleton as a ih =>
    rcases List.eq_nil_or_concat bs with rfl | ⟨bs, b, rfl⟩
    · simp at h
    · rw [List.concat_eq_append, List.map_append, List.map_append] at h
      obtain ⟨htail, hlast⟩ := List.append_inj' h rfl
      have hkey : a.1 = b.1 := by simpa using hlast
      rw [List.concat_eq_append, ofEntries_append, ofEntries_append, keys_assign, keys_assign,
        ih htail, hkey]

/-- Entries with distinct keys are known by their keys and values. -/
theorem ext_lookup (hnodup : (as.map Prod.fst).Nodup)
    (hkeys : as.map Prod.fst = bs.map Prod.fst) (h : ∀ k, as.lookup k = bs.lookup k) : as = bs := by
  induction as generalizing bs with
  | nil =>
    obtain rfl : bs = [] := by simpa using hkeys.symm
    rfl
  | cons a as ih =>
    rcases bs with _ | ⟨b, bs⟩
    · cases hkeys
    · obtain ⟨k, x⟩ := a
      obtain ⟨k', y⟩ := b
      rw [List.map_cons, List.map_cons] at hkeys
      obtain ⟨rfl, htail⟩ := List.cons.inj hkeys
      rw [List.map_cons, List.nodup_cons] at hnodup
      have hfirst := h k
      simp only [List.lookup_cons_self, Option.some.injEq] at hfirst
      have hrest : as = bs := by
        refine ih hnodup.2 htail fun k' => ?_
        by_cases hk : k' = k
        · rw [hk, lookup_eq_none.mpr hnodup.1, lookup_eq_none.mpr (htail ▸ hnodup.1)]
        · have hk' := h k'
          rwa [List.lookup_cons, List.lookup_cons, beq_false_of_ne hk] at hk'
      rw [hfirst, hrest]

theorem lookup_eq_some_iff_mem {entries : List (κ × α)} (h : (entries.map Prod.fst).Nodup) {k : κ}
    {x : α} : entries.lookup k = some x ↔ (k, x) ∈ entries := by
  rw [List.lookup_eq_some_iff]
  constructor
  · rintro ⟨as, bs, rfl, -⟩
    simp
  · intro hmem
    obtain ⟨as, bs, rfl⟩ := List.append_of_mem hmem
    refine ⟨as, bs, rfl, fun e he => ?_⟩
    rw [List.map_append, List.nodup_append] at h
    have hne := h.2.2 e.1 (List.mem_map_of_mem he) k (by simp)
    simpa using hne.symm

/-- The order of entries with distinct keys makes no difference. -/
theorem lookup_perm (h : as.Perm bs) (hnodup : (as.map Prod.fst).Nodup)
    (k : κ) : as.lookup k = bs.lookup k := by
  refine Option.ext fun x => ?_
  rw [lookup_eq_some_iff_mem hnodup,
    lookup_eq_some_iff_mem ((h.map Prod.fst).nodup_iff.mp hnodup), h.mem_iff]

/-- **When two lists of assignments build the same.** -/
theorem ofEntries_eq_iff (h : as.map Prod.fst = bs.map Prod.fst) :
    ofEntries as = ofEntries bs ↔ ∀ k, as.reverse.lookup k = bs.reverse.lookup k := by
  constructor
  · intro heq k
    rw [← lookup_ofEntries, heq, lookup_ofEntries]
  · intro hall
    refine ext_lookup (nodup_ofEntries as) (keys_ofEntries_congr h) fun k => ?_
    rw [lookup_ofEntries, hall, lookup_ofEntries]

end

end WezuBackend.Lib.Entries
