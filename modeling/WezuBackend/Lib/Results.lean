import Mathlib.Data.List.Forall2

/-!
# Results of checks

`Except` as the monad of checks: when a chain of checks succeeds, and when it raises.
-/

namespace WezuBackend.Lib.Results

variable {ε α β : Type}

variable {b : β} {f : α → Except ε β} {x : Except ε α}

theorem except_bind_ok : (x >>= f) = .ok b ↔ ∃ a, x = .ok a ∧ f a = .ok b := by
  rcases x with e | a <;> simp [bind, Except.bind]

variable {e : ε}

theorem except_bind_error :
    (x >>= f) = .error e ↔ x = .error e ∨ ∃ a, x = .ok a ∧ f a = .error e := by
  rcases x with e | a <;> simp [bind, Except.bind]

theorem except_map_ok {f : α → β} :
    x.map f = .ok b ↔ ∃ a, x = .ok a ∧ f a = b := by
  rcases x with e | a <;> simp [Except.map]

variable {l : List α} {l' : List β}

theorem forall₂_of_mapM (h : l.mapM f = .ok l') : List.Forall₂ (fun a b => f a = .ok b) l l' := by
  induction l generalizing l' with
  | nil =>
    obtain rfl := Except.ok.inj h
    exact .nil
  | cons a l ih =>
    rw [List.mapM_cons, except_bind_ok] at h
    obtain ⟨b, hb, h⟩ := h
    rw [except_bind_ok] at h
    obtain ⟨bs, hbs, h⟩ := h
    obtain rfl := Except.ok.inj h
    exact .cons hb (ih hbs)

theorem mapM_ok_of_mem (h : l.mapM f = .ok l') {a : α} (ha : a ∈ l) : ∃ b ∈ l', f a = .ok b := by
  have hforall := forall₂_of_mapM h
  clear h
  induction hforall with
  | nil => cases ha
  | cons hfirst _ ih =>
    rcases List.mem_cons.mp ha with rfl | ha
    · exact ⟨_, List.mem_cons_self, hfirst⟩
    · obtain ⟨b, hb, hab⟩ := ih ha
      exact ⟨b, List.mem_cons_of_mem _ hb, hab⟩

theorem mem_of_mapM (h : l.mapM f = .ok l') (hb : b ∈ l') : ∃ a ∈ l, f a = .ok b := by
  have hforall := forall₂_of_mapM h
  clear h
  induction hforall with
  | nil => cases hb
  | cons hfirst _ ih =>
    rcases List.mem_cons.mp hb with rfl | hb
    · exact ⟨_, List.mem_cons_self, hfirst⟩
    · obtain ⟨a, ha, hab⟩ := ih hb
      exact ⟨a, List.mem_cons_of_mem _ ha, hab⟩

theorem mapM_of_forall {g : α → β} (h : ∀ a ∈ l, f a = .ok (g a)) : l.mapM f = .ok (l.map g) := by
  induction l with
  | nil => rfl
  | cons a l ih =>
    rw [List.mapM_cons, h a List.mem_cons_self, ih fun x hx => h x (List.mem_cons_of_mem _ hx)]
    rfl

theorem mapM_error (h : l.mapM f = .error e) :
    ∃ a ∈ l, f a = .error e := by
  induction l with
  | nil => cases h
  | cons a l ih =>
    rw [List.mapM_cons, except_bind_error] at h
    rcases h with h | ⟨b, -, h⟩
    · exact ⟨a, List.mem_cons_self, h⟩
    · rcases except_bind_error.mp h with h | ⟨bs, -, h⟩
      · obtain ⟨x, hx, hfx⟩ := ih h
        exact ⟨x, List.mem_cons_of_mem _ hx, hfx⟩
      · cases h

theorem mapM_nil (h : l.mapM f = .ok []) :
    l = [] := by
  cases forall₂_of_mapM h
  rfl

theorem foldlM_error {f : β → α → Except ε β}
    (h : l.foldlM f b = .error e) : ∃ b' a, f b' a = .error e := by
  induction l generalizing b with
  | nil => cases h
  | cons a l ih =>
    rw [List.foldlM_cons, except_bind_error] at h
    rcases h with h | ⟨b', -, h⟩
    · exact ⟨b, a, h⟩
    · exact ih h

end WezuBackend.Lib.Results
