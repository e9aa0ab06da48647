import WezuBackend.Lib.Atomicity

/-!
# Loops

A loop runs a program once for each entry of a list, and whether the program returns for an entry
may depend on what it did for the entries before.  `Advances` describes one round: what holds of the
session once some entries have been dealt with, and what the next one asks for there.  A loop that
returns leaves what holds after its last round (`Advances.run`), and it returns exactly if each
entry gets what it asks for in its turn (`Advances.returns_iff`).  A loop of checks returns exactly
if all of them hold (`forM_checks_iff`), also where it hands a value on (`foldlM_checks_iff`).
-/

namespace WezuBackend.Lib.Loops

open Lib.Atomicity Lib.Atomicity.Tx

variable {ε σ δ : Type} {x : δ → Tx ε σ Unit} {l : List δ} {R : List δ → Session σ → Prop}
  {A : List δ → δ → Prop}

/-- The rounds of a loop: `R done` holds of the session once `x` has run for `done`, and there it
returns for the next entry exactly if `A done` holds of the entry. -/
structure Advances (x : δ → Tx ε σ Unit) (l : List δ) (R : List δ → Session σ → Prop)
    (A : List δ → δ → Prop) : Prop where
  returns : ∀ {before d after s}, l = before ++ d :: after → R before s →
    ((∃ t, x d s = (.ok (), t)) ↔ A before d)
  step : ∀ {before d after s t}, l = before ++ d :: after → R before s →
    x d s = (.ok (), t) → R (before ++ [d]) t

theorem Advances.run_from (h : Advances x l R A) {before after : List δ}
    (hl : l = before ++ after) {s t : Session σ} {u : Unit} (hR : R before s)
    (hrun : after.forM x s = (.ok u, t)) : R l t := by
  induction after generalizing before s with
  | nil =>
    obtain ⟨-, rfl⟩ := pure_ok.mp hrun
    rw [hl, List.append_nil]
    exact hR
  | cons d after ih =>
    rw [show (d :: after).forM x = x d >>= fun _ => after.forM x from rfl, bind_ok] at hrun
    obtain ⟨_, s₁, hfirst, hrest⟩ := hrun
    have hl' : l = (before ++ [d]) ++ after := by rw [hl, List.append_assoc, List.singleton_append]
    exact ih hl' (h.step hl hR hfirst) hrest

/-- **A loop that returns.** -/
theorem Advances.run (h : Advances x l R A) {s t : Session σ} {u : Unit} (hstart : R [] s)
    (hrun : l.forM x s = (.ok u, t)) : R l t :=
  h.run_from (List.nil_append l).symm hstart hrun

theorem Advances.returns_from (h : Advances x l R A) {before after : List δ}
    (hl : l = before ++ after) {s : Session σ} (hR : R before s) :
    (∃ t, after.forM x s = (.ok (), t)) ↔
      ∀ first d rest, after = first ++ d :: rest → A (before ++ first) d := by
  induction after generalizing before s with
  | nil =>
    refine iff_of_true ⟨s, rfl⟩ fun first d rest heq => ?_
    exact absurd heq.symm (List.append_ne_nil_of_right_ne_nil _ (List.cons_ne_nil _ _))
  | cons d after ih =>
    have hl' : l = (before ++ [d]) ++ after := by rw [hl, List.append_assoc, List.singleton_append]
    rw [show (d :: after).forM x = x d >>= fun _ => after.forM x from rfl]
    constructor
    · rintro ⟨t, hrun⟩
      obtain ⟨_, s₁, hfirst, hrest⟩ := bind_ok.mp hrun
      have hA := (h.returns hl hR).mp ⟨s₁, hfirst⟩
      have hlater := (ih hl' (h.step hl hR hfirst)).mp ⟨t, hrest⟩
      intro first e rest heq
      rcases List.cons_eq_append_iff.mp heq with ⟨rfl, heq⟩ | ⟨first, rfl, rfl⟩
      · obtain ⟨rfl, -⟩ := List.cons.inj heq
        rwa [List.append_nil]
      · have hnext := hlater first e rest rfl
        rwa [List.append_assoc, List.singleton_append] at hnext
    · intro hall
      have hA := hall [] d after rfl
      rw [List.append_nil] at hA
      obtain ⟨s₁, hfirst⟩ := (h.returns hl hR).mpr hA
      have hlater :
          ∀ first e rest, after = first ++ e :: rest → A ((before ++ [d]) ++ first) e := by
        intro first e rest heq
        rw [List.append_assoc, List.singleton_append]
        exact hall (d :: first) e rest (by rw [heq, List.cons_append])
      obtain ⟨t, hrest⟩ := (ih hl' (h.step hl hR hfirst)).mpr hlater
      exact ⟨t, (bind_of_ok hfirst).trans hrest⟩

theorem Advances.returns_iff (h : Advances x l R A) {s : Session σ} (hstart : R [] s) :
    (∃ t, l.forM x s = (.ok (), t)) ↔
      ∀ before d after, l = before ++ d :: after → A before d := by
  rw [h.returns_from (List.nil_append l).symm hstart]
  rfl

theorem forM_checks_iff {P : δ → σ → Prop}
    (h : ∀ d {s t : Session σ}, x d s = (.ok (), t) ↔ P d s.working ∧ s = t) {s t : Session σ} :
    l.forM x s = (.ok (), t) ↔ (∀ d ∈ l, P d s.working) ∧ s = t := by
  induction l with
  | nil => exact pure_ok.trans ⟨fun h => ⟨nofun, h.2⟩, fun h => ⟨rfl, h.2⟩⟩
  | cons d l ih =>
    rw [show (d :: l).forM x = x d >>= fun _ => l.forM x from rfl, bind_ok, List.forall_mem_cons]
    constructor
    · rintro ⟨_, s₁, hfirst, hrest⟩
      obtain ⟨hd, rfl⟩ := (h d).mp hfirst
      obtain ⟨hl, rfl⟩ := ih.mp hrest
      exact ⟨⟨hd, hl⟩, rfl⟩
    · rintro ⟨⟨hd, hl⟩, rfl⟩
      exact ⟨(), s, (h d).mpr ⟨hd, rfl⟩, ih.mpr ⟨hl, rfl⟩⟩

theorem foldlM_checks_iff {κ : Type} {f : κ → δ → Tx ε σ κ} {P : δ → σ → Prop}
    (h : ∀ k d {s t : Session σ}, (∃ k', f k d s = (.ok k', t)) ↔ P d s.working ∧ s = t) (k : κ)
    {s t : Session σ} :
    (∃ k', l.foldlM f k s = (.ok k', t)) ↔ (∀ d ∈ l, P d s.working) ∧ s = t := by
  induction l generalizing k s with
  | nil => exact ⟨fun ⟨_, h⟩ => ⟨nofun, (pure_ok.mp h).2⟩, fun h => ⟨k, pure_ok.mpr ⟨rfl, h.2⟩⟩⟩
  | cons d l ih =>
    simp only [List.foldlM_cons, bind_ok, List.forall_mem_cons]
    constructor
    · rintro ⟨k', k₁, s₁, hfirst, hrest⟩
      obtain ⟨hd, rfl⟩ := (h k d).mp ⟨k₁, hfirst⟩
      obtain ⟨hl, rfl⟩ := (ih k₁).mp ⟨k', hrest⟩
      exact ⟨⟨hd, hl⟩, rfl⟩
    · rintro ⟨⟨hd, hl⟩, rfl⟩
      obtain ⟨k₁, hfirst⟩ := (h k d).mpr ⟨hd, rfl⟩
      obtain ⟨k', hrest⟩ := (ih k₁).mpr ⟨hl, rfl⟩
      exact ⟨k', k₁, s, hfirst, hrest⟩

end WezuBackend.Lib.Loops
