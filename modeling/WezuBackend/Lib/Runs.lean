import Mathlib.Order.Basic
import Mathlib.Tactic.Common

/-!
# Runs of a deterministic system

A system is a step function `step : σ → ο → σ`; a run feeds it a list of operations.  What one
step preserves, a run preserves (`run_invariant`); what one step preserves under a condition on the
state and the operation, a run preserves if every one of its steps meets the condition
(`run_invariant_of_along`); and a property that a step can only switch on, and that is then never
lost, splits a run at the step that switched it on (`latch_split`).
-/

namespace WezuBackend.Lib.Runs

variable {σ ο : Type}

/-- The state after the operations. -/
def run (step : σ → ο → σ) (s : σ) (os : List ο) : σ := os.foldl step s

variable {step : σ → ο → σ}

@[simp] theorem run_nil (s : σ) : run step s [] = s := rfl

@[simp] theorem run_cons (s : σ) (o : ο) (os : List ο) :
    run step s (o :: os) = run step (step s o) os := rfl

theorem run_append (s : σ) (os os' : List ο) :
    run step s (os ++ os') = run step (run step s os) os' := List.foldl_append

theorem run_concat (s : σ) (os : List ο) (o : ο) :
    run step s (os ++ [o]) = step (run step s os) o := run_append s os [o]

variable {I : σ → Prop} {s : σ}

theorem run_invariant (hstep : ∀ s o, I s → I (step s o)) (h : I s)
    (os : List ο) : I (run step s os) := by
  induction os generalizing s with
  | nil => exact h
  | cons o os ih => exact ih (hstep s o h)

variable {R : σ → σ → Prop}

/-- What every step does between its two states, a run does between its first and its last. -/
theorem run_relation (hrefl : ∀ s, R s s) (htrans : ∀ {s t u}, R s t → R t u → R s u)
    (hstep : ∀ s o, I s → I (step s o) ∧ R s (step s o)) (h : I s) (os : List ο) :
    R s (run step s os) := by
  induction os generalizing s with
  | nil => exact hrefl s
  | cons o os ih =>
    obtain ⟨hI, hR⟩ := hstep s o h
    exact htrans hR (ih hI)

/-- Every step of the run meets `C`. -/
def Along (step : σ → ο → σ) (C : σ → ο → Prop) : σ → List ο → Prop
  | _, [] => True
  | s, o :: os => C s o ∧ Along step C (step s o) os

instance decidableAlong {C : σ → ο → Prop} [∀ s o, Decidable (C s o)] :
    ∀ s os, Decidable (Along step C s os)
  | _, [] => isTrue trivial
  | s, o :: os => @instDecidableAnd _ _ _ (decidableAlong (step s o) os)

variable {C : σ → ο → Prop}

theorem along_append {os os' : List ο} :
    Along step C s (os ++ os') ↔ Along step C s os ∧ Along step C (run step s os) os' := by
  induction os generalizing s with
  | nil => simp [Along]
  | cons o os ih => simp only [List.cons_append, Along, ih, run_cons, and_assoc]

variable {os : List ο}

theorem along_iff :
    Along step C s os ↔ ∀ p o q, os = p ++ o :: q → C (run step s p) o := by
  constructor
  · rintro h p o q rfl
    exact (along_append.mp h).2.1
  · intro h
    induction os generalizing s with
    | nil => trivial
    | cons o os ih =>
      exact ⟨h [] o os rfl, ih fun p o' q hp => h (o :: p) o' q (by rw [hp, List.cons_append])⟩

/-- Some step of the run meets `C`. -/
def Sometime (step : σ → ο → σ) (C : σ → ο → Prop) (s : σ) (os : List ο) : Prop :=
  ∃ p o q, os = p ++ o :: q ∧ C (run step s p) o

theorem sometime_concat {o : ο} :
    Sometime step C s (os ++ [o]) ↔ Sometime step C s os ∨ C (run step s os) o := by
  constructor
  · rintro ⟨p, x, q, hos, hC⟩
    rcases List.eq_nil_or_concat q with rfl | ⟨q, y, rfl⟩
    · obtain ⟨rfl, hx⟩ := List.append_inj' hos rfl
      obtain rfl := List.singleton_inj.mp hx
      exact .inr hC
    · rw [List.concat_eq_append, ← List.cons_append, ← List.append_assoc] at hos
      obtain ⟨rfl, -⟩ := List.append_inj' hos rfl
      exact .inl ⟨p, x, q, rfl, hC⟩
  · rintro (⟨p, x, q, rfl, hC⟩ | hC)
    · exact ⟨p, x, q ++ [o], by rw [List.append_assoc, List.cons_append], hC⟩
    · exact ⟨os, o, [], rfl, hC⟩

theorem not_sometime_nil : ¬ Sometime step C s [] := by
  rintro ⟨p, o, q, hos, -⟩
  exact absurd hos.symm (List.append_ne_nil_of_right_ne_nil p (List.cons_ne_nil o q))

theorem along_congr {C C' : σ → ο → Prop} (hstep : ∀ s o, I s → I (step s o))
    (hC : ∀ s o, I s → (C s o ↔ C' s o)) (h : I s) (os : List ο) :
    Along step C s os ↔ Along step C' s os := by
  induction os generalizing s with
  | nil => rfl
  | cons o os ih => exact and_congr (hC s o h) (ih (hstep s o h))

theorem constant_iff_along {α : Type} (D : σ → α) (s : σ) (os : List ο) :
    (∀ p q, os = p ++ q → D (run step s p) = D s) ↔
      Along step (fun s o => D (step s o) = D s) s os := by
  induction os generalizing s with
  | nil =>
    refine ⟨fun _ => trivial, fun _ p q hp => ?_⟩
    obtain ⟨rfl, -⟩ := List.append_eq_nil_iff.mp hp.symm
    rfl
  | cons o os ih =>
    constructor
    · intro h
      have hfirst : D (step s o) = D s := h [o] os rfl
      refine ⟨hfirst, (ih (step s o)).mp fun p q hp => ?_⟩
      rw [hfirst]
      exact h (o :: p) q (by rw [hp, List.cons_append])
    · rintro ⟨hfirst, hrest⟩ p q hp
      rcases List.cons_eq_append_iff.mp hp with ⟨rfl, -⟩ | ⟨p', rfl, hp'⟩
      · rfl
      · rw [run_cons, (ih (step s o)).mpr hrest p' q hp', hfirst]

theorem unchanged_iff_along {α : Type} [PartialOrder α] {D : σ → α}
    (hmono : ∀ s o, D s ≤ D (step s o)) (s : σ) (os : List ο) :
    D (run step s os) = D s ↔ Along step (fun s o => D (step s o) = D s) s os := by
  constructor
  · intro hend
    refine (constant_iff_along D s os).mp fun p q hp => ?_
    have hle : ∀ (t : σ) (os : List ο), D t ≤ D (run step t os) := fun t os =>
      run_invariant (I := fun u => D t ≤ D u) (fun u o hu => le_trans hu (hmono u o)) le_rfl os
    subst hp
    rw [run_append] at hend
    exact le_antisymm ((hle _ q).trans_eq hend) (hle s p)
  · exact fun h => (constant_iff_along D s os).mpr h os [] (List.append_nil os).symm

/-- **Invariants under a condition** on the steps. -/
theorem run_invariant_of_along (hstep : ∀ s o, I s → C s o → I (step s o)) (h : I s)
    (hC : Along step C s os) : I (run step s os) := by
  induction os generalizing s with
  | nil => exact h
  | cons o os ih => exact ih (hstep s o h hC.1) hC.2

/-- **What a run leaves**: it holds in the end if and only if it did at first and all steps spared
it, or some step made it hold, and all later ones spared it. -/
theorem holds_iff_made {H : σ → Prop} {M K : ο → Prop} (hI : ∀ s o, I s → I (step s o))
    (hstep : ∀ s o, I s → (H (step s o) ↔ M o ∨ H s ∧ K o)) (h : I s) (os : List ο) :
    H (run step s os) ↔ (H s ∧ ∀ o ∈ os, K o) ∨
      ∃ p o q, os = p ++ o :: q ∧ M o ∧ ∀ x ∈ q, K x := by
  induction os generalizing s with
  | nil => simp
  | cons o os ih =>
    rw [run_cons, ih (hI s o h), hstep s o h]
    constructor
    · rintro (⟨hM | ⟨hs, ho⟩, hall⟩ | ⟨p, x, q, rfl, hx⟩)
      · exact .inr ⟨[], o, os, rfl, hM, hall⟩
      · exact .inl ⟨hs, List.forall_mem_cons.mpr ⟨ho, hall⟩⟩
      · exact .inr ⟨o :: p, x, q, rfl, hx⟩
    · rintro (⟨hs, hall⟩ | ⟨p, x, q, hos, hx⟩)
      · obtain ⟨ho, hrest⟩ := List.forall_mem_cons.mp hall
        exact .inl ⟨.inr ⟨hs, ho⟩, hrest⟩
      · rcases List.cons_eq_append_iff.mp hos with ⟨-, hq⟩ | ⟨p, -, rfl⟩
        · obtain ⟨rfl, rfl⟩ := List.cons_eq_cons.mp hq
          exact .inl ⟨.inl hx.1, hx.2⟩
        · exact .inr ⟨p, x, q, rfl, hx⟩

/-- What every step does that starts from the invariant and meets the condition. -/
theorem along_of_along {C P : σ → ο → Prop}
    (hstep : ∀ s o, I s → C s o → I (step s o)) (hP : ∀ s o, I s → C s o → P s o)
    (h : I s) (hC : Along step C s os) : Along step P s os := by
  induction os generalizing s with
  | nil => trivial
  | cons o os ih => exact ⟨hP s o h hC.1, ih (hstep s o h hC.1) hC.2⟩

/-- **The exact condition** for what every step has to do: what it does if and only if it meets `C`,
as long as an invariant holds that such steps keep. -/
theorem along_iff_along {C P : σ → ο → Prop}
    (hstep : ∀ s o, I s → C s o → I (step s o)) (hP : ∀ s o, I s → (P s o ↔ C s o))
    (h : I s) (os : List ο) : Along step P s os ↔ Along step C s os := by
  induction os generalizing s with
  | nil => rfl
  | cons o os ih =>
    simp only [Along, hP s o h]
    exact and_congr_right fun hC => ih (hstep s o h hC)

/-- **The exact condition** for an invariant that a step keeps if and only if it meets `C`. -/
theorem invariant_iff_along (hstep : ∀ s o, I s → (I (step s o) ↔ C s o)) (h : I s) (os : List ο) :
    (∀ p q, os = p ++ q → I (run step s p)) ↔ Along step C s os := by
  constructor
  · intro hall
    refine along_iff.mpr fun p o q hos => ?_
    have hlast := hall (p ++ [o]) q (by rw [hos, List.append_assoc, List.singleton_append])
    rw [run_concat] at hlast
    exact (hstep _ o (hall p (o :: q) hos)).mp hlast
  · rintro hC p q rfl
    exact run_invariant_of_along (fun s o hs hCs => (hstep s o hs).mpr hCs) h
      (along_append.mp hC).1

/-- **The exact condition** for a property `I` of an invariant `J` that the steps keep as long as
they meet `C`; a step that does not breaks the property at once. -/
theorem holds_iff_along {J I : σ → Prop}
    (hJ : ∀ s o, J s → C s o → J (step s o)) (hI : ∀ s, J s → I s)
    (hbreak : ∀ s o, J s → ¬ C s o → ¬ I (step s o)) (hs : J s) (os : List ο) :
    (∀ p q, os = p ++ q → I (run step s p)) ↔ Along step C s os := by
  constructor
  · intro hall
    induction os generalizing s with
    | nil => trivial
    | cons o os ih =>
      have hC : C s o := by
        by_contra hno
        exact hbreak s o hs hno (hall [o] os rfl)
      exact ⟨hC, ih (hJ s o hs hC) fun p q hp => hall (o :: p) q (by rw [hp, List.cons_append])⟩
  · rintro hC p q rfl
    exact hI _ (run_invariant_of_along hJ hs (along_append.mp hC).1)

/-- **The exact condition** for an invariant `I`, with the help of an invariant `J`. -/
theorem invariant_iff_along_within {J I : σ → Prop}
    (hJ : ∀ s o, J s → J (step s o)) (hstep : ∀ s o, J s → I s → (I (step s o) ↔ C s o))
    (hs : J s) (h : I s) (os : List ο) :
    (∀ p q, os = p ++ q → I (run step s p)) ↔ Along step C s os := by
  have hboth := invariant_iff_along (I := fun t => J t ∧ I t) (C := C)
    (fun t o ht => (and_iff_right (hJ t o ht.1)).trans (hstep t o ht.1 ht.2)) ⟨hs, h⟩ os
  rw [← hboth]
  exact ⟨fun hall p q hp => ⟨run_invariant hJ hs p, hall p q hp⟩, fun hall p q hp =>
    (hall p q hp).2⟩

/-- **The exact condition** for an invariant `I` together with a relation `R` between earlier and
later states, with the help of an invariant `J`, in a run whose steps all meet `G`. -/
theorem kept_iff_along_given {J I : σ → Prop} {G C : σ → ο → Prop}
    (hrefl : ∀ s, R s s) (htrans : ∀ {s t u}, R s t → R t u → R s u)
    (hJ : ∀ s o, J s → I s → G s o → J (step s o))
    (hstep : ∀ s o, J s → I s → G s o → (I (step s o) ∧ R s (step s o) ↔ C s o))
    (hs : J s) (h : I s) (hgiven : Along step G s os) :
    (∀ p q r, os = p ++ q ++ r → I (run step s p) ∧ R (run step s p) (run step s (p ++ q))) ↔
      Along step C s os := by
  constructor
  · intro hall
    induction os generalizing s with
    | nil => trivial
    | cons o os ih =>
      have hfirst : R s (step s o) := (hall [] [o] os rfl).2
      have hnext : I (step s o) := (hall [o] [] os rfl).1
      refine ⟨(hstep s o hs h hgiven.1).mp ⟨hnext, hfirst⟩,
        ih (hJ s o hs h hgiven.1) hnext hgiven.2 fun p q r hp => ?_⟩
      exact hall (o :: p) q r (by rw [hp]; rfl)
  · have hboth : ∀ s o, (J s ∧ I s) → G s o ∧ C s o → J (step s o) ∧ I (step s o) :=
      fun s o hs hC => ⟨hJ s o hs.1 hs.2 hC.1, ((hstep s o hs.1 hs.2 hC.1).mpr hC.2).1⟩
    have hrun : ∀ (q : List ο) (s : σ), J s ∧ I s → Along step (fun s o => G s o ∧ C s o) s q →
        R s (run step s q) := by
      intro q
      induction q with
      | nil => exact fun s _ _ => hrefl s
      | cons o q ih =>
        intro s hs hC
        exact htrans ((hstep s o hs.1 hs.2 hC.1.1).mpr hC.1.2).2
          (ih (step s o) (hboth s o hs hC.1) hC.2)
    rintro hC p q r rfl
    have hall : Along step (fun s o => G s o ∧ C s o) s (p ++ q ++ r) := along_iff.mpr
      fun before o after hp => ⟨along_iff.mp hgiven before o after hp,
        along_iff.mp hC before o after hp⟩
    obtain ⟨hp, hq⟩ := along_append.mp (along_append.mp hall).1
    have hinv := run_invariant_of_along hboth ⟨hs, h⟩ hp
    rw [run_append]
    exact ⟨hinv.2, hrun q _ hinv hq⟩

/-- **The exact condition** for an invariant `I` together with a relation `R` between earlier and
later states, with the help of an invariant `J`. -/
theorem kept_iff_along {J I : σ → Prop}
    (hrefl : ∀ s, R s s) (htrans : ∀ {s t u}, R s t → R t u → R s u)
    (hJ : ∀ s o, J s → I s → J (step s o))
    (hstep : ∀ s o, J s → I s → (I (step s o) ∧ R s (step s o) ↔ C s o)) (hs : J s)
    (h : I s) (os : List ο) :
    (∀ p q r, os = p ++ q ++ r → I (run step s p) ∧ R (run step s p) (run step s (p ++ q))) ↔
      Along step C s os :=
  kept_iff_along_given (G := fun _ _ => True) hrefl htrans (fun s o hs h _ => hJ s o hs h)
    (fun s o hs h _ => hstep s o hs h) hs h (along_iff.mpr fun _ _ _ _ => trivial)

/-- **A latch.**  `D` is a state property that, once on, makes every later step idle.  A run from a
state without it either never gets it, or has exactly one step that switches it on, and nothing
happens after that step. -/
theorem latch_split {D : σ → Prop} (hI : ∀ s o, I s → I (step s o))
    (hidle : ∀ s o, I s → D s → step s o = s) (h : I s) (hs : ¬ D s) (os : List ο) :
    (∀ pre post, os = pre ++ post → ¬ D (run step s pre)) ∨
    ∃ pre o post, os = pre ++ o :: post ∧ (∀ p q, pre = p ++ q → ¬ D (run step s p)) ∧
      D (step (run step s pre) o) ∧
      ∀ p q, post = p ++ q → run step s (pre ++ o :: p) = step (run step s pre) o := by
  induction os generalizing s with
  | nil =>
    refine .inl fun pre post hp => ?_
    obtain ⟨rfl, -⟩ := List.append_eq_nil_iff.mp hp.symm
    exact hs
  | cons o os ih =>
    by_cases hD : D (step s o)
    · refine .inr ⟨[], o, os, rfl, fun p q hp => ?_, hD, fun p q _ => ?_⟩
      · obtain ⟨rfl, -⟩ := List.append_eq_nil_iff.mp hp.symm
        exact hs
      · have hfix : ∀ p : List ο, run step (step s o) p = step s o := fun p =>
          run_invariant (I := fun t => t = step s o)
            (fun t o' ht => by rw [ht, hidle _ o' (hI s o h) hD]) rfl p
        exact hfix p
    · rcases ih (hI s o h) hD with hno | ⟨pre, o', post, rfl, hpre, hD', hpost⟩
      · refine .inl fun pre post hp => ?_
        rcases List.cons_eq_append_iff.mp hp with ⟨rfl, -⟩ | ⟨pre', rfl, hp'⟩
        · exact hs
        · exact hno pre' post hp'
      · refine .inr ⟨o :: pre, o', post, rfl, fun p q hp => ?_, hD', hpost⟩
        rcases List.cons_eq_append_iff.mp hp with ⟨rfl, -⟩ | ⟨p', rfl, hp'⟩
        · exact hs
        · exact hpre p' q hp'

/-- What the steps preserve as long as they do not switch the latch on. -/
theorem before_latch {D I U : σ → Prop} (hI : ∀ s o, I s → I (step s o))
    (hU : ∀ s o, I s → U s → ¬ D (step s o) → U (step s o)) (h : I s) (hs : U s)
    (hno : ∀ p q, os = p ++ q → ¬ D (run step s p)) : U (run step s os) := by
  induction os generalizing s with
  | nil => exact hs
  | cons o os ih =>
    refine ih (hI s o h) (hU s o h hs (hno [o] os rfl)) fun p q hp => ?_
    exact hno (o :: p) q (by rw [hp, List.cons_append])

/-- A property that the last state has and the first has not was switched on by some step. -/
theorem exists_switch {P : σ → Prop} (hs : ¬ P s) (h : P (run step s os)) :
    ∃ pre o post, os = pre ++ o :: post ∧ ¬ P (run step s pre) ∧ P (step (run step s pre) o) := by
  induction os generalizing s with
  | nil => exact absurd h hs
  | cons o os ih =>
    by_cases hP : P (step s o)
    · exact ⟨[], o, os, rfl, hs, hP⟩
    · obtain ⟨pre, o', post, rfl, hpre, hP'⟩ := ih hP h
      exact ⟨o :: pre, o', post, rfl, hpre, hP'⟩

end WezuBackend.Lib.Runs
