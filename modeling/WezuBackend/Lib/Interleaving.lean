import WezuBackend.Lib.Runs
import Mathlib.Algebra.BigOperators.Group.Finset.Basic
import Mathlib.Data.Fintype.Basic
import Mathlib.Data.List.Permutation
import Mathlib.Tactic.Abel

/-!
# Interleaved processes

Processes work on one store, each with its own position in its program; `A i` is the next step of
process `i`, on the store and on its position.  A schedule is the list of the processes in
the order of their turns, and a run of a schedule is a run of `turn`.

* `interference`: a process that is busy began its work when `P` did not hold; if `P` holds now,
  another process has switched it on in between.
* `Serial`: the processes that have ended leave what they leave one after the other, each with the
  result that it has there.
-/

namespace WezuBackend.Lib.Interleaving

open Lib.Runs

/-- The store, and where each process is. -/
structure World (ι σ τ : Type) where
  store : σ
  position : ι → τ

variable {ι σ τ : Type}

/-- No process has begun. -/
def World.start (s : σ) (t : τ) : World ι σ τ := ⟨s, fun _ => t⟩

variable [DecidableEq ι]

/-- The next step of process `i`. -/
def turn (A : ι → σ → τ → σ × τ) (w : World ι σ τ) (i : ι) : World ι σ τ :=
  ⟨(A i w.store (w.position i)).1, Function.update w.position i (A i w.store (w.position i)).2⟩

variable {A : ι → σ → τ → σ × τ}

@[simp] theorem turn_store (w : World ι σ τ) (i : ι) :
    (turn A w i).store = (A i w.store (w.position i)).1 := rfl

@[simp] theorem turn_position_self (w : World ι σ τ) (i : ι) :
    (turn A w i).position i = (A i w.store (w.position i)).2 :=
  Function.update_self _ _ _

theorem turn_position_ne (w : World ι σ τ) {i j : ι} (h : j ≠ i) :
    (turn A w i).position j = w.position j := Function.update_of_ne h _ _

variable {i : ι} {w : World ι σ τ}

theorem turn_stays (h : (A i w.store (w.position i)).2 = w.position i) :
    turn A w i = ⟨(A i w.store (w.position i)).1, w.position⟩ := by
  rw [turn, h, Function.update_eq_self]

theorem turn_idle (h : A i w.store (w.position i) = (w.store, w.position i)) : turn A w i = w := by
  rw [turn_stays (by rw [h]), h]

/-- **What one process adds to a sum** over all of them, if its position changes. -/
theorem sum_position_update [Fintype ι] {G : Type} [AddCommMonoid G] (f : τ → G) (p : ι → τ)
    (i : ι) (x : τ) :
    ∑ j, f (Function.update p i x j) + f (p i) = ∑ j, f (p j) + f x := by
  have hrest : ∑ j ∈ Finset.univ.erase i, f (Function.update p i x j) =
      ∑ j ∈ Finset.univ.erase i, f (p j) :=
    Finset.sum_congr rfl fun j hj => by rw [Function.update_of_ne (Finset.ne_of_mem_erase hj)]
  rw [← Finset.add_sum_erase _ _ (Finset.mem_univ i), hrest, Function.update_self,
    ← Finset.add_sum_erase _ (fun j => f (p j)) (Finset.mem_univ i)]
  abel

/-! ## Interference -/

section Interference

variable {Busy : τ → Prop} {P : σ → Prop} {a : ι}

/-- **Interference**, where an invariant of the worlds is known.  `a` starts work only when `P` does
not hold, and a step of its own that brings `P` about is its last.  If it is at work now and `P`
holds, another process has brought `P` about while `a` was at work. -/
theorem interference_within {I : World ι σ τ → Prop} (hI : ∀ w i, I w → I (turn A w i))
    (hbegin : ∀ w, I w → ¬ Busy (w.position a) → Busy (A a w.store (w.position a)).2 →
      ¬ P (A a w.store (w.position a)).1)
    (hend : ∀ w, I w → ¬ P w.store → P (A a w.store (w.position a)).1 →
      ¬ Busy (A a w.store (w.position a)).2)
    (hw : ¬ Busy (w.position a)) (hinit : I w) (os : List ι)
    (hbusy : Busy ((run (turn A) w os).position a))
    (hP : P (run (turn A) w os).store) :
    ∃ p b q, os = p ++ b :: q ∧ b ≠ a ∧ Busy ((run (turn A) w p).position a) ∧
      ¬ P (run (turn A) w p).store ∧ P (run (turn A) w (p ++ [b])).store := by
  induction os using List.reverseRecOn with
  | nil => exact absurd hbusy hw
  | append_singleton os o ih =>
    have hIos : I (run (turn A) w os) := run_invariant hI hinit os
    have hrun := @run_concat _ _ (turn A) w os o
    rw [hrun] at hbusy hP
    have hbefore : Busy ((run (turn A) w os).position a) := by
      by_cases ho : o = a
      · subst ho
        rw [turn_position_self] at hbusy
        by_contra hn
        exact hbegin _ hIos hn hbusy hP
      · rwa [turn_position_ne _ (Ne.symm ho)] at hbusy
    by_cases hPos : P (run (turn A) w os).store
    · obtain ⟨p, b, q, rfl, hb, hp, hnP, hPb⟩ := ih hbefore hPos
      exact ⟨p, b, q ++ [o], by rw [List.append_assoc, List.cons_append], hb, hp, hnP, hPb⟩
    · refine ⟨os, o, [], rfl, ?_, hbefore, hPos, by rwa [hrun]⟩
      rintro rfl
      rw [turn_position_self] at hbusy
      exact hend _ hIos hPos hP hbusy

theorem interference
    (hbegin : ∀ s t, ¬ Busy t → Busy (A a s t).2 → ¬ P (A a s t).1)
    (hend : ∀ s t, ¬ P s → P (A a s t).1 → ¬ Busy (A a s t).2)
    (hw : ¬ Busy (w.position a)) (os : List ι) (hbusy : Busy ((run (turn A) w os).position a))
    (hP : P (run (turn A) w os).store) :
    ∃ p b q, os = p ++ b :: q ∧ b ≠ a ∧ Busy ((run (turn A) w p).position a) ∧
      ¬ P (run (turn A) w p).store ∧ P (run (turn A) w (p ++ [b])).store :=
  interference_within (I := fun _ => True) (fun _ _ _ => trivial) (fun _ _ => hbegin _ _)
    (fun _ _ => hend _ _) hw trivial os hbusy hP

end Interference

/-! ## Serial order -/

section Serial

variable {δ ρ : Type}

/-- The processes of the list, one after the other. -/
def inTurn (exec : ι → δ → ρ × δ) (d : δ) (done : List ι) : δ :=
  run (fun d i => (exec i d).2) d done

/-- The processes that have ended, in order: each has the result, and together they leave the store,
that they have and leave one after the other. -/
structure Serial (exec : ι → δ → ρ × δ) (view : σ → δ) (result : τ → Option ρ) (d : δ)
    (done : List ι) (w : World ι σ τ) : Prop where
  store : view w.store = inTurn exec d done
  once : done.Nodup
  ended : ∀ i, i ∈ done ↔ (result (w.position i)).isSome = true
  results : ∀ p i q, done = p ++ i :: q →
    result (w.position i) = some (exec i (inTurn exec d p)).1

variable {exec : ι → δ → ρ × δ} {view : σ → δ} {result : τ → Option ρ} {d : δ} {done : List ι}

omit [DecidableEq ι] in
theorem serial_start {s : σ} {t : τ} (hs : view s = d) (ht : result t = none) :
    Serial exec view result d [] (.start s t : World ι σ τ) := by
  refine ⟨hs, List.nodup_nil, fun i => ?_, fun p i q h => ?_⟩
  · rw [World.start, ht]
    simp
  · exact absurd h (by simp)

/-- A step that changes neither the store nor the result of the process. -/
theorem Serial.idle (h : Serial exec view result d done w)
    (hstore : view (turn A w i).store = view w.store)
    (hresult : result ((turn A w i).position i) = result (w.position i)) :
    Serial exec view result d done (turn A w i) := by
  have hsame : ∀ j, result ((turn A w i).position j) = result (w.position j) := fun j => by
    by_cases hj : j = i
    · rw [hj, hresult]
    · rw [turn_position_ne _ hj]
  refine ⟨hstore.trans h.store, h.once, fun j => ?_, fun p j q hdone => ?_⟩
  · rw [hsame j]
    exact h.ended j
  · rw [hsame j]
    exact h.results p j q hdone

/-- The last step of a process does what the process does from here. -/
theorem Serial.ends (h : Serial exec view result d done w)
    (hrunning : result (w.position i) = none)
    (hresult : result ((turn A w i).position i) = some (exec i (view w.store)).1)
    (hstore : view (turn A w i).store = (exec i (view w.store)).2) :
    Serial exec view result d (done ++ [i]) (turn A w i) := by
  have hnot : i ∉ done := by
    rw [h.ended i, hrunning]
    simp
  refine ⟨?_, ?_, fun j => ?_, fun p j q hdone => ?_⟩
  · rw [hstore, h.store, inTurn, inTurn, run_concat]
  · refine List.nodup_append.mpr ⟨h.once, by simp, fun a ha b hb hab => ?_⟩
    rw [hab, List.mem_singleton.mp hb] at ha
    exact hnot ha
  · by_cases hj : j = i
    · subst hj
      rw [hresult]
      simp
    · rw [turn_position_ne _ hj, ← h.ended j]
      simp [hj]
  · rcases List.append_eq_append_iff.mp hdone with ⟨m, hp, hlast⟩ | ⟨m, hp, hlast⟩
    · -- the new process is the last one
      rcases m with _ | ⟨x, m⟩
      · obtain ⟨rfl, -⟩ := List.cons.inj hlast
        rw [List.append_nil] at hp
        rw [hresult, h.store, hp]
      · obtain ⟨-, hnil⟩ := List.cons.inj hlast
        exact absurd hnil (by simp)
    · rcases m with _ | ⟨x, m⟩
      · obtain ⟨rfl, -⟩ := List.cons.inj hlast
        rw [List.append_nil] at hp
        rw [hresult, h.store, hp]
      · obtain ⟨rfl, -⟩ := List.cons.inj hlast
        have hj : j ≠ i := fun hji => hnot (hji ▸ hp ▸ by simp)
        rw [turn_position_ne _ hj]
        exact h.results p j m hp

/-- Two processes that have both ended have run one after the other. -/
theorem Serial.of_both {done : List Bool} {w : World Bool σ τ} {exec : Bool → δ → ρ × δ}
    (h : Serial exec view result d done w) (hboth : ∀ i, (result (w.position i)).isSome = true) :
    view w.store = inTurn exec d [false, true] ∨ view w.store = inTurn exec d [true, false] := by
  have hperm : done.Perm [false, true] := by
    refine (List.perm_ext_iff_of_nodup h.once (by decide)).mpr fun i => ?_
    rw [h.ended i, hboth i]
    cases i <;> simp
  have hdone : done = [false, true] ∨ done = [true, false] := by
    simpa [List.permutations] using List.mem_permutations.mpr hperm
  rcases hdone with rfl | rfl
  · exact .inl h.store
  · exact .inr h.store

end Serial

end WezuBackend.Lib.Interleaving
