import WezuBackend.Lib.Runs
import Mathlib.Data.List.Perm.Basic
import Mathlib.Data.List.Nodup

/-!
# Updates that act on one key each

A state gives every key a value.  An update has a key: the value under it decides whether the update
is accepted, and is all that the update changes.  Updates with pairwise different keys do not see
each other, so a list of them goes through if and only if the first state accepts each
(`along_iff_forall`), and neither that nor the state in which it ends depends on the order
(`along_perm`, `run_perm`).
-/

namespace WezuBackend.Lib.LocalUpdates

open Lib.Runs

variable {κ ν υ : Type} [DecidableEq κ] (key : υ → κ) (effect : υ → ν → ν)
  (accepts : υ → ν → Prop)

/-- The state after an update. -/
def apply (v : κ → ν) (u : υ) : κ → ν := Function.update v (key u) (effect u (v (key u)))

/-- The value under its key accepts the update. -/
def Accepted (v : κ → ν) (u : υ) : Prop := accepts u (v (key u))

variable {key effect accepts}

theorem apply_self (v : κ → ν) (u : υ) :
    apply key effect v u (key u) = effect u (v (key u)) := Function.update_self _ _ _

variable {u : υ}

theorem apply_of_ne {k : κ} (h : k ≠ key u) (v : κ → ν) :
    apply key effect v u k = v k := Function.update_of_ne h _ _

variable {us : List υ}

theorem run_of_ne {k : κ} (h : ∀ u ∈ us, k ≠ key u) (v : κ → ν) :
    run (apply key effect) v us k = v k := by
  induction us generalizing v with
  | nil => rfl
  | cons u us ih =>
    rw [run_cons, ih (fun x hx => h x (List.mem_cons_of_mem _ hx)),
      apply_of_ne (h u List.mem_cons_self)]

omit [DecidableEq κ] in
theorem ne_of_nodup (h : ((u :: us).map key).Nodup) :
    ∀ x ∈ us, key u ≠ key x := by
  intro x hx heq
  rw [List.map_cons, List.nodup_cons] at h
  exact h.1 (List.mem_map.mpr ⟨x, hx, heq.symm⟩)

theorem run_of_mem (hus : (us.map key).Nodup) (hu : u ∈ us) (v : κ → ν) :
    run (apply key effect) v us (key u) = effect u (v (key u)) := by
  induction us generalizing v with
  | nil => cases hu
  | cons x us ih =>
    rw [run_cons]
    rcases List.mem_cons.mp hu with rfl | hmem
    · rw [run_of_ne (ne_of_nodup hus), apply_self]
    · rw [ih (List.Nodup.of_cons hus) hmem, apply_of_ne (Ne.symm (ne_of_nodup hus u hmem))]

/-- **Each update meets the first state.** -/
theorem along_iff_forall (hus : (us.map key).Nodup) (v : κ → ν) :
    Along (apply key effect) (Accepted key accepts) v us ↔ ∀ u ∈ us, accepts u (v (key u)) := by
  induction us generalizing v with
  | nil => exact iff_of_true trivial nofun
  | cons x us ih =>
    rw [Along, ih (List.Nodup.of_cons hus), List.forall_mem_cons]
    refine and_congr_right fun _ => forall₂_congr fun u hu => ?_
    rw [apply_of_ne (Ne.symm (ne_of_nodup hus u hu))]

theorem along_perm {us us' : List υ} (hperm : us.Perm us') (hus : (us.map key).Nodup) (v : κ → ν) :
    Along (apply key effect) (Accepted key accepts) v us ↔
      Along (apply key effect) (Accepted key accepts) v us' := by
  rw [along_iff_forall hus, along_iff_forall ((hperm.map key).nodup_iff.mp hus)]
  exact forall_congr' fun u => imp_congr_left hperm.mem_iff

/-- **The order does not matter.** -/
theorem run_perm {us us' : List υ} (hperm : us.Perm us') (hus : (us.map key).Nodup) (v : κ → ν) :
    run (apply key effect) v us = run (apply key effect) v us' := by
  have hus' : (us'.map key).Nodup := (hperm.map key).nodup_iff.mp hus
  funext k
  by_cases hk : ∃ u ∈ us, k = key u
  · obtain ⟨u, hu, rfl⟩ := hk
    rw [run_of_mem hus hu, run_of_mem hus' (hperm.mem_iff.mp hu)]
  · push Not at hk
    rw [run_of_ne hk, run_of_ne fun u hu => hk u (hperm.mem_iff.mpr hu)]

end WezuBackend.Lib.LocalUpdates
