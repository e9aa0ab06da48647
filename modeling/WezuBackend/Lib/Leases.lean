import Mathlib.Data.Option.Basic
import Mathlib.Tactic.Common

/-!
# Leases

A slot that one holder at a time writes its token into, for a limited time: it is taken when it is
free, and extended or released by the holder's token only.  What one token does leaves the lease of
another one alone (`acquire_of_some`, `extend_of_not_holds`, `release_of_not_holds`).
-/

namespace WezuBackend.Lib.Leases

variable {τ : Type} [DecidableEq τ]

structure Lease (τ : Type) where
  token : τ
  expiresAt : ℕ
  deriving DecidableEq, Repr

abbrev Slot (τ : Type) : Type := Option (Lease τ)

/-- The slot at a later time. -/
def expire (now : ℕ) (s : Slot τ) : Slot τ := s.filter fun l => now < l.expiresAt

/-- The slot is taken, if it is free. -/
def acquire (token : τ) (expiresAt : ℕ) (s : Slot τ) : Slot τ := s.or (some ⟨token, expiresAt⟩)

def extend (token : τ) (expiresAt : ℕ) (s : Slot τ) : Slot τ :=
  s.map fun l => if l.token = token then { l with expiresAt } else l

def release (token : τ) (s : Slot τ) : Slot τ := s.filter fun l => l.token ≠ token

def Holds (s : Slot τ) (token : τ) : Prop := ∃ l ∈ s, l.token = token

instance (s : Slot τ) (token : τ) : Decidable (Holds s token) :=
  match h : s with
  | none => .isFalse (by rintro ⟨l, hl, -⟩; cases hl)
  | some l => decidable_of_iff (l.token = token)
      ⟨fun ht => ⟨l, rfl, ht⟩, by rintro ⟨x, hx, ht⟩; cases hx; exact ht⟩

variable {s : Slot τ} {t u : τ} {now expiresAt : ℕ}

omit [DecidableEq τ] in
theorem Holds.unique (ht : Holds s t) (hu : Holds s u) : t = u := by
  obtain ⟨l, hl, rfl⟩ := ht
  obtain ⟨l', hl', rfl⟩ := hu
  rw [Option.mem_unique hl hl']

omit [DecidableEq τ] in
@[simp] theorem acquire_of_some {l : Lease τ} : acquire t expiresAt (some l) = some l := rfl

omit [DecidableEq τ] in
theorem holds_acquire : Holds (acquire t expiresAt s) u ↔ Holds s u ∨ s = none ∧ t = u := by
  cases s with
  | none =>
    constructor
    · rintro ⟨l, hl, rfl⟩
      cases hl
      exact .inr ⟨rfl, rfl⟩
    · rintro (⟨l, hl, -⟩ | ⟨-, rfl⟩)
      · cases hl
      · exact ⟨_, rfl, rfl⟩
  | some l => simp

theorem extend_of_not_holds (h : ¬ Holds s t) : extend t expiresAt s = s := by
  cases s with
  | none => rfl
  | some l =>
    have hl : l.token ≠ t := fun hl => h ⟨l, rfl, hl⟩
    simp [extend, hl]

@[simp] theorem holds_extend : Holds (extend t expiresAt s) u ↔ Holds s u := by
  cases s with
  | none => rfl
  | some l => by_cases hl : l.token = t <;> simp [Holds, extend, hl]

theorem release_of_not_holds (h : ¬ Holds s t) : release t s = s := by
  cases s with
  | none => rfl
  | some l =>
    have hl : l.token ≠ t := fun hl => h ⟨l, rfl, hl⟩
    simp [release, hl]

theorem holds_release : Holds (release t s) u ↔ Holds s u ∧ u ≠ t := by
  cases s with
  | none => simp [Holds, release]
  | some l =>
    by_cases hl : l.token = t
    · simp only [Holds, release, Option.mem_def, Option.filter_eq_some_iff]
      constructor
      · rintro ⟨x, ⟨hx, hne⟩, -⟩
        cases hx
        simp [hl] at hne
      · rintro ⟨⟨x, hx, hxu⟩, hne⟩
        cases hx
        exact absurd (hxu.symm.trans hl) hne
    · simp [Holds, release, hl]
      rintro rfl
      exact hl

end WezuBackend.Lib.Leases
