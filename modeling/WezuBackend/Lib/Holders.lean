import Mathlib.Tactic.Common

/-!
# Exclusive holders

`holds h r` says that the holder `h` has the resource `r`.  Holding is exclusive if no resource has
two holders.  It stays so over a step in which holders may let go of anything, and a holder gains
only what no other one has (`Exclusive.gain`).
-/

namespace WezuBackend.Lib.Holders

variable {η ρ : Type} {holds holds' : η → ρ → Prop}

/-- No resource has two holders. -/
def Exclusive (holds : η → ρ → Prop) : Prop := ∀ r h h', holds h r → holds h' r → h = h'

/-- Only `k` may have the resource. -/
def OnlyFor (holds : η → ρ → Prop) (k : η) (r : ρ) : Prop := ∀ h, holds h r → h = k

theorem exclusive_of_free (h : ∀ k r, ¬ holds k r) : Exclusive holds :=
  fun r k _ hk => absurd hk (h k r)

theorem Exclusive.onlyFor (h : Exclusive holds) {k : η} {r : ρ} (hk : holds k r) :
    OnlyFor holds k r := fun k' hk' => h r k' k hk' hk

/-- **Letting go** keeps holding exclusive. -/
theorem Exclusive.mono (h : Exclusive holds) (hsub : ∀ k r, holds' k r → holds k r) :
    Exclusive holds' := fun r k k' hk hk' => h r k k' (hsub k r hk) (hsub k' r hk')

/-- **Gaining** what only oneself may have keeps holding exclusive. -/
theorem Exclusive.gain (h : Exclusive holds) (k : η)
    (hother : ∀ k' r, holds' k' r → k' ≠ k → holds k' r)
    (honly : ∀ r, holds' k r → OnlyFor holds k r) : Exclusive holds' := by
  intro r h₁ h₂ hr₁ hr₂
  by_cases hk₁ : h₁ = k
  · by_cases hk₂ : h₂ = k
    · rw [hk₁, hk₂]
    · exact hk₁.trans (honly r (hk₁ ▸ hr₁) h₂ (hother h₂ r hr₂ hk₂)).symm
  · by_cases hk₂ : h₂ = k
    · exact (honly r (hk₂ ▸ hr₂) h₁ (hother h₁ r hr₁ hk₁)).trans hk₂.symm
    · exact h r h₁ h₂ (hother h₁ r hr₁ hk₁) (hother h₂ r hr₂ hk₂)

end WezuBackend.Lib.Holders
