import Mathlib.Order.Lattice

/-!
# Windows of time

A window has a start and may have a stop; without one it goes on for ever.  Two windows overlap if
each begins before the other one stops.
-/

namespace WezuBackend.Lib.Windows

structure Window (α : Type) where
  start : α
  stop : Option α := none

namespace Window

variable {α : Type} [LinearOrder α]

def OpenAt (w : Window α) (t : α) : Prop := ∀ stop ∈ w.stop, t < stop

instance (w : Window α) (t : α) : Decidable (w.OpenAt t) := by
  unfold OpenAt
  infer_instance

/-- Each begins before the other one stops. -/
def Overlaps (w w' : Window α) : Prop := w.OpenAt w'.start ∧ w'.OpenAt w.start

instance (w w' : Window α) : Decidable (w.Overlaps w') := by
  unfold Overlaps
  infer_instance

@[simp] theorem openAt_none (start t : α) : OpenAt ⟨start, none⟩ t := nofun

@[simp] theorem openAt_some (start stop t : α) : OpenAt ⟨start, some stop⟩ t ↔ t < stop := by
  simp [OpenAt]

theorem overlaps_comm {w w' : Window α} : w.Overlaps w' ↔ w'.Overlaps w := and_comm

end Window

end WezuBackend.Lib.Windows
