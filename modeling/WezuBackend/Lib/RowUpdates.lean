import WezuBackend.Lib.Interleaving

/-!
# Updates of one row by several sessions

Each process reads a value, computes from it a signed change or a refusal, writes the value it has
read plus the change, and commits.  A process that locks takes the lock of the row before it reads;
a write needs the lock in any case, and the lock is held until the end of the session.  A process
that finds the lock taken waits: its turn passes.

* `Locked`: whoever holds the lock, and has read under it, has read the value of the row.
* `drift`: how far the row is from its first value and the committed changes.  A step moves it by
  what a commit has missed (`drift_turn`), and a process that locks misses nothing
  (`missed_of_locks`).
* `exact_iff`: the row is at every moment its first value plus the committed changes if and only if
  every process that does not lock commits on the value it has read.
-/

namespace WezuBackend.Lib.RowUpdates

open Lib.Runs Lib.Interleaving

variable {ι ε G : Type}

/-- The committed value of the row, and who holds its lock. -/
structure LockedRow (ι G : Type) where
  value : G
  owner : Option ι

/-- What a process does with the row. -/
structure Update (ε G : Type) where
  /-- whether it takes the lock before it reads -/
  locks : Bool
  /-- the signed change, or the refusal, from the value it has read -/
  change : G → Except ε G

inductive Phase (ε G : Type) where
  | idle
  | reading (read : G)
  | written (read change : G)
  | committed (change : G)
  | refused (e : ε)

def Phase.committedChange [Zero G] : Phase ε G → G
  | .committed change => change
  | _ => 0

section

variable [DecidableEq ι]

/-- The session of `i` ends. -/
def LockedRow.release (row : LockedRow ι G) (i : ι) : LockedRow ι G :=
  if row.owner = some i then { row with owner := none } else row

/-- The next step of process `i`. -/
def advance [Add G] (u : Update ε G) (i : ι) (row : LockedRow ι G) :
    Phase ε G → LockedRow ι G × Phase ε G
  | .idle =>
    if u.locks then
      if row.owner = none then ({ row with owner := some i }, .reading row.value)
      else (row, .idle)
    else (row, .reading row.value)
  | .reading read =>
    match u.change read with
    | .error e => (row.release i, .refused e)
    | .ok change =>
      if row.owner = none ∨ row.owner = some i then
        ({ row with owner := some i }, .written read change)
      else (row, .reading read)
  | .written read change => (⟨read + change, none⟩, .committed change)
  | .committed change => (row, .committed change)
  | .refused e => (row, .refused e)

/-- The next step of process `i`. -/
def next [Add G] (u : ι → Update ε G) : World ι (LockedRow ι G) (Phase ε G) → ι →
    World ι (LockedRow ι G) (Phase ε G) := turn fun i => advance (u i) i

end

/-! ## The lock -/

/-- The process has the lock of the row. -/
def Phase.Holds (u : Update ε G) : Phase ε G → Prop
  | .reading _ => u.locks = true
  | .written _ _ => True
  | _ => False

/-- What an open process has read. -/
def Phase.read : Phase ε G → Option G
  | .reading read => some read
  | .written read _ => some read
  | _ => none

theorem Phase.holds_of_read {u : Update ε G} (hu : u.locks = true) {phase : Phase ε G} {v : G}
    (h : phase.read = some v) : phase.Holds u := by
  cases phase with
  | reading _ => exact hu
  | written _ _ => trivial
  | idle => cases h
  | committed _ => cases h
  | refused _ => cases h

/-- Whoever has the lock is its owner; and what is read under the lock is the value of the row. -/
structure Locked (u : ι → Update ε G) (w : World ι (LockedRow ι G) (Phase ε G)) : Prop where
  owner : ∀ i, (w.position i).Holds (u i) → w.store.owner = some i
  read : ∀ i v, (u i).locks = true → (w.position i).read = some v → v = w.store.value

section Lock

variable [DecidableEq ι] [Add G] {u : Update ε G} {i j : ι} {row : LockedRow ι G}
  {phase : Phase ε G}

omit [Add G] in
@[simp] theorem release_value : (row.release i).value = row.value := by
  unfold LockedRow.release
  split_ifs <;> rfl

theorem advance_of_owner (h : row.owner = some j) (hij : j ≠ i) (hi : ¬ phase.Holds u) :
    (advance u i row phase).1 = row := by
  have hnone : row.owner ≠ none := by simp [h]
  have hother : row.owner ≠ some i := by simp [h, hij]
  cases phase with
  | idle =>
    simp only [advance, if_neg hnone]
    split_ifs <;> rfl
  | reading read =>
    simp only [advance, if_neg (not_or.mpr ⟨hnone, hother⟩)]
    split
    · exact if_neg hother
    · rfl
  | written read change => exact absurd trivial hi
  | committed change => rfl
  | refused e => rfl

theorem owner_of_holds (h : phase.Holds u → row.owner = some i)
    (h' : (advance u i row phase).2.Holds u) : (advance u i row phase).1.owner = some i := by
  cases phase with
  | idle =>
    simp only [advance] at h' ⊢
    split_ifs at h' ⊢ with hu hfree
    · rfl
    · exact absurd h' (by simp [Phase.Holds])
    · exact absurd h' hu
  | reading read =>
    simp only [advance] at h' ⊢
    split at h' <;> try split_ifs at h' with hfree
    · exact absurd h' (by simp [Phase.Holds])
    · simp only [if_pos hfree]
    · simp only [if_neg hfree]
      exact h h'
  | written read change => exact absurd h' (by simp [advance, Phase.Holds])
  | committed change => exact absurd h' (by simp [advance, Phase.Holds])
  | refused e => exact absurd h' (by simp [advance, Phase.Holds])

theorem read_advance {v : G} (h : ∀ v, phase.read = some v → v = row.value)
    (h' : (advance u i row phase).2.read = some v) : v = (advance u i row phase).1.value := by
  cases phase with
  | idle =>
    simp only [advance] at h' ⊢
    split_ifs at h' ⊢ with hu hfree
    · exact (Option.some.inj h').symm
    · cases h'
    · exact (Option.some.inj h').symm
  | reading read =>
    simp only [advance] at h' ⊢
    split at h' <;> try split_ifs at h' with hfree
    · cases h'
    · simp only [if_pos hfree]
      exact h v h'
    · simp only [if_neg hfree]
      exact h v h'
  | written read change => cases h'
  | committed change => cases h'
  | refused e => cases h'

end Lock

section Run

variable {u : ι → Update ε G}

theorem locked_start (v : G) : Locked u (.start ⟨v, none⟩ .idle) :=
  ⟨fun _ h => absurd h (by simp [World.start, Phase.Holds]), fun _ _ _ h => by cases h⟩

/-- **The lock** is kept by every step. -/
theorem Locked.turn [DecidableEq ι] [Add G] {w : World ι (LockedRow ι G) (Phase ε G)}
    (h : Locked u w) (i : ι) :
    Locked u (next u w i) := by
  have hrow : ∀ j, j ≠ i → (w.position j).Holds (u j) → (next u w i).store = w.store := by
    intro j hij hj
    refine advance_of_owner (h.owner j hj) hij fun hi => hij ?_
    exact Option.some.inj ((h.owner j hj).symm.trans (h.owner i hi))
  constructor
  · intro j hj
    by_cases hij : j = i
    · subst hij
      rw [next, turn_position_self] at hj
      exact owner_of_holds (h.owner j) hj
    · rw [next, turn_position_ne _ hij] at hj
      rw [hrow j hij hj]
      exact h.owner j hj
  · intro j v hu hv
    by_cases hij : j = i
    · subst hij
      rw [next, turn_position_self] at hv
      exact read_advance (fun v => h.read j v hu) hv
    · rw [next, turn_position_ne _ hij] at hv
      rw [hrow j hij (Phase.holds_of_read hu hv)]
      exact h.read j v hu hv

end Run

/-! ## Lost updates -/

section Drift

variable [DecidableEq ι] [Fintype ι] [AddCommGroup G] {u : ι → Update ε G}

def committedChanges (w : World ι (LockedRow ι G) (Phase ε G)) : G :=
  ∑ i, (w.position i).committedChange

def drift (w : World ι (LockedRow ι G) (Phase ε G)) : G := w.store.value - committedChanges w

/-- What the value that a process is about to commit was computed from, less the value it
overwrites. -/
def missed (w : World ι (LockedRow ι G) (Phase ε G)) (i : ι) : G :=
  match w.position i with
  | .written read _ => read - w.store.value
  | _ => 0

theorem committedChanges_turn (w : World ι (LockedRow ι G) (Phase ε G)) (i : ι) :
    committedChanges (next u w i) = committedChanges w - (w.position i).committedChange +
      ((next u w i).position i).committedChange := by
  have hsum := sum_position_update Phase.committedChange w.position i ((next u w i).position i)
  have hposition : (next u w i).position =
      Function.update w.position i ((next u w i).position i) := by
    rw [next, turn_position_self]
    rfl
  rw [← hposition] at hsum
  unfold committedChanges
  rw [eq_sub_of_add_eq hsum]
  abel

/-- **What a step does to the drift**: it adds what a commit has missed. -/
theorem drift_turn (w : World ι (LockedRow ι G) (Phase ε G)) (i : ι) :
    drift (next u w i) = drift w + missed w i := by
  have hstore : (next u w i).store = (advance (u i) i w.store (w.position i)).1 := rfl
  have hposition : (next u w i).position i = (advance (u i) i w.store (w.position i)).2 :=
    turn_position_self _ _
  unfold drift missed
  rw [committedChanges_turn, hstore, hposition]
  cases hphase : w.position i with
  | idle =>
    simp only [advance]
    split_ifs <;> simp [Phase.committedChange]
  | reading read =>
    simp only [advance]
    split <;> try split_ifs
    all_goals simp [Phase.committedChange]
  | written read change =>
    simp only [advance, Phase.committedChange]
    abel
  | committed change => simp [advance, Phase.committedChange]
  | refused e => simp [advance, Phase.committedChange]

omit [DecidableEq ι] [Fintype ι] in
theorem missed_of_locks {w : World ι (LockedRow ι G) (Phase ε G)} (h : Locked u w) {i : ι}
    (hi : (u i).locks = true) : missed w i = 0 := by
  unfold missed
  split
  · next read change hphase =>
    rw [h.read i read hi (by rw [hphase]; rfl), sub_self]
  · rfl

/-- The process does not lock, is about to commit, and has not read the value that is there. -/
def Stale (u : ι → Update ε G) (w : World ι (LockedRow ι G) (Phase ε G)) (i : ι) : Prop :=
  (u i).locks = false ∧ ∃ read change, w.position i = .written read change ∧ read ≠ w.store.value

theorem drift_turn_iff {w : World ι (LockedRow ι G) (Phase ε G)} (h : Locked u w) (i : ι) :
    drift (next u w i) = drift w ↔ ¬ Stale u w i := by
  rw [drift_turn, add_eq_left]
  by_cases hi : (u i).locks = true
  · simp [missed_of_locks h hi, Stale, hi]
  · unfold missed Stale
    split
    · next read change hphase => simp [hi, hphase, sub_eq_zero]
    · next hphase =>
      simp only [true_iff]
      rintro ⟨-, read, change, hw, -⟩
      exact hphase read change hw

/-- **No lost update** at any moment, if and only if no process that does not lock commits on a
value that is no longer there. -/
theorem exact_iff (u : ι → Update ε G) (v : G) (schedule : List ι) :
    (∀ p q, schedule = p ++ q → (run (next u) (.start ⟨v, none⟩ .idle) p).store.value =
        v + committedChanges (run (next u) (.start ⟨v, none⟩ .idle) p)) ↔
      Along (next u) (fun w i => ¬ Stale u w i) (.start ⟨v, none⟩ .idle) schedule := by
  have hstart : drift (World.start ⟨v, none⟩ .idle : World ι (LockedRow ι G) (Phase ε G)) = v := by
    simp [drift, committedChanges, World.start, Phase.committedChange]
  have hcongr := @along_congr _ _ (next u) (Locked u) _ _ _ (fun _ i h => h.turn i)
    (fun _ i h => drift_turn_iff h i) (locked_start v) schedule
  rw [← hcongr, ← constant_iff_along, hstart]
  refine forall₃_congr fun p q hp => ?_
  rw [drift, sub_eq_iff_eq_add]

end Drift

end WezuBackend.Lib.RowUpdates
