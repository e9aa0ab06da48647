import WezuBackend.Rental.Initiation

/-!
# The cap on a user's live rentals

A call counts the user's live rentals, and only then locks a row, and that row is the battery's.
Two calls of one user for different batteries wait for nothing of each other's: both may count
before either commits.

Only a commit adds a live rental, one at a time (`advance_live`).  So the cap is passed by a commit
that finds all places taken.  Its call found one free when it counted; another call has taken it in
between (`Overtaken`, by `interference`).
-/

namespace WezuBackend.Rental.RentalCap

open Lib.Tables Lib.Runs Lib.Interleaving Core.Base Core.Letters
open Fleet.Model Rental.Service Rental.Effects Rental.Initiation

def live (userId : ℕ) (db : Db) : ℕ := (liveRentals userId db).length

/-- All places of the user are taken. -/
def Full (maxActive userId : ℕ) (db : Db) : Prop := max 1 maxActive ≤ live userId db

/-- The call has counted and has not ended. -/
def Busy : Stage → Prop
  | .called => False
  | .cleaned => False
  | .ended _ => False
  | _ => True

section

variable [Casing]

variable {db db' : Db}

theorem cleanup_live {now userId : ℕ} {who : Option ℕ} {result : Except Exc ℕ}
    (h : (cleanupStalePendingRentals now who).call db = (result, db')) :
    live userId db' ≤ live userId db := by
  have hkeeps := keeps_cleanup (I := fun d => live userId d ≤ live userId db) now
    (fun r s t u _ _ hcancel hs => ?_) who
  · have hcall := hkeeps.call (s := db) le_rfl
    rw [h] at hcall
    exact hcall
  · refine le_trans ?_ hs
    unfold live liveRentals
    rw [(cancelStale_ok hcancel).1]
    exact Table.length_filter_set_le (by simp [isLive])

omit [Casing] in
theorem written_live {userId who : ℕ} {price : PriceDetails} {rental : Rental}
    (h : Written who price rental db db') :
    live userId db' = live userId db + if who = userId then 1 else 0 := by
  have hlive : isLive rental := .inr h.status
  unfold live liveRentals Table.filter
  rw [h.rentals, List.filter_append, List.length_append]
  congr 1
  by_cases hwho : who = userId
  · rw [if_pos hwho, List.filter_cons_of_pos (by simp [h.user, hwho, hlive])]
    rfl
  · rw [if_neg hwho, List.filter_cons_of_neg (by simp [h.user, hwho])]
    rfl

variable {ι : Type} [DecidableEq ι] {maxActive userId : ℕ}

/-- The next step of call `i` commits its rental. -/
def Commits (maxActive : ℕ) (request : Request) (i : ι) (store : Store ι) (stage : Stage) : Prop :=
  Busy stage ∧ ∃ rental, (advance maxActive request i store stage).2 = .ended (.ok rental)

/-- **What a step does to the live rentals**: it leaves them or cancels some, or it commits one. -/
theorem advance_live (userId : ℕ) (request : Request) (i : ι) (store : Store ι) (stage : Stage) :
    (¬ Commits maxActive request i store stage ∧
      live userId (advance maxActive request i store stage).1.db ≤ live userId store.db) ∨
    (Commits maxActive request i store stage ∧
      live userId (advance maxActive request i store stage).1.db =
        live userId store.db + if request.userId = userId then 1 else 0) := by
  have hmoves := advance_moves maxActive request i store stage
  unfold Commits
  generalize advance maxActive request i store stage = out at hmoves ⊢
  cases hmoves with
  | stays =>
    refine .inl ⟨?_, le_rfl⟩
    rintro ⟨hbusy, rental, rfl⟩
    exact hbusy
  | raised e => exact .inl ⟨by rintro ⟨-, _, ⟨⟩⟩, le_rfl⟩
  | cleanupRaised e h => exact .inl ⟨fun h => h.1, cleanup_live h⟩
  | cleaned h => exact .inl ⟨fun h => h.1, cleanup_live h⟩
  | counted h => exact .inl ⟨fun h => h.1, le_rfl⟩
  | locked hfree h => exact .inl ⟨by rintro ⟨-, _, ⟨⟩⟩, le_rfl⟩
  | priced hfree h => exact .inl ⟨by rintro ⟨-, _, ⟨⟩⟩, le_rfl⟩
  | promoTaken h => exact .inl ⟨by rintro ⟨-, _, ⟨⟩⟩, le_rfl⟩
  | inserted battery price => exact .inl ⟨by rintro ⟨-, _, ⟨⟩⟩, le_rfl⟩
  | @committed battery price rental t h =>
    exact .inr ⟨⟨trivial, rental, rfl⟩, written_live (writeRental_ok h)⟩

/-! ## The cap -/

/-- A call of the user commits its rental when all places are taken.  When it counted, one was free;
another call has taken the last one since. -/
def Overtaken (maxActive userId : ℕ) (requests : ι → Request) (db : Db) (schedule : List ι) :
    Prop :=
  ∃ p b q a r, schedule = p ++ b :: (q ++ a :: r) ∧ b ≠ a ∧
    (requests a).userId = userId ∧
    Busy ((run (next maxActive requests) (start db) p).position a) ∧
    ¬ Full maxActive userId (run (next maxActive requests) (start db) p).store.db ∧
    Full maxActive userId (run (next maxActive requests) (start db) (p ++ [b])).store.db ∧
    Full maxActive userId (run (next maxActive requests) (start db) (p ++ b :: q)).store.db ∧
    Commits maxActive (requests a) a (run (next maxActive requests) (start db) (p ++ b :: q)).store
      ((run (next maxActive requests) (start db) (p ++ b :: q)).position a)

/-- A call that is at work with all places taken has been overtaken. -/
theorem overtaken_of_full {requests : ι → Request} {a : ι} (ha : (requests a).userId = userId)
    {db : Db} {os : List ι}
    (hbusy : Busy ((run (next maxActive requests) (start db) os).position a))
    (hfull : Full maxActive userId (run (next maxActive requests) (start db) os).store.db) :
    ∃ p b q, os = p ++ b :: q ∧ b ≠ a ∧
      Busy ((run (next maxActive requests) (start db) p).position a) ∧
      ¬ Full maxActive userId (run (next maxActive requests) (start db) p).store.db ∧
      Full maxActive userId (run (next maxActive requests) (start db) (p ++ [b])).store.db := by
  refine interference (P := fun store : Store ι => Full maxActive userId store.db)
    (fun store stage hidle hstarts => ?_) (fun store stage hfree htaken hstill => ?_) ?_ os hbusy
    hfull
  · have hmoves := advance_moves maxActive (requests a) a store stage
    generalize advance maxActive (requests a) a store stage = out at hmoves hstarts ⊢
    cases hmoves with
    | stays => exact absurd hstarts hidle
    | raised e => exact absurd hstarts id
    | cleanupRaised e h => exact absurd hstarts id
    | cleaned h => exact absurd hstarts id
    | counted h =>
      rw [ha] at h
      exact not_le_of_gt h
    | locked hfree h => exact absurd trivial hidle
    | priced hfree h => exact absurd trivial hidle
    | promoTaken h => exact absurd trivial hidle
    | inserted battery price => exact absurd trivial hidle
    | committed h => exact absurd hstarts id
  · rcases advance_live userId (requests a) a store stage with ⟨-, hle⟩ | ⟨hcommits, -⟩
    · exact hfree (le_trans htaken hle)
    · obtain ⟨-, rental, hended⟩ := hcommits
      rw [hended] at hstill
      exact hstill
  · exact id

/-- **The cap.**  A user within the cap stays within it if and only if none of the user's calls
commits a rental after another one has taken the last place. -/
theorem rentals_capped (requests : ι → Request) (db : Db)
    (hstart : live userId db ≤ max 1 maxActive) (schedule : List ι) :
    (∀ p q, schedule = p ++ q →
      live userId (run (next maxActive requests) (start db) p).store.db ≤ max 1 maxActive) ↔
      ¬ Overtaken maxActive userId requests db schedule := by
  constructor
  · rintro hcap ⟨p, b, q, a, r, hschedule, -, ha, -, -, -, hfull, hcommits⟩
    have hlive := hcap (p ++ b :: q ++ [a]) r (by rw [hschedule]; simp)
    rw [run_concat, next_store] at hlive
    rcases advance_live userId (requests a) a
      (run (next maxActive requests) (start db) (p ++ b :: q)).store
      ((run (next maxActive requests) (start db) (p ++ b :: q)).position a) with
      ⟨hnot, -⟩ | ⟨-, hone⟩
    · exact hnot hcommits
    · rw [if_pos ha] at hone
      unfold Full at hfull
      omega
  · intro hnot p
    induction p using List.reverseRecOn with
    | nil => exact fun _ _ => hstart
    | append_singleton p a ih =>
      intro q hschedule
      have hbefore := ih (a :: q) (by rw [hschedule]; simp)
      rw [run_concat, next_store]
      rcases advance_live userId (requests a) a
        (run (next maxActive requests) (start db) p).store
        ((run (next maxActive requests) (start db) p).position a) with ⟨-, hle⟩ | ⟨hcommits, hone⟩
      · exact le_trans hle hbefore
      · by_cases ha : (requests a).userId = userId
        · by_cases hfull : Full maxActive userId
            (run (next maxActive requests) (start db) p).store.db
          · obtain ⟨p', b, q', rfl, hb, hbusy, hfree, htaken⟩ :=
              overtaken_of_full ha hcommits.1 hfull
            refine absurd ⟨p', b, q', a, q, ?_, hb, ha, hbusy, hfree, htaken, hfull, hcommits⟩ hnot
            rw [hschedule]
            simp
          · rw [hone, if_pos ha]
            unfold Full at hfull
            omega
        · rw [hone, if_neg ha]
          exact hbefore

end

/-- Two calls of one user for two batteries. -/
def twice : Bool → Request
  | false => { now := 100, userId := 1, rentalIn := ⟨7, 3, 1, none⟩ }
  | true => { now := 100, userId := 1, rentalIn := ⟨8, 3, 1, none⟩ }

/-- Both count before either commits. -/
def countedTogether : List Bool :=
  [false, false, true, true] ++ List.replicate 5 false ++ List.replicate 5 true

theorem live_countedTogether :
    live 1 (run (next 1 twice) (start shop) countedTogether).store.db = 2 := by
  decide +kernel

theorem rentals_capped_sample : Overtaken 1 1 twice shop countedTogether := by
  by_contra hnot
  have hcap := (rentals_capped twice shop (by decide) countedTogether).mpr hnot countedTogether []
    (List.append_nil _).symm
  rw [live_countedTogether] at hcap
  exact absurd hcap (by decide)

theorem cap_passed : ¬ ∀ requests : Bool → Request, (∀ i, (requests i).userId = 1) →
    (requests false).rentalIn.batteryId ≠ (requests true).rentalIn.batteryId →
    ∀ schedule, live 1 (run (next 1 requests) (start shop) schedule).store.db ≤ max 1 1 := by
  intro hclaim
  have hcap := hclaim twice (fun i => by cases i <;> rfl) (by decide) countedTogether
  rw [live_countedTogether] at hcap
  exact absurd hcap (by decide)

end WezuBackend.Rental.RentalCap
