import WezuBackend.Rental.Initiation

/-!
# A promo code is used as often as rentals are committed with it

A call that has its price holds the lock of the promo code's row (`Locked`), so nobody else writes
that row, and the use that it was left when the price was checked is still left when the call
commits.  Only a commit writes a promo code; it takes one use of the promo code it was priced with
(`accounted_next`).  A call that raises has written nothing.
-/

namespace WezuBackend.Rental.PromoUses

open Lib.Tables Lib.Atomicity Lib.Runs Lib.Interleaving Core.Letters
open Fleet.Model Rental.Service Rental.Initiation

/-! ## The rows of the promo codes -/

/-- The price that a call has fixed. -/
def priceOf : Stage → Option PriceDetails
  | .priced _ price => some price
  | .promoTaken _ price => some price
  | .inserted _ price => some price
  | _ => none

/-- The call has priced its rental with the promo code `k`. -/
def Uses (k : ℕ) (stage : Stage) : Prop :=
  ∃ price, priceOf stage = some price ∧ price.promoCodeId = some k

/-- The promo code `k` has a use left. -/
def HasUse (k : ℕ) (promoCodes : Table PromoCode) : Prop :=
  ∃ promo, promoCodes.get? k = some promo ∧
    (0 < promo.usageLimit → promo.usageCount < promo.usageLimit)

variable {k : ℕ}

theorem usedPromo_eq {price : PriceDetails} (hk : k ≠ 0) :
    usedPromo price = some k ↔ price.promoCodeId = some k := by
  unfold usedPromo
  rw [Option.filter_eq_some_iff]
  simp [hk]

theorem get?_withUse (price : PriceDetails) (promoCodes : Table PromoCode) (k : ℕ) :
    (withUse price promoCodes).get? k = (promoCodes.get? k).map fun p =>
      if usedPromo price = some k then { p with usageCount := p.usageCount + 1 } else p := by
  unfold withUse
  rcases usedPromo price with _ | k'
  · rw [Option.elim_none]
    simp
  · rw [Option.elim_some, Table.get?_update]
    rcases hget : promoCodes.get? k with _ | p
    · rfl
    · have hid : p.id = k := (Table.get?_eq_some.mp hget).2
      rw [Option.map_some, Option.map_some, hid]
      by_cases hk : k = k'
      · rw [if_pos (decide_eq_true hk), if_pos (hk ▸ rfl)]
      · rw [if_neg (by simpa using hk), if_neg fun h => hk (Option.some.inj h).symm]

section

variable {ι : Type}

variable {i j : ι} {lock : ℕ → Option ι}

variable {row : Option ℕ}

theorem withRow_of_ne (hfree : ∀ k ∈ row, Free lock k i) (h : lock k = some j) (hj : j ≠ i) :
    withRow lock row i k = some j := by
  rcases row with _ | k'
  · exact h
  · have hne : k ≠ k' := by
      rintro rfl
      exact hj (hfree k rfl j h)
    exact (Function.update_of_ne hne _ _).trans h

theorem withRow_self (h : row = some k) (i : ι) :
    withRow lock row i k = some i := by
  rw [h]
  exact Function.update_self _ _ _

variable [DecidableEq ι]

theorem released_of_ne (h : lock k = some j) (hj : j ≠ i) : released lock i k = some j := by
  unfold released
  rw [h, Option.filter_some, if_pos (by simpa using hj)]

variable [Casing]

variable {maxActive : ℕ} {out : Store ι × Stage} {request : Request} {stage : Stage}
   {store : Store ι}

/-- A step of a call leaves the rows of promo codes alone that other calls have locked, and the
locks. -/
theorem moves_frame (h : Moves maxActive request i store stage out)
    (hmine : ∀ k, Uses k stage → store.promoLock k = some i) (hj : j ≠ i)
    (hlock : store.promoLock k = some j) :
    out.1.promoLock k = some j ∧ out.1.db.promoCodes.get? k = store.db.promoCodes.get? k := by
  cases h with
  | stays => exact ⟨hlock, rfl⟩
  | raised e => exact ⟨released_of_ne hlock hj, rfl⟩
  | cleanupRaised e h =>
    exact ⟨released_of_ne hlock hj, congrArg (fun t => Table.get? t k) (cleanup_frame h).1⟩
  | cleaned h => exact ⟨hlock, congrArg (fun t => Table.get? t k) (cleanup_frame h).1⟩
  | counted h => exact ⟨hlock, rfl⟩
  | locked hfree h => exact ⟨hlock, rfl⟩
  | priced hfree h => exact ⟨withRow_of_ne hfree hlock hj, rfl⟩
  | promoTaken h => exact ⟨hlock, rfl⟩
  | inserted battery price => exact ⟨hlock, rfl⟩
  | @committed battery price rental t h =>
    have hother : usedPromo price ≠ some k := by
      intro hused
      have hpriced := (Option.filter_eq_some_iff.mp hused).1
      rw [hmine k ⟨price, rfl, hpriced⟩] at hlock
      exact hj (Option.some.inj hlock).symm
    have hrow : t.working.promoCodes.get? k = store.db.promoCodes.get? k := by
      rw [(writeRental_ok h).promoCodes, get?_withUse]
      simp only [if_neg hother]
      exact Option.map_id'
    exact ⟨released_of_ne hlock hj, hrow⟩

/-! ## Whoever has a price has the row locked -/

/-- The promo code that a call has priced its rental with is locked by it and has a use left. -/
def Locked (w : World ι (Store ι) Stage) : Prop :=
  ∀ i k, Uses k (w.position i) →
    w.store.promoLock k = some i ∧ HasUse k w.store.db.promoCodes

theorem moves_uses {i : ι} (h : Moves maxActive request i store stage out)
    (hbefore : Uses k stage → store.promoLock k = some i ∧ HasUse k store.db.promoCodes)
    (hafter : Uses k out.2) :
    out.1.promoLock k = some i ∧ HasUse k out.1.db.promoCodes := by
  cases h with
  | stays => exact hbefore hafter
  | raised e => obtain ⟨_, ⟨⟩, -⟩ := hafter
  | cleanupRaised e h => obtain ⟨_, ⟨⟩, -⟩ := hafter
  | cleaned h => obtain ⟨_, ⟨⟩, -⟩ := hafter
  | counted h => obtain ⟨_, ⟨⟩, -⟩ := hafter
  | locked hfree h => obtain ⟨_, ⟨⟩, -⟩ := hafter
  | @priced battery price hfree h =>
    obtain ⟨_, ⟨⟩, hpriced⟩ := hafter
    obtain ⟨hrow, huses⟩ := calculatePrice_promo h
    have huse : HasUse k store.db.promoCodes := huses k hpriced
    exact ⟨withRow_self (hrow.symm.trans hpriced) i, huse⟩
  | promoTaken h => exact hbefore hafter
  | inserted battery price => exact hbefore hafter
  | committed h => obtain ⟨_, ⟨⟩, -⟩ := hafter

theorem locked_next (maxActive : ℕ) (requests : ι → Request) (w : World ι (Store ι) Stage) (i : ι)
    (hw : Locked w) : Locked (next maxActive requests w i) := by
  have hmoves := advance_moves maxActive (requests i) i w.store (w.position i)
  intro j k hj
  by_cases hij : j = i
  · subst hij
    have hj' : Uses k (advance maxActive (requests j) j w.store (w.position j)).2 := by
      rwa [next, turn_position_self] at hj
    exact moves_uses hmoves (hw j k) hj'
  · rw [next, turn_position_ne _ hij] at hj
    obtain ⟨hlock, huse⟩ := hw j k hj
    obtain ⟨hlock', hrow⟩ := moves_frame hmoves (fun k hk => (hw i k hk).1) hij hlock
    refine ⟨hlock', ?_⟩
    unfold HasUse at huse ⊢
    exact hrow ▸ huse

/-! ## Uses and rentals -/

/-- The rentals that were committed with the promo code `k`. -/
def rentalsWith (k : ℕ) (store : Store ι) : List Commit :=
  store.commits.filter fun c => c.promoCodeId = some k

/-- Each commit has stored a rental of its own. -/
structure Stored (store : Store ι) : Prop where
  distinct : (store.commits.map Commit.rentalId).Nodup
  rental : ∀ c ∈ store.commits, c.rentalId ∈ store.db.rentals.keys

omit [DecidableEq ι] [Casing] in
theorem stored_of_keys {store store' : Store ι} (h : Stored store)
    (hcommits : store'.commits = store.commits)
    (hkeys : store'.db.rentals.keys = store.db.rentals.keys) : Stored store' := by
  refine ⟨by rw [hcommits]; exact h.distinct, fun c hc => ?_⟩
  rw [hkeys]
  rw [hcommits] at hc
  exact h.rental c hc

theorem stored_moves {i : ι} (h : Moves maxActive request i store stage out) (hs : Stored store) :
    Stored out.1 := by
  cases h with
  | stays => exact hs
  | raised e => exact stored_of_keys hs rfl rfl
  | cleanupRaised e h => exact stored_of_keys hs rfl (cleanup_frame h).2
  | cleaned h => exact stored_of_keys hs rfl (cleanup_frame h).2
  | counted h => exact hs
  | locked hfree h => exact stored_of_keys hs rfl rfl
  | priced hfree h => exact stored_of_keys hs rfl rfl
  | promoTaken h => exact hs
  | inserted battery price => exact hs
  | @committed battery price rental t h =>
    obtain ⟨-, hrows, hid, -, -⟩ := writeRental_ok h
    have hkeys : t.working.rentals.keys = store.db.rentals.keys ++ [rental.id] := by
      unfold Table.keys
      rw [hrows, List.map_append]
      rfl
    have hfresh : rental.id ∉ store.db.rentals.keys := by
      intro hmem
      obtain ⟨r, hr, hkey⟩ := Table.mem_keys.mp hmem
      have hlt := Table.key_lt_freshKey hr
      rw [hkey, hid] at hlt
      exact Nat.lt_irrefl _ hlt
    constructor
    · refine List.nodup_cons.mpr ⟨fun hmem => ?_, hs.distinct⟩
      obtain ⟨c, hc, hcid⟩ := List.mem_map.mp hmem
      have hkey : c.rentalId = rental.id := hcid
      exact hfresh (hkey ▸ hs.rental c hc)
    · intro c hc
      show c.rentalId ∈ t.working.rentals.keys
      rw [hkeys]
      rcases List.mem_cons.mp hc with rfl | hc
      · exact List.mem_append_right _ List.mem_cons_self
      · exact List.mem_append_left _ (hs.rental c hc)

/-- **What a step does to a promo code**: nothing, or it commits a rental with it and takes one
use. -/
theorem moves_count {i : ι} {p : PromoCode} (hk : k ≠ 0)
    (h : Moves maxActive request i store stage out) (hp : store.db.promoCodes.get? k = some p) :
    (out.1.db.promoCodes.get? k = some p ∧ rentalsWith k out.1 = rentalsWith k store) ∨
      (Uses k stage ∧
        out.1.db.promoCodes.get? k = some { p with usageCount := p.usageCount + 1 } ∧
        (rentalsWith k out.1).length = (rentalsWith k store).length + 1) := by
  cases h with
  | stays => exact .inl ⟨hp, rfl⟩
  | raised e => exact .inl ⟨hp, rfl⟩
  | cleanupRaised e h =>
    exact .inl ⟨(congrArg (fun t => Table.get? t k) (cleanup_frame h).1).trans hp, rfl⟩
  | cleaned h =>
    exact .inl ⟨(congrArg (fun t => Table.get? t k) (cleanup_frame h).1).trans hp, rfl⟩
  | counted h => exact .inl ⟨hp, rfl⟩
  | locked hfree h => exact .inl ⟨hp, rfl⟩
  | priced hfree h => exact .inl ⟨hp, rfl⟩
  | promoTaken h => exact .inl ⟨hp, rfl⟩
  | inserted battery price => exact .inl ⟨hp, rfl⟩
  | @committed battery price rental t h =>
    have hrow : t.working.promoCodes.get? k =
        some (if usedPromo price = some k
          then { p with usageCount := p.usageCount + 1 } else p) := by
      have hstored : (Session.fresh store.db).working.promoCodes.get? k = some p := hp
      rw [(writeRental_ok h).promoCodes, get?_withUse, hstored, Option.map_some]
    by_cases hpriced : price.promoCodeId = some k
    · rw [if_pos ((usedPromo_eq hk).mpr hpriced)] at hrow
      refine .inr ⟨⟨price, rfl, hpriced⟩, hrow, ?_⟩
      unfold rentalsWith endAs
      rw [List.filter_cons_of_pos (by simpa using hpriced), List.length_cons]
    · rw [if_neg fun hused => hpriced ((usedPromo_eq hk).mp hused)] at hrow
      refine .inl ⟨hrow, ?_⟩
      unfold rentalsWith endAs
      exact List.filter_cons_of_neg (by simpa using hpriced)

/-- The promo code that was `promo` at the start has as many uses more as rentals were committed
with it, and not more than it may have. -/
def Accounted (k : ℕ) (promo : PromoCode) (store : Store ι) : Prop :=
  ∃ p, store.db.promoCodes.get? k = some p ∧ p.usageLimit = promo.usageLimit ∧
    p.usageCount ≤ max promo.usageLimit promo.usageCount ∧
    p.usageCount = promo.usageCount + (rentalsWith k store).length

theorem accounted_next (maxActive : ℕ) (requests : ι → Request) {promo : PromoCode}
    (hk : k ≠ 0) (hlimit : 0 < promo.usageLimit) (w : World ι (Store ι) Stage) (i : ι)
    (hlocked : Locked w) (hw : Accounted k promo w.store) :
    Accounted k promo (next maxActive requests w i).store := by
  obtain ⟨p, hp, hplimit, hbound, hcount⟩ := hw
  rcases moves_count hk (advance_moves maxActive (requests i) i w.store (w.position i)) hp with
    ⟨hp', hrentals⟩ | ⟨huses, hp', hrentals⟩
  · refine ⟨p, hp', hplimit, hbound, ?_⟩
    rw [next_store, hrentals]
    exact hcount
  · refine ⟨_, hp', hplimit, ?_, ?_⟩
    · obtain ⟨-, q, hq, huse⟩ := hlocked i k huses
      obtain rfl : p = q := Option.some.inj (hp.symm.trans hq)
      have hlt := huse (hplimit ▸ hlimit)
      show p.usageCount + 1 ≤ _
      omega
    · rw [next_store, hrentals]
      show p.usageCount + 1 = _
      push_cast
      omega

/-- **Uses of promo codes.**  However the calls interleave and wherever they raise, the use count of
a promo code with a limit never passes the limit, and has grown by the number of rentals committed
with it.  An id of 0 is no promo code to a call. -/
theorem promo_uses_bounded (maxActive : ℕ) (requests : ι → Request) (db : Db) {k : ℕ} (hk : k ≠ 0)
    {promo : PromoCode} (hpromo : db.promoCodes.get? k = some promo)
    (hlimit : 0 < promo.usageLimit) (schedule : List ι) :
    Accounted k promo (run (next maxActive requests) (start db) schedule).store ∧
      Stored (run (next maxActive requests) (start db) schedule).store := by
  have hinvariant : Locked (run (next maxActive requests) (start db) schedule) ∧
      Accounted k promo (run (next maxActive requests) (start db) schedule).store ∧
      Stored (run (next maxActive requests) (start db) schedule).store := by
    refine run_invariant (I := fun w => Locked w ∧ Accounted k promo w.store ∧ Stored w.store)
      (fun w i hw => ⟨?_, ?_, ?_⟩) ⟨?_, ?_, ?_⟩ schedule
    · exact locked_next maxActive requests w i hw.1
    · exact accounted_next maxActive requests hk hlimit w i hw.1 hw.2.1
    · exact stored_moves (advance_moves _ _ _ _ _) hw.2.2
    · rintro i k ⟨_, ⟨⟩, -⟩
    · exact ⟨promo, hpromo, rfl, le_max_right _ _, by simp [rentalsWith, start, World.start]⟩
    · exact ⟨List.nodup_nil, fun c hc => by cases hc⟩
  exact hinvariant.2

end

/-- Two users with one promo code for one use. -/
def withCode : Bool → Request
  | false => { now := 100, userId := 1, rentalIn := ⟨7, 3, 1, some "once"⟩ }
  | true => { now := 100, userId := 2, rentalIn := ⟨8, 3, 1, some "once"⟩ }

/-- They go side by side until the second waits for the row of the promo code. -/
def sideBySide : List Bool :=
  [false, true, false, true, false, true, false, true, false, true, false, false, true]

theorem promo_uses_bounded_sample :
    (Accounted 5 ⟨5, "ONCE", 0, 0, none, 0, 0, true, 0, none, 1, 0⟩
        (run (next 1 withCode) (start shop) sideBySide).store ∧
      Stored (run (next 1 withCode) (start shop) sideBySide).store) ∧
      (run (next 1 withCode) (start shop) sideBySide).store.commits = [⟨1, some 5⟩] := by
  refine ⟨promo_uses_bounded 1 withCode shop ?_ ?_ ?_ sideBySide, ?_⟩
  · decide
  · rfl
  · decide
  · decide +kernel

end WezuBackend.Rental.PromoUses
