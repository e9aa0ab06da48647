import WezuBackend.Core.Base
import WezuBackend.Lib.Interleaving
import Mathlib.Tactic.Linarith

/-!
# Redemptions of a dealer's promotion

`apply_promo` raises the counters of the promotion in one conditional update, inserts the usage and
commits.  The update locks the row of the promotion until the call ends, and a call whose row
another one has locked waits; so what the update has checked still holds at the commit (`Held`), and
the commit raises the counters by the very usage that it inserts (`moves_accounts`).  A call may be
made to raise wherever it is; before its commit it has written nothing.

Amounts are exact.
-/

namespace WezuBackend.Campaigns.Redemptions

open Lib.Tables Lib.Runs Lib.Interleaving Core.Base

/-! ## The rows -/

/-- What `json.loads` makes of the text of a promotion's stations. -/
inductive StationIds where
  /-- the list is empty for `null`, too -/
  | ids (stationIds : List ℕ)
  /-- it raises -/
  | unreadable
  deriving DecidableEq, Repr

structure DealerPromotion where
  id : ℕ
  promoCode : String
  discountType : String
  discountValue : ℚ
  minPurchaseAmount : Option ℚ := none
  maxDiscountAmount : Option ℚ := none
  budgetLimit : Option ℚ := none
  dailyCap : Option ℤ := none
  usageLimitTotal : Option ℤ := none
  usageLimitPerUser : ℤ := 1
  usageCount : ℤ := 0
  totalDiscountGiven : ℚ := 0
  applicableStationIds : Option StationIds := none
  startDate : ℕ
  endDate : ℕ
  isActive : Bool := true
  deriving DecidableEq, Repr

structure PromotionUsage where
  id : ℕ
  promotionId : ℕ
  userId : ℕ
  discountApplied : ℚ
  originalAmount : ℚ
  finalAmount : ℚ
  usedAt : ℕ
  deriving DecidableEq, Repr

instance : Row DealerPromotion ℕ := ⟨DealerPromotion.id⟩

instance : Row PromotionUsage ℕ := ⟨PromotionUsage.id⟩

structure Db where
  promotions : Table DealerPromotion := .empty
  usages : Table PromotionUsage := .empty

/-! ## A call, step by step -/

/-- The arguments of a call, and the time at which it makes the usage. -/
structure Apply where
  promoId : ℕ
  userId : ℕ
  orderAmount : ℚ
  discountApplied : ℚ
  finalAmount : ℚ
  now : ℕ

/-- The condition of the update. -/
def HasRoom (promo : DealerPromotion) (discountApplied : ℚ) : Prop :=
  (∀ limit ∈ promo.usageLimitTotal, promo.usageCount < limit) ∧
    ∀ budget ∈ promo.budgetLimit, promo.totalDiscountGiven + discountApplied ≤ budget

instance (promo : DealerPromotion) (discountApplied : ℚ) :
    Decidable (HasRoom promo discountApplied) := by
  unfold HasRoom
  infer_instance

/-- The values of the update. -/
def counted (discountApplied : ℚ) (promo : DealerPromotion) : DealerPromotion :=
  { promo with
    usageCount := promo.usageCount + 1
    totalDiscountGiven := promo.totalDiscountGiven + discountApplied }

def newUsage (call : Apply) (id : ℕ) : PromotionUsage where
  id := id
  promotionId := call.promoId
  userId := call.userId
  discountApplied := call.discountApplied
  originalAmount := call.orderAmount
  finalAmount := call.finalAmount
  usedAt := call.now

@[simp] theorem key_counted (discountApplied : ℚ) (promo : DealerPromotion) :
    Row.key (counted discountApplied promo) = Row.key promo := rfl

@[simp] theorem key_newUsage (call : Apply) (id : ℕ) : Row.key (newUsage call id) = id := rfl

def written (call : Apply) (db : Db) : Db where
  promotions := db.promotions.update (fun p => p.id = call.promoId)
    (counted call.discountApplied) (key_counted call.discountApplied)
  usages := db.usages.add (newUsage call) (key_newUsage call)

inductive Stage where
  | called
  /-- the promotion is there -/
  | loaded
  /-- the update is made, and the row is locked -/
  | counted
  /-- the usage is in the session -/
  | added
  /-- the usage is committed, and is to be read again -/
  | committed (usage : PromotionUsage)
  | ended (result : Except Exc PromotionUsage)
  deriving DecidableEq

/-- The committed tables, and who has locked which promotion. -/
structure Store (ι : Type) where
  db : Db
  lock : ℕ → Option ι := fun _ => none

section

variable {ι : Type} [DecidableEq ι]

/-- The end of a call: its locks are gone. -/
def released (store : Store ι) (i : ι) : Store ι :=
  { store with lock := fun k => (store.lock k).filter (· ≠ i) }

def endAs (i : ι) (store : Store ι) (result : Except Exc PromotionUsage) : Store ι × Stage :=
  (released store i, .ended result)

/-- The update.  It passes over a row that does not meet its condition, and waits for a row that
does and is locked. -/
def countUse (call : Apply) (i : ι) (store : Store ι) : Store ι × Stage :=
  match store.db.promotions.get? call.promoId with
  | none => endAs i store (.error (.http 400 "Promo code usage limit or budget reached"))
  | some promo =>
    if HasRoom promo call.discountApplied then
      if ∀ j ∈ store.lock call.promoId, j = i then
        ({ store with lock := Function.update store.lock call.promoId (some i) }, .counted)
      else (store, .loaded)
    else endAs i store (.error (.http 400 "Promo code usage limit or budget reached"))

/-- The next step of a call that does not raise for reasons of its own. -/
def proceed (call : Apply) (i : ι) (store : Store ι) : Stage → Store ι × Stage
  | .called =>
    match store.db.promotions.get? call.promoId with
    | none => endAs i store (.error (.http 404 "Promo not found"))
    | some _ => (store, .loaded)
  | .loaded => countUse call i store
  | .counted => (store, .added)
  | .added =>
    (released { store with db := written call store.db } i,
      .committed (newUsage call store.db.usages.freshKey))
  | .committed usage => endAs i store (.ok usage)
  | .ended result => (store, .ended result)

/-- The next step of a call; `raises` says where it is made to raise. -/
def advance (call : Apply) (raises : Stage → Option Exc) (i : ι) (store : Store ι)
    (stage : Stage) : Store ι × Stage :=
  match stage, raises stage with
  | .ended result, _ => (store, .ended result)
  | _, some e => endAs i store (.error e)
  | stage, none => proceed call i store stage

/-! ## What a step does -/

/-- What a step of a call can do, by the stage that it starts from. -/
inductive Moves (call : Apply) (i : ι) (store : Store ι) : Stage → Store ι × Stage → Prop where
  /-- it waits for the lock, or has ended -/
  | stays (stage : Stage) : Moves call i store stage (store, stage)
  | raised {stage : Stage} (e : Exc) : Moves call i store stage (endAs i store (.error e))
  | loaded {promo : DealerPromotion} (h : store.db.promotions.get? call.promoId = some promo) :
    Moves call i store .called (store, .loaded)
  | counted {promo : DealerPromotion} (h : store.db.promotions.get? call.promoId = some promo)
    (hroom : HasRoom promo call.discountApplied) (hfree : ∀ j ∈ store.lock call.promoId, j = i) :
    Moves call i store .loaded
      ({ store with lock := Function.update store.lock call.promoId (some i) }, .counted)
  | added : Moves call i store .counted (store, .added)
  | committed : Moves call i store .added
      (released { store with db := written call store.db } i,
        .committed (newUsage call store.db.usages.freshKey))
  | returned (usage : PromotionUsage) :
    Moves call i store (.committed usage) (endAs i store (.ok usage))

theorem countUse_moves (call : Apply) (i : ι) (store : Store ι) :
    Moves call i store .loaded (countUse call i store) := by
  unfold countUse
  rcases h : store.db.promotions.get? call.promoId with _ | promo
  · exact .raised _
  · by_cases hroom : HasRoom promo call.discountApplied
    · by_cases hfree : ∀ j ∈ store.lock call.promoId, j = i
      · simp only [if_pos hroom, if_pos hfree]
        exact .counted h hroom hfree
      · simp only [if_pos hroom, if_neg hfree]
        exact .stays _
    · simp only [if_neg hroom]
      exact .raised _

theorem proceed_moves (call : Apply) (i : ι) (store : Store ι) (stage : Stage) :
    Moves call i store stage (proceed call i store stage) := by
  cases stage with
  | called =>
    rw [proceed]
    rcases h : store.db.promotions.get? call.promoId with _ | promo
    · exact .raised _
    · exact .loaded h
  | loaded => exact countUse_moves call i store
  | counted => exact .added
  | added => exact .committed
  | committed usage => exact .returned usage
  | ended result => exact .stays _

theorem advance_moves (call : Apply) (raises : Stage → Option Exc) (i : ι) (store : Store ι)
    (stage : Stage) : Moves call i store stage (advance call raises i store stage) := by
  unfold advance
  split
  · exact .stays _
  · exact .raised _
  · exact proceed_moves call i store _

/-! ## The row that a call has counted is locked -/

/-- The update is made and not committed. -/
def Stage.Holds : Stage → Prop
  | .counted => True
  | .added => True
  | _ => False

/-- A call that has made its update has the row locked, and the row still meets the condition. -/
def Held (call : Apply) (i : ι) (store : Store ι) : Prop :=
  store.lock call.promoId = some i ∧
    ∃ promo, store.db.promotions.get? call.promoId = some promo ∧
      HasRoom promo call.discountApplied

theorem get?_written (call : Apply) (db : Db) (k : ℕ) :
    (written call db).promotions.get? k = (db.promotions.get? k).map fun p =>
      if k = call.promoId then counted call.discountApplied p else p := by
  unfold written
  rw [Table.get?_update]
  rcases hget : db.promotions.get? k with _ | p
  · rfl
  · have hid : p.id = k := (Table.get?_eq_some.mp hget).2
    simp only [Option.map_some, hid, decide_eq_true_eq]

variable {store : Store ι}

variable {i j : ι}

theorem released_of_ne {k : ℕ} (h : store.lock k = some j)
    (hj : j ≠ i) : (released store i).lock k = some j := by
  show (store.lock k).filter (· ≠ i) = some j
  rw [h, Option.filter_some, if_pos (by simpa using hj)]

variable {out : Store ι × Stage} {stage : Stage}

theorem moves_frame {call other : Apply} (h : Moves call i store stage out)
    (hmine : stage.Holds → Held call i store) (hj : j ≠ i) (hheld : Held other j store) :
    Held other j out.1 := by
  obtain ⟨hlock, promo, hpromo, hroom⟩ := hheld
  cases h with
  | stays => exact ⟨hlock, promo, hpromo, hroom⟩
  | raised e => exact ⟨released_of_ne hlock hj, promo, hpromo, hroom⟩
  | loaded h => exact ⟨hlock, promo, hpromo, hroom⟩
  | counted h hroom' hfree =>
    have hne : other.promoId ≠ call.promoId := by
      intro heq
      exact hj (hfree j (heq ▸ hlock))
    exact ⟨(Function.update_of_ne hne _ _).trans hlock, promo, hpromo, hroom⟩
  | added => exact ⟨hlock, promo, hpromo, hroom⟩
  | committed =>
    have hne : other.promoId ≠ call.promoId := by
      intro heq
      have hmylock := (hmine trivial).1
      rw [← heq, hlock] at hmylock
      exact hj (Option.some.inj hmylock)
    refine ⟨released_of_ne hlock hj, promo, ?_, hroom⟩
    show (written call store.db).promotions.get? other.promoId = some promo
    rw [get?_written, hpromo, Option.map_some, if_neg hne]
  | returned usage => exact ⟨released_of_ne hlock hj, promo, hpromo, hroom⟩

variable {call : Apply}

theorem moves_held {i : ι} (h : Moves call i store stage out)
    (hmine : stage.Holds → Held call i store) (hafter : out.2.Holds) : Held call i out.1 := by
  cases h with
  | stays => exact hmine hafter
  | raised e => exact absurd hafter id
  | loaded h => exact absurd hafter id
  | counted h hroom hfree => exact ⟨Function.update_self _ _ _, _, h, hroom⟩
  | added => exact hmine trivial
  | committed => exact absurd hafter id
  | returned usage => exact absurd hafter id

/-! ## Counters and usages -/

def usagesOf (k : ℕ) (db : Db) : List PromotionUsage := db.usages.filter fun u => u.promotionId = k

def discounts (usages : List PromotionUsage) : ℚ := (usages.map PromotionUsage.discountApplied).sum

/-- The promotion as it was made, with the counters of its usages; they are within its limits,
unless these are negative. -/
structure Accounted (promo : DealerPromotion) (db : Db) : Prop where
  counters : db.promotions.get? promo.id = some { promo with
    usageCount := (usagesOf promo.id db).length
    totalDiscountGiven := discounts (usagesOf promo.id db) }
  limit : ∀ limit ∈ promo.usageLimitTotal, ((usagesOf promo.id db).length : ℤ) ≤ max 0 limit
  budget : ∀ budget ∈ promo.budgetLimit, discounts (usagesOf promo.id db) ≤ max 0 budget

theorem usagesOf_written (call : Apply) (db : Db) (k : ℕ) :
    usagesOf k (written call db) = usagesOf k db ++
      if call.promoId = k then [newUsage call db.usages.freshKey] else [] := by
  show (db.usages.rows ++ [newUsage call db.usages.freshKey]).filter _ = _
  rw [List.filter_append]
  congr 1
  by_cases hk : call.promoId = k
  · rw [if_pos hk]
    exact List.filter_cons_of_pos (decide_eq_true hk)
  · rw [if_neg hk]
    exact List.filter_cons_of_neg fun h => hk (of_decide_eq_true h)

theorem discounts_append (us vs : List PromotionUsage) :
    discounts (us ++ vs) = discounts us + discounts vs := by
  unfold discounts
  rw [List.map_append, List.sum_append]

variable {promo : DealerPromotion}

theorem accounted_written {db : Db} (h : Accounted promo db) (hroom : call.promoId = promo.id →
      ∃ p, db.promotions.get? call.promoId = some p ∧ HasRoom p call.discountApplied) :
    Accounted promo (written call db) := by
  obtain ⟨hcounters, hlimit, hbudget⟩ := h
  by_cases hk : call.promoId = promo.id
  · obtain ⟨p, hp, hlimit', hbudget'⟩ := hroom hk
    rw [hk, hcounters] at hp
    obtain rfl := Option.some.inj hp
    have husages := usagesOf_written call db promo.id
    rw [if_pos hk] at husages
    have hcount : ((usagesOf promo.id (written call db)).length : ℤ) =
        (usagesOf promo.id db).length + 1 := by
      rw [husages, List.length_append]
      exact Nat.cast_succ _
    have htotal : discounts (usagesOf promo.id (written call db)) =
        discounts (usagesOf promo.id db) + call.discountApplied := by
      rw [husages, discounts_append]
      simp [discounts, newUsage]
    refine ⟨?_, fun limit hl => ?_, fun budget hb => ?_⟩
    · rw [get?_written, hcounters, Option.map_some, if_pos hk.symm, hcount, htotal]
      rfl
    · have hlt := hlimit' limit hl
      dsimp only at hlt
      rw [hcount]
      omega
    · rw [htotal]
      exact le_trans (hbudget' budget hb) (le_max_right _ _)
  · have husages := usagesOf_written call db promo.id
    rw [if_neg hk, List.append_nil] at husages
    refine ⟨?_, by rwa [husages], by rwa [husages]⟩
    rw [get?_written, hcounters, Option.map_some, if_neg (Ne.symm hk), husages]

/-- **What a step does to the accounts**: nothing, or it commits a usage that there was room for. -/
theorem moves_accounts {i : ι} (h : Moves call i store stage out)
    (hmine : stage.Holds → Held call i store) (hs : Accounted promo store.db) :
    Accounted promo out.1.db := by
  cases h with
  | stays => exact hs
  | raised e => exact hs
  | loaded h => exact hs
  | counted h hroom hfree => exact hs
  | added => exact hs
  | committed => exact accounted_written hs fun _ => (hmine trivial).2
  | returned usage => exact hs

/-! ## Interleaved calls -/

/-- The next step of call `i`. -/
def next (calls : ι → Apply) (raises : ι → Stage → Option Exc) :
    World ι (Store ι) Stage → ι → World ι (Store ι) Stage :=
  turn fun i => advance (calls i) (raises i) i

/-- Nobody has begun. -/
def start (db : Db) : World ι (Store ι) Stage := .start { db } .called

/-- Whoever has counted a use has the row locked. -/
def AllHeld (calls : ι → Apply) (w : World ι (Store ι) Stage) : Prop :=
  ∀ i, (w.position i).Holds → Held (calls i) i w.store

theorem allHeld_next (calls : ι → Apply) (raises : ι → Stage → Option Exc)
    (w : World ι (Store ι) Stage) (i : ι) (hw : AllHeld calls w) :
    AllHeld calls (next calls raises w i) := by
  have hmoves := advance_moves (calls i) (raises i) i w.store (w.position i)
  intro j hj
  by_cases hij : j = i
  · subst hij
    have hafter : (advance (calls j) (raises j) j w.store (w.position j)).2.Holds := by
      rwa [next, turn_position_self] at hj
    exact moves_held hmoves (hw j) hafter
  · rw [next, turn_position_ne _ hij] at hj
    exact moves_frame hmoves (hw i) hij (hw j hj)

/-- **The accounts of a promotion** that nobody has used.  However the calls interleave and wherever
they raise, its counters are those of its usages, and within its limits: a limit that is set is not
passed, and where it is negative there is no use at all. -/
theorem promo_accounted (calls : ι → Apply) (raises : ι → Stage → Option Exc) (db : Db)
    {promo : DealerPromotion} (hpromo : db.promotions.get? promo.id = some promo)
    (hcount : promo.usageCount = 0) (htotal : promo.totalDiscountGiven = 0)
    (hunused : usagesOf promo.id db = []) (schedule : List ι) :
    Accounted promo (run (next calls raises) (start db) schedule).store.db := by
  have hinvariant : AllHeld calls (run (next calls raises) (start db) schedule) ∧
      Accounted promo (run (next calls raises) (start db) schedule).store.db := by
    refine run_invariant (I := fun w => AllHeld calls w ∧ Accounted promo w.store.db)
      (fun w i hw => ⟨?_, ?_⟩) ⟨?_, ?_⟩ schedule
    · exact allHeld_next calls raises w i hw.1
    · exact moves_accounts (advance_moves _ _ _ _ _) (hw.1 i) hw.2
    · exact fun i hi => absurd hi id
    · refine ⟨?_, fun limit _ => ?_, fun budget _ => ?_⟩
      · show db.promotions.get? promo.id = _
        rw [show usagesOf promo.id (start (ι := ι) db).store.db = [] from hunused, hpromo]
        obtain ⟨⟩ := promo
        simp_all [discounts]
      · rw [show usagesOf promo.id (start (ι := ι) db).store.db = [] from hunused]
        exact le_max_left _ _
      · rw [show usagesOf promo.id (start (ι := ι) db).store.db = [] from hunused]
        exact le_max_left _ _
  exact hinvariant.2

end

def summer : DealerPromotion where
  id := 1
  promoCode := "SUMMER"
  discountType := "FIXED_AMOUNT"
  discountValue := 50
  budgetLimit := some 60
  usageLimitTotal := some 1
  startDate := 0
  endDate := 1000

def campaigns : Db where
  promotions := ⟨[summer], by decide⟩

/-- Two users of it. -/
def calls : Bool → Apply
  | false => ⟨1, 11, 200, 50, 150, 100⟩
  | true => ⟨1, 12, 300, 50, 250, 100⟩

/-- Both find the promotion; the second waits for the update of the first, and is refused. -/
def together : List Bool := [false, true, false, true, true, false, false, true, false]

theorem promo_accounted_sample :
    Accounted summer (run (next calls fun _ _ => none) (start campaigns) together).store.db ∧
    (usagesOf 1 (run (next calls fun _ _ => none) (start campaigns) together).store.db).map
      PromotionUsage.userId = [11] := by
  refine ⟨promo_accounted calls (fun _ _ => none) campaigns ?_ ?_ ?_ ?_ together, ?_⟩
  · decide +kernel
  · rfl
  · rfl
  · rfl
  · decide +kernel

/-- A promotion is made with any number as its limit, and no use is more than a negative one. -/
theorem negative_limit : ¬ ∀ (promo : DealerPromotion) (db : Db) (calls : Bool → Apply)
    (raises : Bool → Stage → Option Exc), db.promotions.get? promo.id = some promo →
    promo.usageCount = 0 → promo.totalDiscountGiven = 0 → usagesOf promo.id db = [] →
    (∀ i, 0 ≤ (calls i).discountApplied) → ∀ (schedule : List Bool) (p : DealerPromotion),
    (run (next calls raises) (start db) schedule).store.db.promotions.get? promo.id = some p →
    ∀ limit ∈ p.usageLimitTotal, p.usageCount ≤ limit := by
  intro hclaim
  have hbound := hclaim { summer with usageLimitTotal := some (-1) }
    { promotions := ⟨[{ summer with usageLimitTotal := some (-1) }], by decide⟩ } calls
    (fun _ _ => none) (by decide +kernel) rfl rfl rfl (fun i => by cases i <;> decide) []
    { summer with usageLimitTotal := some (-1) } (by decide +kernel) (-1) rfl
  exact absurd hbound (by decide)

end WezuBackend.Campaigns.Redemptions
