import WezuBackend.Campaigns.Redemptions
import WezuBackend.Core.Amounts
import WezuBackend.Core.Letters
import WezuBackend.Lib.Results

/-!
# Checkouts with a campaign's promotion

A checkout validates the code and later applies the promotion.  `validate_promo` reads the
promotion, counts the usages of the day and then those of the user; `apply_promo` looks at neither
number.

The dates of a promotion are stored without a zone, and the clock's date has one: Python does not
compare them.  So no stored promotion is ever validated (`validatePromo_ne_ok`), no checkout gets
as far as `apply_promo` (`checkouts_idle`), and the caps that hold before a run hold after it
(`caps_kept`).
-/

namespace WezuBackend.Campaigns.Checkouts

open Lib.Runs Lib.Interleaving Lib.Results Core.Base Core.Amounts Core.Letters
open Campaigns.Redemptions

/-! ## `validate_promo` -/

/-- `if number:` of an optional number. -/
def nonzero {α : Type} [Zero α] [DecidableEq α] (number : Option α) : Option α :=
  number.filter (· ≠ 0)

/-- The microseconds of a day; the clock begins at a midnight. -/
def dayLength : ℕ := 86400 * 1000000

/-- A date, with or without a time zone. -/
structure Date where
  zoned : Bool
  time : ℕ

/-- What is read from a column of type `DateTime`. -/
def stored (time : ℕ) : Date := ⟨false, time⟩

/-- `datetime.now(UTC)`. -/
def clock (time : ℕ) : Date := ⟨true, time⟩

/-- `a < b`: two dates of which one has a zone and the other has none do not compare. -/
def earlier (a b : Date) : Except Exc Bool :=
  if a.zoned = b.zoned then .ok (decide (a.time < b.time)) else .error .typeError

/-- A checkout: the arguments of `validate_promo` and its time, and how much later it applies the
promotion. -/
structure Checkout where
  code : String
  stationId : Option ℕ := none
  orderAmount : ℚ
  userId : ℕ
  now : ℕ
  later : ℕ

/-- What `validate_promo` returns. -/
structure Validation where
  code : String
  discountApplied : ℚ
  finalAmount : ℚ
  promoId : ℕ
  deriving DecidableEq

def ensure (p : Prop) [Decidable p] (detail : String) : Except Exc Unit :=
  if p then .ok () else .error (.http 400 detail)

/-- Whether the station may use the promotion. -/
def allowedAt (promo : DealerPromotion) (stationId : ℕ) : Prop :=
  match promo.applicableStationIds with
  | some (.ids stationIds) => stationIds = [] ∨ stationId ∈ stationIds
  | _ => True

instance (promo : DealerPromotion) (stationId : ℕ) : Decidable (allowedAt promo stationId) := by
  unfold allowedAt
  split <;> infer_instance

/-- The promotion of the code, and the checks on its row at the date `now`. -/
def findPromo (now : Date) (checkout : Checkout) (db : Db) : Except Exc DealerPromotion := do
  let promo ← (db.promotions.find? fun p => p.promoCode = checkout.code).elim
    (.error (.http 404 "Invalid promo code")) .ok
  ensure (promo.isActive = true) "Promo code is inactive"
  let early ← earlier now (stored promo.startDate)
  ensure (early = false) "Promo code not yet valid"
  let late ← earlier (stored promo.endDate) now
  ensure (late = false) "Promo code expired"
  ensure (∀ stationId ∈ nonzero checkout.stationId, allowedAt promo stationId)
    "Promo code not applicable at this station"
  ensure (∀ minimum ∈ nonzero promo.minPurchaseAmount, minimum ≤ checkout.orderAmount)
    s!"Minimum order amount is {promo.minPurchaseAmount.getD 0}"
  ensure (∀ limit ∈ nonzero promo.usageLimitTotal, promo.usageCount < limit)
    "Promo code global usage limit reached"
  ensure (∀ budget ∈ nonzero promo.budgetLimit, promo.totalDiscountGiven < budget)
    "Promo code budget exhausted"
  return promo

theorem findPromo_clock (time : ℕ) (checkout : Checkout) (db : Db) (promo : DealerPromotion) :
    findPromo (clock time) checkout db ≠ .ok promo := by
  intro h
  obtain ⟨q, -, h⟩ := except_bind_ok.mp h
  obtain ⟨_, -, h⟩ := except_bind_ok.mp h
  -- the date of the clock is compared with a stored one
  obtain ⟨_, hearly, -⟩ := except_bind_ok.mp h
  cases hearly

def dailyUses (checkout : Checkout) (promo : DealerPromotion) (db : Db) : List PromotionUsage :=
  db.usages.filter fun u =>
    u.promotionId = promo.id ∧ checkout.now / dayLength * dayLength ≤ u.usedAt

def countDay (checkout : Checkout) (promo : DealerPromotion) (db : Db) : Except Exc Unit :=
  ensure (∀ cap ∈ nonzero promo.dailyCap, ((dailyUses checkout promo db).length : ℤ) < cap)
    "Promo code daily usage cap reached"

def userUses (checkout : Checkout) (promo : DealerPromotion) (db : Db) : List PromotionUsage :=
  db.usages.filter fun u => u.promotionId = promo.id ∧ u.userId = checkout.userId

def countUser (checkout : Checkout) (promo : DealerPromotion) (db : Db) : Except Exc Unit :=
  ensure (((userUses checkout promo db).length : ℤ) < promo.usageLimitPerUser)
    "You have reached your usage limit for this code"

/-- `round(amount, 2)`. -/
def round2 (amount : ℚ) : ℚ := roundHalfEven (100 * amount).num (100 * amount).den / 100

section

variable [Casing]

/-- The discount before it is capped. -/
def fullDiscount (promo : DealerPromotion) (orderAmount : ℚ) : ℚ :=
  if upper promo.discountType = "PERCENTAGE" then promo.discountValue / 100 * orderAmount
  else if upper promo.discountType = "FIXED_AMOUNT" then promo.discountValue
  else if upper promo.discountType = "FREE_DELIVERY" then min orderAmount promo.discountValue
  else 0

def discountOf (promo : DealerPromotion) (orderAmount : ℚ) : ℚ :=
  let discount := fullDiscount promo orderAmount
  let capped := (nonzero promo.maxDiscountAmount).elim discount (min discount)
  (nonzero promo.budgetLimit).elim capped fun budget =>
    min capped (budget - promo.totalDiscountGiven)

def validation (checkout : Checkout) (promo : DealerPromotion) : Validation :=
  let discount := discountOf promo checkout.orderAmount
  { code := promo.promoCode
    discountApplied := round2 discount
    finalAmount := round2 (max 0 (checkout.orderAmount - discount))
    promoId := promo.id }

/-- `CampaignService.validate_promo` at a date, when nobody commits between its reads. -/
def validatePromoAt (now : Date) (checkout : Checkout) (db : Db) : Except Exc Validation := do
  let promo ← findPromo now checkout db
  countDay checkout promo db
  countUser checkout promo db
  return validation checkout promo

/-- The date is the clock's. -/
def validatePromo (checkout : Checkout) (db : Db) : Except Exc Validation :=
  validatePromoAt (clock checkout.now) checkout db

/-- **No promotion is ever validated.** -/
theorem validatePromo_ne_ok (checkout : Checkout) (db : Db) (v : Validation) :
    validatePromo checkout db ≠ .ok v := by
  intro h
  obtain ⟨promo, hfound, -⟩ := except_bind_ok.mp h
  exact findPromo_clock _ _ _ _ hfound

end

/-! ## A checkout, step by step -/

/-- The call of `apply_promo` after a validation. -/
def applyOf (checkout : Checkout) (v : Validation) : Apply where
  promoId := v.promoId
  userId := checkout.userId
  orderAmount := checkout.orderAmount
  discountApplied := v.discountApplied
  finalAmount := v.finalAmount
  now := checkout.now + checkout.later

inductive Position where
  | called
  /-- the promotion is read and its row checked -/
  | found (promo : DealerPromotion)
  /-- the usages of the day are counted -/
  | dayCounted (promo : DealerPromotion)
  /-- so are those of the user -/
  | validated (v : Validation)
  /-- `apply_promo` is at work -/
  | applying (v : Validation) (stage : Stage)
  | refused (e : Exc)
  deriving DecidableEq

section

variable {ι : Type} [DecidableEq ι] [Casing]

/-- The next step of a checkout that does not raise for reasons of its own. -/
def proceed (checkout : Checkout) (store : Store ι) : Position → Store ι × Position
  | .called =>
    match findPromo (clock checkout.now) checkout store.db with
    | .ok promo => (store, .found promo)
    | .error e => (store, .refused e)
  | .found promo =>
    match countDay checkout promo store.db with
    | .ok _ => (store, .dayCounted promo)
    | .error e => (store, .refused e)
  | .dayCounted promo =>
    match countUser checkout promo store.db with
    | .ok _ => (store, .validated (validation checkout promo))
    | .error e => (store, .refused e)
  | .validated v => (store, .applying v .called)
  | position => (store, position)

/-- The next step of a checkout; `raises` says where it is made to raise. -/
def advance (checkout : Checkout) (raises : Position → Option Exc) (i : ι) (store : Store ι)
    (position : Position) : Store ι × Position :=
  match position, raises position with
  | .applying v stage, _ =>
    let out := Redemptions.advance (applyOf checkout v)
      (fun s => raises (.applying v s)) i store stage
    (out.1, .applying v out.2)
  | .refused e, _ => (store, .refused e)
  | _, some e => (store, .refused e)
  | position, none => proceed checkout store position

/-- The next step of checkout `i`. -/
def next (checkouts : ι → Checkout) (raises : ι → Position → Option Exc) :
    World ι (Store ι) Position → ι → World ι (Store ι) Position :=
  turn fun i => advance (checkouts i) (raises i) i

/-- Nobody has begun. -/
def start (db : Db) : World ι (Store ι) Position := .start { db } .called

/-! ## Runs -/

/-- The checkout has not validated its code. -/
def unvalidated : Position → Prop
  | .called => True
  | .refused _ => True
  | _ => False

theorem advance_unvalidated (checkout : Checkout) (raises : Position → Option Exc) (i : ι)
    (store : Store ι) {position : Position} (h : unvalidated position) :
    (advance checkout raises i store position).1 = store ∧
      unvalidated (advance checkout raises i store position).2 := by
  cases position with
  | called =>
    unfold advance
    rcases raises .called with _ | e
    · dsimp only [proceed]
      rcases hfound : findPromo (clock checkout.now) checkout store.db with e | promo
      · exact ⟨rfl, trivial⟩
      · exact absurd hfound (findPromo_clock _ _ _ _)
    · exact ⟨rfl, trivial⟩
  | refused e => exact ⟨rfl, trivial⟩
  | _ => exact absurd h id

theorem checkouts_idle (checkouts : ι → Checkout) (raises : ι → Position → Option Exc) (db : Db)
    (schedule : List ι) : (run (next checkouts raises) (start db) schedule).store.db = db ∧
      ∀ i, unvalidated ((run (next checkouts raises) (start db) schedule).position i) := by
  have hstart : ∀ i, unvalidated ((start (ι := ι) db).position i) := fun _ => trivial
  refine run_invariant (I := fun w : World ι (Store ι) Position =>
    w.store.db = db ∧ ∀ i, unvalidated (w.position i)) (fun w i hw => ⟨?_, fun j => ?_⟩)
    ⟨rfl, hstart⟩ schedule
  · rw [next, turn_store, (advance_unvalidated _ _ _ _ (hw.2 i)).1]
    exact hw.1
  · by_cases hij : j = i
    · subst hij
      rw [next, turn_position_self]
      exact (advance_unvalidated _ _ _ _ (hw.2 j)).2
    · rw [next, turn_position_ne _ hij]
      exact hw.2 j

/-- The user's usages of the promotion. -/
def usesBy (promo : DealerPromotion) (userId : ℕ) (db : Db) : ℕ :=
  (db.usages.filter fun u => u.promotionId = promo.id ∧ u.userId = userId).length

/-- The promotion's usages of the day. -/
def usesOn (promo : DealerPromotion) (day : ℕ) (db : Db) : ℕ :=
  (db.usages.filter fun u => u.promotionId = promo.id ∧ u.usedAt / dayLength = day).length

/-- No user has more usages of the promotion than a user may have, and no day more than the cap. -/
structure WithinCaps (promo : DealerPromotion) (db : Db) : Prop where
  user : ∀ userId, (usesBy promo userId db : ℤ) ≤ promo.usageLimitPerUser
  day : ∀ cap ∈ promo.dailyCap, ∀ day, (usesOn promo day db : ℤ) ≤ cap

/-- **The caps of a promotion hold** in every state of a run of checkouts, wherever they raise and
however they interleave, if they hold at its start. -/
theorem caps_kept (checkouts : ι → Checkout) (raises : ι → Position → Option Exc) {db : Db}
    {promo : DealerPromotion} (hstart : WithinCaps promo db) (schedule : List ι) :
    WithinCaps promo (run (next checkouts raises) (start db) schedule).store.db := by
  rw [(checkouts_idle checkouts raises db schedule).1]
  exact hstart

end

/-- A promotion that each user may use once, and that five may use a day. -/
def welcome : DealerPromotion where
  id := 1
  promoCode := "WELCOME"
  discountType := "FIXED_AMOUNT"
  discountValue := 50
  dailyCap := some 5
  startDate := 0
  endDate := 1000

/-- User 7 has used it. -/
def campaign : Db where
  promotions := ⟨[welcome], by decide⟩
  usages := ⟨[{ id := 1, promotionId := 1, userId := 7, discountApplied := 50, originalAmount := 200
                finalAmount := 150, usedAt := 90 }], by decide⟩

/-- Two checkouts, of a user who has used the promotion and of one who has not. -/
def basket : Bool → Checkout
  | false => { code := "WELCOME", orderAmount := 200, userId := 7, now := 100, later := 1 }
  | true => { code := "WELCOME", orderAmount := 300, userId := 8, now := 101, later := 1 }

theorem caps_kept_sample : WithinCaps welcome
      (run (next basket fun _ _ => none) (start campaign) [false, true, true, false]).store.db ∧
    (run (next basket fun _ _ => none) (start campaign) [false, true, true, false]).position true =
      .refused .typeError := by
  refine ⟨caps_kept basket _ ⟨fun userId => ?_, fun cap hcap day => ?_⟩ _, by decide +kernel⟩
  · have hone : usesBy welcome userId campaign ≤ 1 := List.length_filter_le _ _
    have hlimit : welcome.usageLimitPerUser = 1 := rfl
    omega
  · have hone : usesOn welcome day campaign ≤ 1 := List.length_filter_le _ _
    obtain rfl := Option.some.inj hcap
    omega

end WezuBackend.Campaigns.Checkouts
