import WezuBackend.Campaigns.Checkouts

/-!
# Discounts

What a checkout would get by `validate_promo` and do by `apply_promo`.  The two would have to agree
on the limits, and the discount would have to stay within the order; but `validate_promo` raises
before it computes one.  `Passes` says that the promotion meets every check of it.
-/

namespace WezuBackend.Campaigns.Discounts

open Lib.Results Core.Base Core.Letters Campaigns.Redemptions Campaigns.Checkouts

/-- `CampaignService.apply_promo`, and the tables that it leaves. -/
def applyPromo (call : Apply) (db : Db) : Except Exc PromotionUsage × Db :=
  match db.promotions.get? call.promoId with
  | none => (.error (.http 404 "Promo not found"), db)
  | some promo =>
    if HasRoom promo call.discountApplied then
      (.ok (newUsage call db.usages.freshKey), written call db)
    else (.error (.http 400 "Promo code usage limit or budget reached"), db)

section

variable [Casing]

/-- A discount that is validated is applied, in any later state with the same row of the promotion,
if there is room for it. -/
def Agree (checkout : Checkout) (db db' : Db) (call : Apply) : Prop :=
  ∀ v promo, validatePromo checkout db = .ok v → db.promotions.get? v.promoId = some promo →
    db'.promotions.get? v.promoId = some promo → call.promoId = v.promoId →
    call.discountApplied = v.discountApplied → ∃ usage, (applyPromo call db').1 = .ok usage

end

/-! ## What is returned -/

section

variable [Casing]

/-- The promotion meets every check of `validate_promo`: with a date without a zone, as the stored
ones are, there would be a discount. -/
def Passes (checkout : Checkout) (db : Db) : Prop :=
  ∃ v, validatePromoAt (stored checkout.now) checkout db = .ok v

/-- A discount within the order is returned, and the final amount that is left. -/
def Bounded (checkout : Checkout) (db : Db) : Prop :=
  ∃ v, validatePromo checkout db = .ok v ∧ 0 ≤ v.discountApplied ∧
    v.discountApplied ≤ checkout.orderAmount ∧
    v.finalAmount = round2 (checkout.orderAmount - v.discountApplied)

/-- **No discount is returned** for a promotion that meets every check. -/
theorem discount_never_bounded {checkout : Checkout} {db : Db} (hpasses : Passes checkout db) :
    validatePromo checkout db = .error .typeError ∧ ¬ Bounded checkout db := by
  refine ⟨?_, fun ⟨v, hv, _⟩ => validatePromo_ne_ok _ _ v hv⟩
  obtain ⟨v, hv⟩ := hpasses
  obtain ⟨promo, hfound, -⟩ := except_bind_ok.mp hv
  -- the checks before the first comparison are those that pass
  obtain ⟨q, hq, hfound⟩ := except_bind_ok.mp hfound
  obtain ⟨u, hactive, -⟩ := except_bind_ok.mp hfound
  have hraises : findPromo (clock checkout.now) checkout db = .error .typeError := by
    unfold findPromo
    rw [hq]
    show (ensure (q.isActive = true) "Promo code is inactive" >>= fun _ => _) = _
    rw [hactive]
    rfl
  unfold validatePromo validatePromoAt
  rw [hraises]
  rfl

end

/-- A tenth off, at most 40. -/
def festive : DealerPromotion where
  id := 1
  promoCode := "FESTIVE"
  discountType := "PERCENTAGE"
  discountValue := 10
  maxDiscountAmount := some 40
  budgetLimit := some 100
  usageLimitTotal := some 5
  startDate := 0
  endDate := 1000

def festival : Db where
  promotions := ⟨[festive], by decide⟩

def order : Checkout where
  code := "FESTIVE"
  orderAmount := 250
  userId := 7
  now := 100
  later := 1

/-- 25 of 250 would be taken off. -/
theorem passes_order : Passes order festival :=
  ⟨{ code := "FESTIVE", discountApplied := 25, finalAmount := 225, promoId := 1 },
    by decide +kernel⟩

theorem discount_never_bounded_sample :
    validatePromo order festival = .error .typeError ∧ ¬ Bounded order festival :=
  discount_never_bounded passes_order

/-- The claim of a promotion that passes. -/
theorem no_discount : ¬ ∀ (checkout : Checkout) (db : Db), Passes checkout db →
    0 ≤ checkout.orderAmount → Bounded checkout db := by
  intro hclaim
  obtain ⟨v, hv, -⟩ := hclaim order festival passes_order (by decide)
  exact validatePromo_ne_ok _ _ v hv

end WezuBackend.Campaigns.Discounts
