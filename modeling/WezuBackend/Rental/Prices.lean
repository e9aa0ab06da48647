import WezuBackend.Rental.Effects

/-!
# The bounds of a rental price

A promo code is meant to take at most the rent, and at most its own maximum, off the price.  But its
columns are floats and the rent is a `Decimal`: a promo code that gives a discount at all, fixed or
in percent, raises a `TypeError` when the discount is added up (`price_bounded_iff`).
-/

namespace WezuBackend.Rental.Prices

open Lib.Tables Lib.Atomicity Lib.Atomicity.Tx Core.Base Core.Letters Fleet.Model Fleet.Transitions
open Rental.Service

section

variable [Casing] {now batteryId : ℕ} {durationDays : ℤ} {code : String} {battery : Battery}
  {promo : PromoCode} {s : Session Db}

/-- `total_rent`. -/
def rentalCost (db : Db) (battery : Battery) (durationDays : ℤ) : ℚ :=
  dailyRate db battery * durationDays

/-- The battery and the promo code are there, and the promo code passes all checks. -/
structure Passes (now batteryId : ℕ) (durationDays : ℤ) (code : String) (battery : Battery)
    (promo : PromoCode) (s : Session Db) : Prop where
  stored : UniqueIndexes s.working
  duration : 0 < durationDays
  found : s.working.batteries.get? batteryId = some battery
  given : code ≠ ""
  spelled : normal code ≠ ""
  known : (s.working.promoCodes.find? fun p => sqlUpper p.code = normal code) = some promo
  checked : checkPromo now durationDays (rentalCost s.working battery durationDays) promo s =
    (.ok (), s)

structure WithinBounds (price : PriceDetails) (promo : PromoCode) : Prop where
  nonneg : 0 ≤ price.discount
  rent : price.discount ≤ price.rentalCost
  cap : ∀ m ∈ promo.maxDiscountAmount, price.discount ≤ m
  total : price.totalPayable = price.rentalCost - price.discount + price.deposit
  deposit : price.deposit ≤ price.totalPayable

omit [Casing] in
theorem promoDiscount_iff {cost : ℚ} (hmax : ∀ m ∈ promo.maxDiscountAmount, 0 ≤ m) {d : ℚ} :
    promoDiscount cost promo = .ok d ↔
      promo.discountAmount ≤ 0 ∧ promo.discountPercentage ≤ 0 ∧ d = min cost 0 := by
  have hnone : promo.maxDiscountAmount.filter (· < 0) = none := by
    rw [Option.filter_eq_none_iff]
    intro m hm
    simpa using hmax m hm
  unfold promoDiscount
  simp only [hnone, Option.getD_none, Option.isSome_none, Bool.false_eq_true, if_false]
  split_ifs with hdiscount hcost
  · constructor
    · intro h
      cases h
    · rintro ⟨hamount, hpercentage, -⟩
      rcases hdiscount with h | h <;> linarith
  · rw [not_or, not_lt, not_lt] at hdiscount
    rw [min_eq_left hcost.le]
    constructor
    · intro h
      exact ⟨hdiscount.1, hdiscount.2, (Except.ok.inj h).symm⟩
    · rintro ⟨-, -, rfl⟩
      rfl
  · rw [not_or, not_lt, not_lt] at hdiscount
    rw [min_eq_right (not_lt.mp hcost)]
    constructor
    · intro h
      exact ⟨hdiscount.1, hdiscount.2, (Except.ok.inj h).symm⟩
    · rintro ⟨-, -, rfl⟩
      rfl

/-- What `calculate_price` computes once the promo code has passed. -/
theorem calculatePrice_eq (h : Passes now batteryId durationDays code battery promo s) :
    calculatePrice now batteryId durationDays (some code) s =
      ((promoDiscount (rentalCost s.working battery durationDays) promo).map fun discount =>
        { dailyRate := dailyRate s.working battery, durationDays
          rentalCost := rentalCost s.working battery durationDays
          discount, deposit := battery.purchaseCost * (1 / 10)
          totalPayable := rentalCost s.working battery durationDays - discount +
            battery.purchaseCost * (1 / 10)
          promoCodeId := some promo.id }, s) := by
  have hcode : truthy (some code) = some code := truthy_eq_some.mpr ⟨rfl, h.given⟩
  have hquery : query s = (.ok s.working, s) := query_ok.mpr ⟨h.stored, rfl, rfl⟩
  have hpromo : promoOf now durationDays (rentalCost s.working battery durationDays) (some code) s =
      ((promoDiscount (rentalCost s.working battery durationDays) promo).map fun discount =>
        (discount, some promo.id), s) := by
    rw [promoOf, hcode]
    dsimp only
    rw [ensure_bind h.spelled, bind_of_ok hquery, demand_bind h.known, bind_of_ok h.checked]
    rcases promoDiscount (rentalCost s.working battery durationDays) promo with e | discount
    · rfl
    · rfl
  rw [calculatePrice, ensure_bind h.duration, bind_of_ok hquery, demand_bind h.found]
  rcases hdiscount : promoDiscount (rentalCost s.working battery durationDays) promo with
    e | discount
  · rw [hdiscount] at hpromo
    exact bind_of_error hpromo
  · rw [hdiscount] at hpromo
    exact bind_of_ok hpromo

/-- **The bounds of a price.**  For a promo code that passes all checks, with a maximum that is not
negative, the price is computed and within its bounds exactly if the promo code gives no discount,
and the daily rate is not negative. -/
theorem price_bounded_iff (h : Passes now batteryId durationDays code battery promo s)
    (hmax : ∀ m ∈ promo.maxDiscountAmount, 0 ≤ m) :
    (∃ price t, calculatePrice now batteryId durationDays (some code) s = (.ok price, t) ∧
        WithinBounds price promo) ↔
      promo.discountAmount ≤ 0 ∧ promo.discountPercentage ≤ 0 ∧
        0 ≤ dailyRate s.working battery := by
  have hdays : (0 : ℚ) < durationDays := by exact_mod_cast h.duration
  rw [calculatePrice_eq h]
  constructor
  · rintro ⟨price, t, hprice, hbounds⟩
    rcases hdiscount : promoDiscount (rentalCost s.working battery durationDays) promo with
      e | discount
    · rw [hdiscount] at hprice
      cases hprice
    · rw [hdiscount] at hprice
      obtain ⟨hamount, hpercentage, hmin⟩ := (promoDiscount_iff hmax).mp hdiscount
      obtain rfl := Except.ok.inj (Prod.mk.inj hprice).1
      refine ⟨hamount, hpercentage, ?_⟩
      have hcost : 0 ≤ rentalCost s.working battery durationDays :=
        (show 0 ≤ discount from hbounds.nonneg).trans (hmin.trans_le (min_le_left _ _))
      exact nonneg_of_mul_nonneg_left hcost hdays
  · rintro ⟨hamount, hpercentage, hrate⟩
    have hcost : 0 ≤ rentalCost s.working battery durationDays := mul_nonneg hrate hdays.le
    have hdiscount : promoDiscount (rentalCost s.working battery durationDays) promo = .ok 0 :=
      (promoDiscount_iff hmax).mpr ⟨hamount, hpercentage, (min_eq_right hcost).symm⟩
    rw [hdiscount]
    refine ⟨_, _, rfl, le_rfl, hcost, hmax, rfl, ?_⟩
    show battery.purchaseCost * (1 / 10) ≤ _
    linarith

end

def rented : Battery := { id := 7, serialNumber := "B7", skuId := some 2, purchaseCost := 5000 }

/-- A promo code with a fixed discount, of at most 50. -/
def welcome (discountAmount : ℚ) : PromoCode :=
  { id := 5, code := "WELCOME", validFrom := 0, discountAmount, maxDiscountAmount := some 50 }

def priceList (discountAmount : ℚ) : Db where
  batteries := ⟨[rented], List.nodup_singleton _⟩
  batteryCatalog := ⟨[{ id := 2, pricePerDay := 100 }], List.nodup_singleton _⟩
  promoCodes := ⟨[welcome discountAmount], List.nodup_singleton _⟩

theorem passes_priceList (discountAmount : ℚ) :
    Passes 100 7 3 " welcome" rented (welcome discountAmount)
      (.fresh (priceList discountAmount)) := by
  have hrate : dailyRate (priceList discountAmount) rented = 100 := rfl
  have hspelled : sqlUpper "WELCOME" = normal " welcome" := by decide +kernel
  refine ⟨⟨?_, ?_, ?_⟩, by decide, rfl, by decide, by decide +kernel, ?_, ?_⟩
  · rintro b hb b' hb' -
    rw [List.mem_singleton.mp hb, List.mem_singleton.mp hb']
  · exact fun r hr => absurd hr (Table.not_mem_empty r)
  · exact fun r hr => absurd hr (Table.not_mem_empty r)
  · exact List.find?_cons_of_pos (decide_eq_true hspelled)
  · have hcost : (0 : ℚ) ≤ rentalCost (priceList discountAmount) rented 3 := by
      rw [rentalCost, hrate]
      norm_num
    simp only [checkPromo, bind_ok, ensure_ok]
    exact ⟨(), _, ⟨rfl, rfl⟩, (), _, ⟨Nat.zero_le _, rfl⟩, (), _, ⟨by simp [welcome], rfl⟩, (), _,
      ⟨by simp [welcome], rfl⟩, (), _, ⟨by simp [welcome], rfl⟩, hcost, rfl⟩

/-- A promo code without a discount. -/
theorem price_bounded_sample :
    ∃ price t, calculatePrice 100 7 3 (some " welcome") (.fresh (priceList 0)) = (.ok price, t) ∧
      WithinBounds price (welcome 0) :=
  (price_bounded_iff (passes_priceList 0) (by simp [welcome])).mpr
    ⟨by decide, by decide, by decide +kernel⟩

/-- With a discount of 20 there is no price. -/
theorem discount_raises :
    Passes 100 7 3 " welcome" rented (welcome 20) (.fresh (priceList 20)) ∧
      (calculatePrice 100 7 3 (some " welcome") (.fresh (priceList 20))).1.map
        PriceDetails.discount = .error .typeError ∧
      ¬ ∃ price t,
        calculatePrice 100 7 3 (some " welcome") (.fresh (priceList 20)) = (.ok price, t) ∧
          WithinBounds price (welcome 20) := by
  have hraises : calculatePrice 100 7 3 (some " welcome") (.fresh (priceList 20)) =
      (.error .typeError, .fresh (priceList 20)) := by
    have hdiscount : promoDiscount (rentalCost (priceList 20) rented 3) (welcome 20) =
        .error .typeError := by decide +kernel
    rw [calculatePrice_eq (passes_priceList 20), Session.working_fresh, hdiscount]
    rfl
  rw [hraises]
  refine ⟨passes_priceList 20, rfl, ?_⟩
  rintro ⟨price, t, hprice, -⟩
  cases hprice

end WezuBackend.Rental.Prices
