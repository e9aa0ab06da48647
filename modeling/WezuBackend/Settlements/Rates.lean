import WezuBackend.Lib.Sorting
import WezuBackend.Settlements.Commissions

/-!
# Which commission rate applies

`get_applicable_rate` prefers the configuration of the dealer and falls back to the first one in
force, whosever it is.  So it charges a dealer without one by the configuration of another dealer
if that comes first; and the clock's date, which has a zone, does not compare with the end of a
configuration, which has none, so that the call raises where there is one (`rate_resolved_iff`).
The tier within the configuration is right (`charged_rateOf`).
-/

namespace WezuBackend.Settlements.Rates

open Lib.Tables Lib.Sorting Settlements.Commissions

/-! ## What a dealer is due -/

def InForce (now : ℕ) (transactionType : String) (books : Books) (c : CommissionConfig) : Prop :=
  c ∈ books.configs ∧ c.transactionType = transactionType ∧ c.isActive = true ∧
    c.effectiveFrom ≤ now ∧ ∀ until_ ∈ c.effectiveUntil, now ≤ until_

def Own (dealerId : Option ℕ) (c : CommissionConfig) : Prop :=
  ∃ k, dealerId = some k ∧ c.dealerId = some k

/-- The configuration that is due: one of the dealer's own, else a global one, else none. -/
inductive Due (now : ℕ) (transactionType : String) (dealerId : Option ℕ) (books : Books) :
    Option CommissionConfig → Prop
  | own {c : CommissionConfig} (h : InForce now transactionType books c) (hown : Own dealerId c) :
    Due now transactionType dealerId books (some c)
  | shared {c : CommissionConfig} (h : InForce now transactionType books c)
    (hglobal : c.dealerId = none)
    (hnone : ∀ x, InForce now transactionType books x → ¬ Own dealerId x) :
    Due now transactionType dealerId books (some c)
  | nothing (hnone : ∀ x, InForce now transactionType books x →
      ¬ Own dealerId x ∧ x.dealerId ≠ none) :
    Due now transactionType dealerId books none

def Contains (monthlyVolume : ℤ) (t : CommissionTier) : Prop :=
  t.minVolume ≤ monthlyVolume ∧ ∀ maxVolume ∈ t.maxVolume, monthlyVolume ≤ maxVolume

/-- The rate by a configuration: that of the first tier with the volume, or its default. -/
inductive Charged (monthlyVolume : ℤ) (books : Books) : Option CommissionConfig → Rate → Prop
  | tier {c : CommissionConfig} {t : CommissionTier} (ht : t ∈ books.tiers)
    (hconfig : t.configId = c.id) (hvolume : Contains monthlyVolume t)
    (hfirst : ∀ x ∈ books.tiers, x.configId = c.id → Contains monthlyVolume x →
      t.minVolume ≤ x.minVolume) :
    Charged monthlyVolume books (some c) ⟨t.percentage, t.flatFee⟩
  | fallback {c : CommissionConfig}
    (hnone : ∀ x ∈ books.tiers, x.configId = c.id → ¬ Contains monthlyVolume x) :
    Charged monthlyVolume books (some c) ⟨c.percentage, c.flatFee⟩
  | zero : Charged monthlyVolume books none {}

section

variable {now : ℕ} {transactionType : String} {dealerId : Option ℕ} {monthlyVolume : ℤ}
  {books : Books} {c : CommissionConfig}

theorem mem_activeConfigs :
    c ∈ activeConfigs now transactionType books ↔ InForce now transactionType books c := by
  unfold activeConfigs begunConfigs InForce
  rw [List.mem_filter, Table.mem_filter, decide_eq_true_eq, decide_eq_true_eq, and_assoc, and_assoc,
    and_assoc]

theorem charged_tierOf (c : CommissionConfig) : Charged monthlyVolume books (some c)
    ((tierOf c.id monthlyVolume books).elim ⟨c.percentage, c.flatFee⟩ fun tier =>
      ⟨tier.percentage, tier.flatFee⟩) := by
  have hrow : ∀ x, x ∈ books.tiers.filter (fun t => decide (t.configId = c.id)) ↔
      x ∈ books.tiers ∧ x.configId = c.id := by
    intro x
    rw [Table.mem_filter, decide_eq_true_eq]
  rcases htier : tierOf c.id monthlyVolume books with _ | t
  · refine .fallback fun x hx hconfig hvolume => ?_
    have hnone := List.find?_eq_none.mp htier x
      (List.mem_mergeSort.mpr ((hrow x).mpr ⟨hx, hconfig⟩))
    rw [decide_eq_true_eq] at hnone
    exact hnone hvolume
  · obtain ⟨hmem, hvolume, hfirst⟩ := find?_ascending CommissionTier.minVolume htier
    obtain ⟨ht, hconfig⟩ := (hrow t).mp hmem
    rw [decide_eq_true_eq] at hvolume
    refine .tier ht hconfig hvolume fun x hx hconfig' hvolume' => ?_
    refine hfirst x ((hrow x).mpr ⟨hx, hconfig'⟩) ?_
    rw [decide_eq_true_eq]
    exact hvolume'

/-! ## The configuration -/

theorem charged_rateOf (chosen : Option CommissionConfig) (monthlyVolume : ℤ) (books : Books) :
    Charged monthlyVolume books chosen (rateOf chosen monthlyVolume books) := by
  rcases chosen with _ | c
  · exact .zero
  · exact charged_tierOf c

theorem chosen_own {k : ℕ} (hk : k ≠ 0) (hc : InForce now transactionType books c)
    (hown : c.dealerId = some k) : ∃ x, InForce now transactionType books x ∧
      x.dealerId = some k ∧ chosenConfig now transactionType (some k) books = some x := by
  have hfilter : (some k).filter (fun k : ℕ => decide (k ≠ 0)) = some k := by simp [hk]
  have hmem : c ∈ (activeConfigs now transactionType books).filter
      fun c => decide (c.dealerId = some k) :=
    List.mem_filter.mpr ⟨mem_activeConfigs.mpr hc, decide_eq_true hown⟩
  rcases hlist : (activeConfigs now transactionType books).filter
      fun c => decide (c.dealerId = some k) with _ | ⟨x, rest⟩
  · rw [hlist] at hmem
    cases hmem
  · have hx := List.mem_filter.mp (hlist ▸ List.mem_cons_self (a := x) (l := rest))
    refine ⟨x, mem_activeConfigs.mp hx.1, of_decide_eq_true hx.2, ?_⟩
    unfold chosenConfig
    rw [hfilter]
    dsimp only [Option.elim_some]
    rw [hlist]
    rfl

theorem chosen_first (h : ∀ k ≠ 0, dealerId = some k → ∀ x, InForce now transactionType books x →
      x.dealerId ≠ some k) :
    chosenConfig now transactionType dealerId books =
      (activeConfigs now transactionType books).head? := by
  unfold chosenConfig
  rcases hdealer : dealerId.filter fun k => decide (k ≠ 0) with _ | k
  · rfl
  · obtain ⟨hk, hne⟩ := Option.filter_eq_some_iff.mp hdealer
    have hempty : (activeConfigs now transactionType books).filter
        (fun c => decide (c.dealerId = some k)) = [] := by
      refine List.filter_eq_nil_iff.mpr fun x hx hown => ?_
      exact h k (of_decide_eq_true hne) hk x (mem_activeConfigs.mp hx) (of_decide_eq_true hown)
    dsimp only [Option.elim_some]
    rw [hempty]
    rfl

/-! ## When it is the one that is due -/

/-- The answer is the rate of a configuration that is due. -/
def Resolved (zoned : Bool) (now : ℕ) (transactionType : String) (dealerId : Option ℕ)
    (monthlyVolume : ℤ) (books : Books) : Prop :=
  ∃ rate, getApplicableRate zoned now transactionType dealerId monthlyVolume books = .ok rate ∧
    Due now transactionType dealerId books (chosenConfig now transactionType dealerId books) ∧
    Charged monthlyVolume books (chosenConfig now transactionType dealerId books) rate

/-- The date has no zone, or no active configuration of the type that has begun has an end. -/
def Comparable (zoned : Bool) (now : ℕ) (transactionType : String) (books : Books) : Prop :=
  zoned = false ∨ ∀ c ∈ books.configs, c.transactionType = transactionType → c.isActive = true →
    c.effectiveFrom ≤ now → c.effectiveUntil = none

/-- The dealer has a configuration of its own. -/
def Provided (now : ℕ) (transactionType : String) (dealerId : Option ℕ) (books : Books) : Prop :=
  ∃ k ≠ 0, dealerId = some k ∧ ∃ c, InForce now transactionType books c ∧ c.dealerId = some k

/-- The first configuration in force, if there is one, is the dealer's own, or it is global and the
dealer has none. -/
def FirstIsDue (now : ℕ) (transactionType : String) (dealerId : Option ℕ) (books : Books) : Prop :=
  ∀ c ∈ (activeConfigs now transactionType books).head?, Own dealerId c ∨
    c.dealerId = none ∧ ∀ x, InForce now transactionType books x → ¬ Own dealerId x

theorem due_first_iff : Due now transactionType dealerId books
      (activeConfigs now transactionType books).head? ↔
    FirstIsDue now transactionType dealerId books := by
  unfold FirstIsDue
  rcases hlist : activeConfigs now transactionType books with _ | ⟨c, rest⟩
  · have hnone : ∀ x, ¬ InForce now transactionType books x := by
      intro x hx
      have hmem := mem_activeConfigs.mpr hx
      rw [hlist] at hmem
      cases hmem
    refine ⟨fun _ c hc => ?_, fun _ => .nothing fun x hx => absurd hx (hnone x)⟩
    cases hc
  · have hc : InForce now transactionType books c :=
      mem_activeConfigs.mp (hlist ▸ List.mem_cons_self)
    constructor
    · intro h x hx
      obtain rfl : c = x := Option.some.inj hx
      cases h with
      | own h hown => exact .inl hown
      | shared h hglobal hnone => exact .inr ⟨hglobal, hnone⟩
    · intro h
      rcases h c rfl with hown | ⟨hglobal, hnone⟩
      · exact .own hc hown
      · exact .shared hc hglobal hnone

theorem getApplicableRate_ok {zoned : Bool} {rate : Rate} :
    getApplicableRate zoned now transactionType dealerId monthlyVolume books = .ok rate ↔
      Comparable zoned now transactionType books ∧
        rateOf (chosenConfig now transactionType dealerId books) monthlyVolume books = rate := by
  have hbegun : ∀ c, c ∈ begunConfigs now transactionType books ↔ c ∈ books.configs ∧
      c.transactionType = transactionType ∧ c.isActive = true ∧ c.effectiveFrom ≤ now := by
    intro c
    unfold begunConfigs
    rw [Table.mem_filter, decide_eq_true_eq]
  unfold getApplicableRate
  split_ifs with hraises
  · obtain ⟨rfl, c, hc, hends⟩ := hraises
    obtain ⟨hmem, htype, hactive, hfrom⟩ := (hbegun c).mp hc
    refine iff_of_false (by rintro ⟨⟩) ?_
    rintro ⟨hcomparable, -⟩
    rcases hcomparable with hzone | hnone
    · cases hzone
    · exact hends (hnone c hmem htype hactive hfrom)
  · have hcomparable : Comparable zoned now transactionType books := by
      rcases zoned with _ | _
      · exact .inl rfl
      · refine .inr fun c hmem htype hactive hfrom => ?_
        by_contra hends
        exact hraises ⟨rfl, c, (hbegun c).mpr ⟨hmem, htype, hactive, hfrom⟩, hends⟩
    rw [and_iff_right hcomparable, Except.ok.injEq]

end

theorem due_iff (now : ℕ) (transactionType : String) (dealerId : Option ℕ) (books : Books) :
    Due now transactionType dealerId books (chosenConfig now transactionType dealerId books) ↔
      Provided now transactionType dealerId books ∨
        FirstIsDue now transactionType dealerId books := by
  by_cases hown : Provided now transactionType dealerId books
  · obtain ⟨k, hk, rfl, c, hc, hdealer⟩ := hown
    obtain ⟨x, hx, hmine, hchosen⟩ := chosen_own hk hc hdealer
    refine iff_of_true ?_ (.inl ⟨k, hk, rfl, c, hc, hdealer⟩)
    rw [hchosen]
    exact .own hx ⟨k, rfl, hmine⟩
  · have hfirst : chosenConfig now transactionType dealerId books = _ :=
      chosen_first fun k hk hdealer x hx hmine => hown ⟨k, hk, hdealer, x, hx, hmine⟩
    rw [hfirst, due_first_iff]
    exact ⟨.inr, fun h => h.resolve_left hown⟩

/-- **The rate is resolved as it is due** exactly if the date compares with the ends there are, and
the dealer has a configuration in force or the first one in force is no other dealer's. -/
theorem rate_resolved_iff (zoned : Bool) (now : ℕ) (transactionType : String) (dealerId : Option ℕ)
    (monthlyVolume : ℤ) (books : Books) :
    Resolved zoned now transactionType dealerId monthlyVolume books ↔
      Comparable zoned now transactionType books ∧
        (Provided now transactionType dealerId books ∨
          FirstIsDue now transactionType dealerId books) := by
  unfold Resolved
  rw [← due_iff]
  constructor
  · rintro ⟨rate, hrate, hdue, -⟩
    exact ⟨(getApplicableRate_ok.mp hrate).1, hdue⟩
  · rintro ⟨hcomparable, hdue⟩
    exact ⟨_, getApplicableRate_ok.mpr ⟨hcomparable, rfl⟩, hdue, charged_rateOf _ _ _⟩

/-- Dealer 7 has agreed on a fifth; everybody else pays a twentieth. -/
def agreed : Books where
  configs := ⟨[
    { id := 1, dealerId := some 7, transactionType := "rental"
      percentage := 20, effectiveFrom := 0 },
    { id := 2, transactionType := "rental", percentage := 5, effectiveFrom := 0 }], by decide⟩

/-- Everybody pays a twentieth until 20. -/
def expiring : Books where
  configs := ⟨[{ id := 1, transactionType := "rental", percentage := 5, effectiveFrom := 0
                 effectiveUntil := some 20 }], by decide⟩

/-- Dealer 4 pays the rate of dealer 7, and there is none once a configuration ends. -/
theorem rate_of_another : ¬ Resolved true 10 "rental" (some 4) 0 agreed ∧
    ¬ Resolved true 10 "rental" none 0 expiring := by
  constructor
  · rintro ⟨-, -, hdue, -⟩
    have hchosen : chosenConfig 10 "rental" (some 4) agreed =
        some { id := 1, dealerId := some 7, transactionType := "rental"
               percentage := 20, effectiveFrom := 0 } := by decide +kernel
    rw [hchosen] at hdue
    cases hdue with
    | own h hown =>
      obtain ⟨k, hk, hk'⟩ := hown
      cases hk
      cases hk'
    | shared h hglobal hnone => cases hglobal
  · rintro ⟨rate, hrate, -⟩
    rcases (getApplicableRate_ok.mp hrate).1 with hzone | hends
    · cases hzone
    · have hend := hends _ (List.mem_singleton_self _) rfl rfl (by decide)
      cases hend

end WezuBackend.Settlements.Rates
