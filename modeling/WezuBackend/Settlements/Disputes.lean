import WezuBackend.Core.Rounding
import WezuBackend.Settlements.Months
import WezuBackend.Settlements.Payout

/-!
# Disputes over settlements

`app/services/dispute_service.py`: a dealer opens a dispute on a settlement, and an admin rejects it
or adjusts the settlement's `net_payable`.  Neither looks at the status of the settlement or at the
sign of the result, so a settlement that is paid can come to another amount than the one that was
paid out, and any other one to less than nothing.

In runs in which nothing fails after a payout, paid settlements are final, every settlement is worth
at least nothing and has at most one unresolved dispute exactly if no approved adjustment does that
(`paid_final_iff`).
-/

namespace WezuBackend.Settlements.Disputes

open Lib.Tables Lib.Runs Lib.Atomicity Lib.Atomicity.Tx Core.Amounts Core.Rounding Settlements.Model
open Settlements.Payout

/-! ## Adjustments -/

/-- An amount in hundredths, rounded to a whole number of them. -/
def roundCents (amount : ℚ) : ℤ := roundHalfEven amount.num amount.den

/-- `round(net_payable + adjustment_amount, 2)`. -/
def adjusted (netPayable : ℤ) (adjustment : ℚ) : ℤ := roundCents (netPayable + adjustment)

/-- The adjustment is lost in the rounding. -/
def Negligible (netPayable : ℤ) (adjustment : ℚ) : Prop :=
  |adjustment| < 1 / 2 ∨ |adjustment| = 1 / 2 ∧ netPayable % 2 = 0

instance (netPayable : ℤ) (adjustment : ℚ) : Decidable (Negligible netPayable adjustment) := by
  unfold Negligible
  infer_instance

variable {adjustment : ℚ}

theorem adjusted_eq_iff {netPayable : ℤ} :
    adjusted netPayable adjustment = netPayable ↔ Negligible netPayable adjustment := by
  have hsub : (netPayable : ℚ) + adjustment - netPayable = adjustment := add_sub_cancel_left _ _
  rw [adjusted, roundCents, halfEven_eq_iff, hsub, Negligible]

theorem adjusted_nonneg_iff {netPayable : ℤ} :
    0 ≤ adjusted netPayable adjustment ↔ -1 / 2 ≤ netPayable + adjustment := by
  have hneg := halfEven_le_iff (netPayable + adjustment) (-1)
  unfold adjusted roundCents
  constructor
  · intro h
    by_contra hlt
    have hdown := hneg.mpr (.inl (by push_cast; linarith))
    omega
  · intro h
    by_contra hlt
    rcases hneg.mp (by omega) with hbelow | ⟨-, heven⟩
    · push_cast at hbelow
      linarith
    · omega

/-! ## Tables -/

inductive DisputeStatus where
  /-- `"open"` -/
  | opened
  | underReview
  | resolved
  | rejected
  deriving DecidableEq, Repr

structure SettlementDispute where
  id : ℕ
  settlementId : ℕ
  dealerId : ℕ
  reason : String
  status : DisputeStatus := .opened
  resolutionNotes : Option String := none
  adjustmentAmount : Option ℤ := none
  resolvedAt : Option ℕ := none
  deriving DecidableEq, Repr

instance : Row SettlementDispute ℕ := ⟨SettlementDispute.id⟩

def SettlementDispute.Unresolved (d : SettlementDispute) : Prop :=
  d.status = .opened ∨ d.status = .underReview

instance (d : SettlementDispute) : Decidable d.Unresolved := by
  unfold SettlementDispute.Unresolved
  infer_instance

structure Books where
  db : Db
  disputes : Table SettlementDispute := .empty
  /-- the payouts so far, with what was payable -/
  amounts : List (ℕ × ℤ) := []

/-! ## The programs -/

inductive Refusal where
  | valueError (message : String)
  | permissionError (message : String)
  deriving DecidableEq, Repr

abbrev DisputeTx (α : Type) : Type := Tx Refusal Books α

def createDispute (settlementId dealerId : ℕ) (reason : String) : DisputeTx SettlementDispute := do
  let books ← look
  let settlement ← demand (books.db.settlements.get? settlementId)
    (.valueError "Settlement not found")
  ensure (settlement.dealerId = some dealerId)
    (.permissionError "You can only dispute your own settlements")
  ensure (books.disputes.find? fun d => d.settlementId = settlementId ∧ d.Unresolved).isNone
    (.valueError "An open dispute already exists for this settlement")
  let dispute (id : ℕ) : SettlementDispute := { id, settlementId, dealerId, reason }
  update fun books => { books with disputes := books.disputes.add dispute }
  commit
  return dispute books.disputes.freshKey

/-- The settlement is worth more, or less. -/
def Books.adjust (books : Books) (settlementId : ℕ) (adjustment : ℚ) : Books :=
  { books with
    db := rewriteSettlement settlementId
      (fun s => { s with netPayable := adjusted s.netPayable adjustment }) (fun _ => rfl) books.db }

def resolveDispute (now disputeId : ℕ) (action notes : String) (adjustment : ℚ) :
    DisputeTx SettlementDispute := do
  let books ← look
  let dispute ← demand (books.disputes.get? disputeId) (.valueError "Dispute not found")
  ensure dispute.Unresolved (.valueError "Dispute is already resolved")
  let dispute ←
    if action = "approve" then do
      update fun books => books.adjust dispute.settlementId adjustment
      pure { dispute with
        status := .resolved, adjustmentAmount := some (roundCents adjustment) }
    else if action = "reject" then pure { dispute with status := .rejected }
    else raise (.valueError "action must be 'approve' or 'reject'")
  let dispute := { dispute with resolutionNotes := some notes, resolvedAt := some now }
  update fun books => { books with disputes := books.disputes.set dispute }
  commit
  return dispute

/-! ## Runs -/

inductive Event where
  /-- a commission is logged, or a settlement generated -/
  | month (event : Months.Event)
  | createDispute (settlementId dealerId : ℕ) (reason : String)
  | resolveDispute (now disputeId : ℕ) (action notes : String) (adjustment : ℚ)
  | payment (payment : Payment)

def netPayable (db : Db) (settlementId : ℕ) : ℤ :=
  ((db.settlements.get? settlementId).map Settlement.netPayable).getD 0

/-- The payouts of a call, with the amounts. -/
def newAmounts (db db' : Db) : List (ℕ × ℤ) :=
  (db'.payouts.drop db.payouts.length).map fun k => (k, netPayable db k)

def step (books : Books) : Event → Books
  | .month event => { books with db := Months.eventStep books.db event }
  | .createDispute settlementId dealerId reason =>
    ((createDispute settlementId dealerId reason).call books).2
  | .resolveDispute now disputeId action notes adjustment =>
    ((resolveDispute now disputeId action notes adjustment).call books).2
  | .payment payment =>
    { books with
      db := paymentStep books.db payment
      amounts := books.amounts ++ newAmounts books.db (paymentStep books.db payment) }

def paidFor (amounts : List (ℕ × ℤ)) (settlementId : ℕ) : ℤ :=
  ((amounts.filter fun a => a.1 = settlementId).map Prod.snd).sum

structure Sound (books : Books) : Prop where
  nonneg : ∀ s ∈ books.db.settlements, 0 ≤ s.netPayable
  paid : ∀ s ∈ books.db.settlements, s.status = .paid → paidFor books.amounts s.id = s.netPayable
  single : ∀ d ∈ books.disputes, ∀ d' ∈ books.disputes, d.Unresolved → d'.Unresolved →
    d.settlementId = d'.settlementId → d = d'

/-- Paid settlements stay paid, and worth what they were. -/
def Final (books books' : Books) : Prop :=
  ∀ s ∈ books.db.settlements, s.status = .paid →
    ∃ s' ∈ books'.db.settlements, s'.id = s.id ∧ s'.status = .paid ∧ s'.netPayable = s.netPayable

/-- An adjustment of the settlement that leaves it at least nothing, and as it is if it is paid. -/
def Tolerable (s : Settlement) (adjustment : ℚ) : Prop :=
  if s.status = .paid then Negligible s.netPayable adjustment
  else -1 / 2 ≤ s.netPayable + adjustment

instance (s : Settlement) (adjustment : ℚ) : Decidable (Tolerable s adjustment) := by
  unfold Tolerable
  infer_instance

/-- What the code does not check. -/
def Fine (books : Books) : Event → Prop
  | .resolveDispute _ disputeId action _ adjustment =>
    action = "approve" → ∀ d ∈ books.disputes.get? disputeId, d.Unresolved →
      ∀ s ∈ books.db.settlements.get? d.settlementId, Tolerable s adjustment
  | _ => True

/-- Nothing fails after a payout. -/
def Clean (books : Books) : Event → Prop
  | .payment payment => PaidCleanly books.db payment
  | _ => True

/-- What the payments keep. -/
structure Kept (books : Books) : Prop where
  settled : Settled books.db
  paidOut : ∀ s ∈ books.db.settlements, s.status = .paid → s.id ∈ books.db.payouts
  amounts : books.amounts.map Prod.fst = books.db.payouts

/-- Nothing has been disputed or paid. -/
structure Begun (books : Books) : Prop where
  disputes : ∀ d, d ∉ books.disputes
  payouts : books.db.payouts = []
  amounts : books.amounts = []
  unpaid : ∀ s ∈ books.db.settlements, s.status ≠ .paid ∧ 0 ≤ s.netPayable

theorem Begun.kept {books : Books} (h : Begun books) : Kept books := by
  refine ⟨⟨?_, fun k hk => ?_⟩, fun s hs hpaid => absurd hpaid (h.unpaid s hs).1, ?_⟩
  · rw [h.payouts]
    exact List.nodup_nil
  · rw [h.payouts] at hk
    cases hk
  · rw [h.amounts, h.payouts, List.map_nil]

theorem Begun.sound {books : Books} (h : Begun books) : Sound books :=
  ⟨fun s hs => (h.unpaid s hs).2, fun s hs hpaid => absurd hpaid (h.unpaid s hs).1,
    fun d hd => absurd hd (h.disputes d)⟩

/-! ## Payments -/

/-- What payments do to the rows: nothing but their status and its circumstances is written, a paid
settlement stays paid, and what is paid was paid out. -/
structure Tracks (db₀ db : Db) : Prop where
  row : ∀ s' ∈ db.settlements, ∃ s ∈ db₀.settlements, s.id = s'.id ∧ s'.netPayable = s.netPayable ∧
    (s.status = .paid → s'.status = .paid)
  back : ∀ s ∈ db₀.settlements, ∃ s' ∈ db.settlements, s'.id = s.id
  payouts : db₀.payouts <+: db.payouts
  paidOut : ∀ s ∈ db.settlements, s.status = .paid → s.id ∈ db.payouts

/-- No settlement of the number is paid. -/
def Unpaid (db : Db) (settlementId : ℕ) : Prop :=
  ∀ s ∈ db.settlements, s.id = settlementId → s.status ≠ .paid

section

variable {db₀ db : Db} {settlementId : ℕ}

theorem tracks_refl (h : ∀ s ∈ db.settlements, s.status = .paid → s.id ∈ db.payouts) :
    Tracks db db :=
  ⟨fun s hs => ⟨s, hs, rfl, rfl, id⟩, fun s hs => ⟨s, hs, rfl⟩, List.prefix_rfl, h⟩

theorem Tracks.unpaid (h : Tracks db₀ db) {s : Settlement} (hs : s ∈ db.settlements)
    (hstatus : s.status ≠ .paid) : Unpaid db₀ s.id := by
  obtain ⟨s₀, hs₀, hid, -, hpaid⟩ := h.row s hs
  intro x hx hxid hxpaid
  obtain rfl : x = s₀ := Table.eq_of_key hx hs₀ (hxid.trans hid.symm)
  exact hstatus (hpaid hxpaid)

theorem Tracks.rewritten (h : Tracks db₀ db) (hunpaid : Unpaid db₀ settlementId)
    {f : Settlement → Settlement} {hf : ∀ s, (f s).id = s.id}
    (hnet : ∀ s, (f s).netPayable = s.netPayable)
    (hpaid : ∀ s ∈ db.settlements, s.id = settlementId → (f s).status = .paid →
      settlementId ∈ db.payouts) :
    Tracks db₀ (rewriteSettlement settlementId f hf db) := by
  refine ⟨fun x hx => ?_, fun s hs => ?_, h.payouts, fun x hx hxpaid => ?_⟩
  · obtain ⟨r, hr, rfl⟩ := mem_rewritten.mp hx
    obtain ⟨s, hs, hid, hsnet, hspaid⟩ := h.row r hr
    refine ⟨s, hs, ?_⟩
    split_ifs with hrid
    · rw [hf, hnet]
      exact ⟨hid, hsnet, fun hsp => absurd hsp (hunpaid s hs (hid.trans hrid))⟩
    · exact ⟨hid, hsnet, hspaid⟩
  · obtain ⟨r, hr, hid⟩ := h.back s hs
    exact there_rewritten ⟨r, hr, hid⟩
  · obtain ⟨r, hr, rfl⟩ := mem_rewritten.mp hx
    show _ ∈ db.payouts
    split_ifs at hxpaid ⊢ with hrid
    · rw [hf, hrid]
      exact hpaid r hr hrid hxpaid
    · exact h.paidOut r hr hxpaid

theorem Tracks.executed (h : Tracks db₀ db) (k : ℕ) :
    Tracks db₀ { db with payouts := db.payouts ++ [k] } :=
  ⟨h.row, h.back, h.payouts.trans (List.prefix_append _ _), fun s hs hpaid =>
    List.mem_append_left _ (h.paidOut s hs hpaid)⟩

theorem throughout_safeCommit (error : Option String) :
    Throughout (Tracks db₀) (safeCommit error) := by
  cases error with
  | none => exact throughout_commit
  | some e => exact throughout_rollback.bind fun _ => (readOnly_raise e).throughout

theorem throughout_raiseIf (error : Option String) : Throughout (Tracks db₀) (raiseIf error) := by
  cases error with
  | none => exact (readOnly_pure _).throughout
  | some e => exact (readOnly_raise e).throughout

theorem throughout_markFailed (hunpaid : Unpaid db₀ settlementId) (error : String) :
    Throughout (Tracks db₀) (markFailed settlementId error) :=
  throughout_update fun _ h => h.rewritten hunpaid (fun _ => rfl) fun s _ _ hpaid => by cases hpaid

theorem throughout_paySettlement (now : ℕ) (hunpaid : Unpaid db₀ settlementId) (c : Circumstances) :
    Throughout (Tracks db₀) (paySettlement now settlementId c) := by
  intro s hc hw
  unfold paySettlement
  rcases hanswer : c.answer with ⟨reference, url⟩ | error
  · have hpaid : Tracks db₀ (rewriteSettlement settlementId (withPayout now (reference, url))
        (fun _ => rfl) { s.working with payouts := s.working.payouts ++ [settlementId] }) :=
      (hw.executed settlementId).rewritten hunpaid (fun _ => rfl)
        fun _ _ _ _ => List.mem_append_right _ (List.mem_singleton_self _)
    rcases hquery : c.queryError with _ | e
    -- the commissions are written too, which nothing here is about
    · exact ⟨hc.executed settlementId, ⟨hpaid.row, hpaid.back, hpaid.payouts, hpaid.paidOut⟩⟩
    · exact ⟨hc.executed settlementId, hpaid⟩
  · exact ⟨hc, hw⟩

theorem throughout_payment (payment : Payment) : Throughout (Tracks db₀) payment.program := by
  cases payment with
  | batch now month circumstances commitError =>
    refine throughout_look_bind fun db h => (throughout_forM_mem _ fun k hk => ?_).bind fun _ =>
      throughout_safeCommit _
    obtain ⟨s, hs, rfl⟩ := List.mem_map.mp hk
    obtain ⟨hs, hdue⟩ := Table.mem_filter.mp hs
    have hunpaid := h.unpaid hs (by rw [(of_decide_eq_true hdue).2]; decide)
    exact (throughout_paySettlement now hunpaid _).handle fun e => throughout_markFailed hunpaid e
  | single now settlementId c commitError refreshError failureCommitError =>
    refine throughout_look_bind fun db h => throughout_demand_bind fun s hs =>
      throughout_ensure_bind fun hstatus => ?_
    obtain ⟨hmem, rfl⟩ := Table.get?_eq_some.mp hs
    have hunpaid := h.unpaid hmem
      (by rcases hstatus with hstatus | hstatus <;> rw [hstatus] <;> decide)
    refine Throughout.handle ?_ fun e => ?_
    · refine (throughout_paySettlement now hunpaid c).bind fun _ => Throughout.bind
        (throughout_update fun db h => h.rewritten hunpaid (fun _ => rfl) fun s hs hid hpaid => ?_)
        fun _ => (throughout_safeCommit _).bind fun _ => throughout_raiseIf _
      exact hid ▸ h.paidOut s hs hpaid
    · exact (throughout_markFailed hunpaid e).bind fun _ => (throughout_safeCommit _).bind fun _ =>
        (readOnly_raise _).throughout

theorem tracks_payment (h : ∀ s ∈ db.settlements, s.status = .paid → s.id ∈ db.payouts)
    (payment : Payment) : Tracks db (paymentStep db payment) :=
  (throughout_payment payment).call (tracks_refl h)

end

/-! ### The amounts -/

theorem paidFor_append (amounts amounts' : List (ℕ × ℤ)) (k : ℕ) :
    paidFor (amounts ++ amounts') k = paidFor amounts k + paidFor amounts' k := by
  rw [paidFor, List.filter_append, List.map_append, List.sum_append, paidFor, paidFor]

theorem paidFor_eq_zero {amounts : List (ℕ × ℤ)} {k : ℕ} (h : k ∉ amounts.map Prod.fst) :
    paidFor amounts k = 0 := by
  have hnone : amounts.filter (fun a => a.1 = k) = [] := by
    refine List.filter_eq_nil_iff.mpr fun a ha hak => h ?_
    rw [decide_eq_true_eq] at hak
    exact hak ▸ List.mem_map_of_mem ha
  rw [paidFor, hnone]
  rfl

theorem paidFor_new {ks : List ℕ} (hks : ks.Nodup) (f : ℕ → ℤ) {k : ℕ} (hk : k ∈ ks) :
    paidFor (ks.map fun k => (k, f k)) k = f k := by
  induction ks with
  | nil => cases hk
  | cons j ks ih =>
    obtain ⟨hj, hks⟩ := List.nodup_cons.mp hks
    rw [List.map_cons, ← List.singleton_append, paidFor_append]
    by_cases hjk : j = k
    · subst hjk
      have hrest : paidFor (ks.map fun k => (k, f k)) j = 0 := by
        refine paidFor_eq_zero ?_
        rwa [List.map_map, show (Prod.fst ∘ fun k => (k, f k)) = id from rfl, List.map_id]
      rw [hrest]
      simp [paidFor]
    · have hmem : k ∈ ks := (List.mem_cons.mp hk).resolve_left fun h => hjk h.symm
      rw [ih hks hmem]
      simp [paidFor, hjk]

theorem netPayable_of_mem {db : Db} {s : Settlement} (hs : s ∈ db.settlements) :
    netPayable db s.id = s.netPayable := by
  have hget : db.settlements.get? s.id = some s := Table.get?_of_mem hs
  rw [netPayable, hget]
  rfl

section

variable {books : Books}

theorem payment_sound (hk : Kept books) (hs : Sound books) (payment : Payment)
    (hclean : PaidCleanly books.db payment) :
    Kept (step books (.payment payment)) ∧ Sound (step books (.payment payment)) ∧
      Final books (step books (.payment payment)) := by
  have htracks := tracks_payment hk.paidOut payment
  have hsettled : Settled (paymentStep books.db payment) :=
    payment_settled hk.settled payment hclean
  obtain ⟨new, hnew⟩ := htracks.payouts
  have hamounts : newAmounts books.db (paymentStep books.db payment) =
      new.map fun k => (k, netPayable books.db k) := by
    rw [newAmounts, ← hnew, List.drop_left]
  have honce := hsettled.once
  rw [← hnew, List.nodup_append] at honce
  obtain ⟨-, hnodup, hdisjoint⟩ := honce
  have hfst : (new.map fun k => (k, netPayable books.db k)).map Prod.fst = new := by
    rw [List.map_map]
    exact List.map_id new
  refine ⟨⟨hsettled, htracks.paidOut, ?_⟩, ⟨fun x hx => ?_, fun x hx hpaid => ?_, hs.single⟩,
    fun s hmem hpaid => ?_⟩
  · show (books.amounts ++ newAmounts books.db _).map Prod.fst = _
    rw [List.map_append, hk.amounts, hamounts, hfst, hnew]
    rfl
  · obtain ⟨s, hmem, -, hnet, -⟩ := htracks.row x hx
    rw [hnet]
    exact hs.nonneg s hmem
  · obtain ⟨s, hmem, hid, hnet, -⟩ := htracks.row x hx
    show paidFor (books.amounts ++ newAmounts books.db _) x.id = x.netPayable
    rw [hamounts, paidFor_append, hnet, ← hid]
    by_cases hbefore : s.status = .paid
    · -- it is none of those that are paid now
      have hnot : s.id ∉ new := fun h => hdisjoint _ (hk.paidOut s hmem hbefore) _ h rfl
      rw [hs.paid s hmem hbefore, paidFor_eq_zero (by rwa [hfst]), add_zero]
    · have hold : s.id ∉ books.amounts.map Prod.fst := by
        rw [hk.amounts]
        intro h
        obtain ⟨r, hr, hrid, hrpaid⟩ := hk.settled.marked s.id h
        rw [Table.eq_of_key hr hmem hrid] at hrpaid
        exact hbefore hrpaid
      have hpayout : s.id ∈ books.db.payouts ++ new := by
        rw [hnew, hid]
        exact htracks.paidOut x hx hpaid
      have hmemnew : s.id ∈ new := by
        rcases List.mem_append.mp hpayout with h | h
        · rw [← hk.amounts] at h
          exact absurd h hold
        · exact h
      rw [paidFor_eq_zero hold, paidFor_new hnodup _ hmemnew, zero_add, netPayable_of_mem hmem]
  · obtain ⟨x, hx, hid⟩ := htracks.back s hmem
    obtain ⟨r, hr, hrid, hnet, hrpaid⟩ := htracks.row x hx
    obtain rfl : r = s := Table.eq_of_key hr hmem (hrid.trans hid)
    exact ⟨x, hx, hid, hrpaid hpaid, hnet⟩

/-! ## The other calls -/

theorem month_rows (db : Db) (event : Months.Event) :
    (Months.eventStep db event).payouts = db.payouts ∧
      (∀ s ∈ db.settlements, s ∈ (Months.eventStep db event).settlements) ∧
      ∀ s ∈ (Months.eventStep db event).settlements, s ∈ db.settlements ∨
        s.status = .generated ∧ 0 ≤ s.netPayable := by
  cases event with
  | earn dealerId amount createdAt => exact ⟨rfl, fun s hs => hs, fun s hs => .inl hs⟩
  | generate now dealerId month =>
    rcases Months.generate_cases dealerId month db with ⟨hsame, -⟩ | ⟨m, -, hrun⟩
    · rw [Months.eventStep, hsame]
      exact ⟨rfl, fun s hs => hs, fun s hs => .inl hs⟩
    · rw [Months.eventStep, hrun]
      refine ⟨rfl, fun s hs => Months.mem_settlements.mpr (.inl hs), fun s hs => ?_⟩
      rcases Months.mem_settlements.mp hs with hs | rfl
      · exact .inl hs
      · exact .inr ⟨rfl, Int.le_max_left _ _⟩

theorem month_sound (hk : Kept books) (hs : Sound books) (event : Months.Event) :
    Kept (step books (.month event)) ∧ Sound (step books (.month event)) ∧
      Final books (step books (.month event)) := by
  obtain ⟨hpayouts, hold, hnew⟩ := month_rows books.db event
  have hpaid : ∀ s ∈ (Months.eventStep books.db event).settlements, s.status = .paid →
      s ∈ books.db.settlements := by
    intro s hmem hstatus
    refine (hnew s hmem).resolve_right ?_
    rintro ⟨hgenerated, -⟩
    rw [hgenerated] at hstatus
    cases hstatus
  refine ⟨⟨⟨?_, fun k hmem => ?_⟩, fun s hmem hstatus => ?_, hk.amounts.trans hpayouts.symm⟩,
    ⟨fun s hmem => ?_, fun s hmem hstatus => hs.paid s (hpaid s hmem hstatus) hstatus, hs.single⟩,
    fun s hmem hstatus => ⟨s, hold s hmem, rfl, hstatus, rfl⟩⟩
  · show (Months.eventStep books.db event).payouts.Nodup
    rw [hpayouts]
    exact hk.settled.once
  · have hmem : k ∈ (Months.eventStep books.db event).payouts := hmem
    rw [hpayouts] at hmem
    obtain ⟨s, hs, hid, hstatus⟩ := hk.settled.marked k hmem
    exact ⟨s, hold s hs, hid, hstatus⟩
  · show s.id ∈ (Months.eventStep books.db event).payouts
    rw [hpayouts]
    exact hk.paidOut s (hpaid s hmem hstatus) hstatus
  · rcases hnew s hmem with hmem | ⟨-, hnonneg⟩
    · exact hs.nonneg s hmem
    · exact hnonneg

/-- A dispute is opened where there is no unresolved one, or the call is refused. -/
theorem createDispute_call (books : Books) (settlementId dealerId : ℕ) (reason : String) :
    ((createDispute settlementId dealerId reason).call books).2 = books ∨
    (∀ d ∈ books.disputes, d.settlementId = settlementId → ¬ d.Unresolved) ∧
      ((createDispute settlementId dealerId reason).call books).2 =
        { books with disputes :=
          books.disputes.add fun id => { id, settlementId, dealerId, reason } } := by
  rcases hget : books.db.settlements.get? settlementId with _ | settlement
  · refine .inl ?_
    rw [call, createDispute, look_bind, Session.working_fresh, demand_bind_none hget]
    rfl
  by_cases hdealer : settlement.dealerId = some dealerId
  swap
  · refine .inl ?_
    rw [call, createDispute, look_bind, Session.working_fresh, demand_bind hget,
      ensure_bind_not hdealer]
    rfl
  by_cases hnone : (books.disputes.find? fun d =>
      d.settlementId = settlementId ∧ d.Unresolved).isNone
  · refine .inr ⟨fun d hd hid hopen => ?_, ?_⟩
    · have hnot := Table.find?_eq_none.mp (Option.isNone_iff_eq_none.mp hnone) d hd
      simp [hid, hopen] at hnot
    · rw [call, createDispute, look_bind, Session.working_fresh, demand_bind hget,
        ensure_bind hdealer, ensure_bind hnone]
      rfl
  · refine .inl ?_
    rw [call, createDispute, look_bind, Session.working_fresh, demand_bind hget,
      ensure_bind hdealer, ensure_bind_not hnone]
    rfl

theorem createDispute_sound (hk : Kept books) (hs : Sound books) (settlementId dealerId : ℕ)
    (reason : String) :
    Kept (step books (.createDispute settlementId dealerId reason)) ∧
      Sound (step books (.createDispute settlementId dealerId reason)) ∧
      Final books (step books (.createDispute settlementId dealerId reason)) := by
  have hfinal : ∀ b : Books, b.db = books.db → Final books b := by
    intro b hb s hmem hstatus
    exact ⟨s, hb ▸ hmem, rfl, hstatus, rfl⟩
  rw [step]
  rcases createDispute_call books settlementId dealerId reason with hsame | ⟨hnone, hrun⟩
  · rw [hsame]
    exact ⟨hk, hs, hfinal _ rfl⟩
  · rw [hrun]
    refine ⟨⟨hk.settled, hk.paidOut, hk.amounts⟩, ⟨hs.nonneg, hs.paid, ?_⟩, hfinal _ rfl⟩
    intro d hd d' hd' hopen hopen' hid
    rcases Table.mem_add.mp hd with hd | rfl <;> rcases Table.mem_add.mp hd' with hd' | rfl
    · exact hs.single d hd d' hd' hopen hopen' hid
    · exact absurd hopen (hnone d hd hid)
    · exact absurd hopen' (hnone d' hd' hid.symm)
    · rfl

/-- The dispute once it is resolved or rejected. -/
def closed (now : ℕ) (action notes : String) (adjustment : ℚ) (d : SettlementDispute) :
    SettlementDispute :=
  { d with
    status := if action = "approve" then .resolved else .rejected
    adjustmentAmount :=
      if action = "approve" then some (roundCents adjustment) else d.adjustmentAmount
    resolutionNotes := some notes
    resolvedAt := some now }

theorem closed_resolved (now : ℕ) (action notes : String) (adjustment : ℚ)
    (d : SettlementDispute) : ¬ (closed now action notes adjustment d).Unresolved := by
  unfold closed SettlementDispute.Unresolved
  split_ifs <;> decide

/-- An unresolved dispute is resolved, and its settlement adjusted if it is approved; or the call is
refused. -/
theorem resolveDispute_call (books : Books) (now disputeId : ℕ) (action notes : String)
    (adjustment : ℚ) :
    ((resolveDispute now disputeId action notes adjustment).call books).2 = books ∧
      (action = "approve" → ∀ d ∈ books.disputes.get? disputeId, ¬ d.Unresolved) ∨
    ∃ d, books.disputes.get? disputeId = some d ∧ d.Unresolved ∧
      ((resolveDispute now disputeId action notes adjustment).call books).2 =
        { (if action = "approve" then books.adjust d.settlementId adjustment else books) with
          disputes := books.disputes.set (closed now action notes adjustment d) } := by
  rcases hget : books.disputes.get? disputeId with _ | d
  · refine .inl ⟨?_, by simp⟩
    rw [call, resolveDispute, look_bind, Session.working_fresh, demand_bind_none hget]
    rfl
  by_cases hopen : d.Unresolved
  swap
  · refine .inl ⟨?_, fun _ x hx => Option.some.inj hx ▸ hopen⟩
    rw [call, resolveDispute, look_bind, Session.working_fresh, demand_bind hget,
      ensure_bind_not hopen]
    rfl
  by_cases happrove : action = "approve"
  · refine .inr ⟨d, rfl, hopen, ?_⟩
    rw [call, resolveDispute, look_bind, Session.working_fresh, demand_bind hget,
      ensure_bind hopen]
    simp only [happrove, if_true, closed]
    rfl
  by_cases hreject : action = "reject"
  · refine .inr ⟨d, rfl, hopen, ?_⟩
    rw [call, resolveDispute, look_bind, Session.working_fresh, demand_bind hget,
      ensure_bind hopen]
    simp only [hreject, if_true, closed]
    rfl
  · refine .inl ⟨?_, fun h => absurd h happrove⟩
    rw [call, resolveDispute, look_bind, Session.working_fresh, demand_bind hget,
      ensure_bind hopen]
    simp only [happrove, hreject, if_false]
    rfl

theorem adjust_iff (hs : Sound books) (settlementId : ℕ) (adjustment : ℚ) :
    ((∀ s ∈ (books.adjust settlementId adjustment).db.settlements, 0 ≤ s.netPayable) ∧
        (∀ s ∈ (books.adjust settlementId adjustment).db.settlements, s.status = .paid →
          paidFor books.amounts s.id = s.netPayable) ∧
        Final books (books.adjust settlementId adjustment)) ↔
      ∀ s ∈ books.db.settlements.get? settlementId, Tolerable s adjustment := by
  constructor
  · rintro ⟨hnonneg, -, hfinal⟩ s hget
    obtain ⟨hmem, hid⟩ := Table.get?_eq_some.mp hget
    have hx : { s with netPayable := adjusted s.netPayable adjustment } ∈
        (books.adjust settlementId adjustment).db.settlements :=
      mem_rewritten.mpr ⟨s, hmem, if_pos hid⟩
    unfold Tolerable
    split_ifs with hpaid
    · obtain ⟨s', hs', hid', -, hnet⟩ := hfinal s hmem hpaid
      rw [Table.eq_of_key hs' hx hid'] at hnet
      exact adjusted_eq_iff.mp hnet
    · exact adjusted_nonneg_iff.mp (hnonneg _ hx)
  · intro htolerable
    have hrow : ∀ r ∈ books.db.settlements, r.id = settlementId → Tolerable r adjustment :=
      fun r hr hid => htolerable r (Table.get?_eq_some.mpr ⟨hr, hid⟩)
    have hpaid : ∀ r ∈ books.db.settlements, r.id = settlementId → r.status = .paid →
        adjusted r.netPayable adjustment = r.netPayable := by
      intro r hr hid hpaid
      have h := hrow r hr hid
      rw [Tolerable, if_pos hpaid] at h
      exact adjusted_eq_iff.mpr h
    refine ⟨fun x hx => ?_, fun x hx hstatus => ?_, fun r hr hstatus => ?_⟩
    · obtain ⟨r, hr, rfl⟩ := mem_rewritten.mp hx
      split_ifs with hid
      · by_cases hstatus : r.status = .paid
        · show 0 ≤ adjusted r.netPayable adjustment
          rw [hpaid r hr hid hstatus]
          exact hs.nonneg r hr
        · have h := hrow r hr hid
          rw [Tolerable, if_neg hstatus] at h
          exact adjusted_nonneg_iff.mpr h
      · exact hs.nonneg r hr
    · obtain ⟨r, hr, rfl⟩ := mem_rewritten.mp hx
      split_ifs at hstatus ⊢ with hid
      · show paidFor books.amounts r.id = adjusted r.netPayable adjustment
        rw [hpaid r hr hid hstatus]
        exact hs.paid r hr hstatus
      · exact hs.paid r hr hstatus
    · refine ⟨_, mem_rewritten.mpr ⟨r, hr, rfl⟩, ?_⟩
      split_ifs with hid
      · exact ⟨rfl, hstatus, hpaid r hr hid hstatus⟩
      · exact ⟨rfl, hstatus, rfl⟩

theorem adjust_kept (hk : Kept books) (settlementId : ℕ) (adjustment : ℚ) :
    Kept (books.adjust settlementId adjustment) := by
  refine ⟨hk.settled.relabelled fun _ hstatus => hstatus, fun x hx hstatus => ?_, hk.amounts⟩
  obtain ⟨r, hr, rfl⟩ := mem_rewritten.mp hx
  show _ ∈ books.db.payouts
  split_ifs at hstatus ⊢
  · exact hk.paidOut r hr hstatus
  · exact hk.paidOut r hr hstatus

theorem final_refl (books : Books) : Final books books :=
  fun s hs hpaid => ⟨s, hs, rfl, hpaid, rfl⟩

theorem Final.trans {books' books'' : Books} (h : Final books books') (h' : Final books' books'') :
    Final books books'' := by
  intro s hs hpaid
  obtain ⟨s', hs', hid', hpaid', hnet'⟩ := h s hs hpaid
  obtain ⟨s'', hs'', hid'', hpaid'', hnet''⟩ := h' s' hs' hpaid'
  exact ⟨s'', hs'', hid''.trans hid', hpaid'', hnet''.trans hnet'⟩

theorem single_closed (hs : Sound books) {now : ℕ} {action notes : String}
    {d : SettlementDispute} :
    ∀ x ∈ books.disputes.set (closed now action notes adjustment d),
      ∀ y ∈ books.disputes.set (closed now action notes adjustment d),
        x.Unresolved → y.Unresolved → x.settlementId = y.settlementId → x = y := by
  have hold : ∀ x ∈ books.disputes.set (closed now action notes adjustment d), x.Unresolved →
      x ∈ books.disputes := by
    intro x hx hopen
    rcases Table.mem_set.mp hx with ⟨hx, -⟩ | ⟨rfl, -⟩
    · exact hx
    · exact absurd hopen (closed_resolved _ _ _ _ _)
  exact fun x hx y hy hx' hy' => hs.single x (hold x hx hx') y (hold y hy hy') hx' hy'

theorem resolveDispute_iff (hk : Kept books) (hs : Sound books) (now disputeId : ℕ)
    (action notes : String) (adjustment : ℚ) :
    Kept (step books (.resolveDispute now disputeId action notes adjustment)) ∧
      (Sound (step books (.resolveDispute now disputeId action notes adjustment)) ∧
          Final books (step books (.resolveDispute now disputeId action notes adjustment)) ↔
        Fine books (.resolveDispute now disputeId action notes adjustment)) := by
  rw [step, Fine]
  rcases resolveDispute_call books now disputeId action notes adjustment with
    ⟨hsame, hnone⟩ | ⟨d, hget, hopen, hrun⟩
  · rw [hsame]
    exact ⟨hk, fun _ happrove d hd hopen => absurd hopen (hnone happrove d hd),
      fun _ => ⟨hs, final_refl books⟩⟩
  rw [hrun, hget]
  by_cases happrove : action = "approve"
  · rw [if_pos happrove]
    have hadjusted := adjust_kept hk d.settlementId adjustment
    refine ⟨⟨hadjusted.settled, hadjusted.paidOut, hadjusted.amounts⟩, ?_⟩
    have hiff := adjust_iff hs d.settlementId adjustment
    constructor
    · rintro ⟨hsound, hfinal⟩ - x hx -
      obtain rfl := Option.some.inj hx
      exact hiff.mp ⟨hsound.nonneg, hsound.paid, hfinal⟩
    · intro hfine
      obtain ⟨hnonneg, hpaid, hfinal⟩ := hiff.mpr (hfine happrove d rfl hopen)
      exact ⟨⟨hnonneg, hpaid, single_closed hs⟩, hfinal⟩
  · rw [if_neg happrove]
    exact ⟨⟨hk.settled, hk.paidOut, hk.amounts⟩, fun _ h => absurd h happrove,
      fun _ => ⟨⟨hs.nonneg, hs.paid, single_closed hs⟩, final_refl books⟩⟩

theorem step_iff (hk : Kept books) (hs : Sound books) (event : Event) (hclean : Clean books event) :
    Kept (step books event) ∧
      (Sound (step books event) ∧ Final books (step books event) ↔ Fine books event) := by
  cases event with
  | month event =>
    obtain ⟨hkept, hsound, hfinal⟩ := month_sound hk hs event
    exact ⟨hkept, fun _ => trivial, fun _ => ⟨hsound, hfinal⟩⟩
  | createDispute settlementId dealerId reason =>
    obtain ⟨hkept, hsound, hfinal⟩ := createDispute_sound hk hs settlementId dealerId reason
    exact ⟨hkept, fun _ => trivial, fun _ => ⟨hsound, hfinal⟩⟩
  | resolveDispute now disputeId action notes adjustment =>
    exact resolveDispute_iff hk hs now disputeId action notes adjustment
  | payment payment =>
    obtain ⟨hkept, hsound, hfinal⟩ := payment_sound hk hs payment hclean
    exact ⟨hkept, fun _ => trivial, fun _ => ⟨hsound, hfinal⟩⟩

end

/-- **Paid settlements are final**, in a run in which nothing fails after a payout, exactly if every
adjustment that is approved leaves a paid settlement as it is, and any other one worth at least
nothing. -/
theorem paid_final_iff (books : Books) (hstart : Begun books) (events : List Event)
    (hclean : Along step Clean books events) :
    (∀ p q r, events = p ++ q ++ r → Sound (run step books p) ∧
      Final (run step books p) (run step books (p ++ q))) ↔
    Along step Fine books events :=
  kept_iff_along_given (J := Kept) (R := Final) final_refl Final.trans
    (fun _ event hk hs hclean => (step_iff hk hs event hclean).1)
    (fun _ event hk hs hclean => (step_iff hk hs event hclean).2) hstart.kept hstart.sound hclean

/-! ## A settlement that is adjusted after it was paid -/

/-- User 3 has earned 85.00 in January. -/
def earned : Books where
  db := { commissionLogs :=
    ⟨[{ id := 1, dealerId := some 3, amount := 8500, createdAt := 63871372800000000 }], by decide⟩ }

theorem earned_begun : Begun earned :=
  ⟨fun _ hd => absurd hd (Table.not_mem_empty _), rfl, rfl,
    fun _ hs => absurd hs (Table.not_mem_empty _)⟩

/-- The settlement is disputed, adjusted by 10.004 and paid. -/
def adjustedThenPaid : List Event :=
  [.month (.generate 0 3 "2025-01"), .createDispute 1 3 "swaps missing",
    .resolveDispute 5 1 "approve" "two swaps" (5002 / 5),
    .payment (.single 6 1 executed none none none), .createDispute 1 3 "more",
    .resolveDispute 7 2 "reject" "no" 100]

theorem paid_final_sample :
    Along step Fine earned adjustedThenPaid ∧ ∀ p q r, adjustedThenPaid = p ++ q ++ r →
      Sound (run step earned p) ∧ Final (run step earned p) (run step earned (p ++ q)) := by
  have hclean : Along step Clean earned adjustedThenPaid :=
    ⟨trivial, trivial, trivial, fun _ _ => ⟨rfl, rfl, rfl⟩, trivial, trivial, trivial⟩
  have hfine : Along step Fine earned adjustedThenPaid := by
    have hrow : ∀ d ∈ (run step earned (adjustedThenPaid.take 2)).disputes.get? 1,
        ∀ s ∈ (run step earned (adjustedThenPaid.take 2)).db.settlements.get? d.settlementId,
          Tolerable s (5002 / 5) := by decide +kernel
    exact ⟨trivial, trivial, fun _ d hd _ => hrow d hd, trivial, trivial,
      fun h => absurd h (by decide), trivial⟩
  exact ⟨hfine, (paid_final_iff earned earned_begun adjustedThenPaid hclean).mpr hfine⟩

/-- The dispute is approved after the settlement was paid. -/
def paidThenAdjusted : List Event :=
  [.month (.generate 0 3 "2025-01"), .payment (.batch 4 "2025-01" (fun _ => executed) none),
    .createDispute 1 3 "swaps missing", .resolveDispute 5 1 "approve" "two swaps" 1000]

theorem paid_settlement_changed :
    ¬ ∀ p q r, paidThenAdjusted = p ++ q ++ r → Sound (run step earned p) ∧
      Final (run step earned p) (run step earned (p ++ q)) := by
  intro h
  have hsound := (h paidThenAdjusted [] [] rfl).1
  have hrow : ∃ s ∈ (run step earned paidThenAdjusted).db.settlements, s.id = 1 ∧
      s.status = .paid ∧ s.netPayable = 9500 := by decide +kernel
  obtain ⟨s, hs, hid, hpaid, hnet⟩ := hrow
  have hamount := hsound.paid s hs hpaid
  rw [hid, hnet] at hamount
  have hout : paidFor (run step earned paidThenAdjusted).amounts 1 = 8500 := by decide +kernel
  rw [hout] at hamount
  exact absurd hamount (by decide)

end WezuBackend.Settlements.Disputes
