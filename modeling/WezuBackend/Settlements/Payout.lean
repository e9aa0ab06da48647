import WezuBackend.Lib.Runs
import WezuBackend.Settlements.Model

/-!
# Payouts

`process_batch_payments` and `process_single_payment` of `SettlementService`.  The gateway is called
first and the database is written afterwards; whatever fails on the way, a commit of the payment
included, the settlement is marked as failed or rolled back, and can then be paid again.

`Settled` is the invariant: a settlement that was paid out is marked as paid, and was paid out once.
A failure after a payout breaks it (`settlement_paid_twice`); runs without such failures keep it.
-/

namespace WezuBackend.Settlements.Payout

open Lib.Tables Lib.Runs Lib.Atomicity Lib.Atomicity.Tx Settlements.Model

/-! ## The programs -/

/-- An exception is its text: that is what is stored of it. -/
abbrev SettlementTx (α : Type) : Type := Tx String Db α

/-- What `_execute_payout` comes back with. -/
inductive PayoutAnswer where
  | executed (transactionReference paymentProofUrl : String)
  | failed (error : String)
  deriving DecidableEq, Repr

/-- What happens outside while one settlement is paid: the answer of the gateway, and an error of
the query for its commissions. -/
structure Circumstances where
  answer : PayoutAnswer
  queryError : Option String := none

/-- The payout has been executed. -/
def Circumstances.Paying (c : Circumstances) : Prop :=
  ∃ reference url, c.answer = .executed reference url

instance (c : Circumstances) : Decidable c.Paying :=
  match h : c.answer with
  | .executed reference url => .isTrue ⟨reference, url, h⟩
  | .failed error => .isFalse (by rintro ⟨_, _, h'⟩; rw [h] at h'; cases h')

def raiseIf (error : Option String) : SettlementTx Unit :=
  match error with
  | none => pure ()
  | some e => raise e

/-- `_safe_commit`; the commit may fail. -/
def safeCommit (error : Option String) : SettlementTx Unit :=
  match error with
  | none => commit
  | some e => do
    rollback
    raise e

def rewriteSettlement (settlementId : ℕ) (f : Settlement → Settlement)
    (hf : ∀ s, (f s).id = s.id) (db : Db) : Db :=
  { db with settlements := db.settlements.update (fun s => s.id = settlementId) f hf }

/-- `_execute_payout`: the gateway pays, or the call fails. -/
def executePayout (settlementId : ℕ) (answer : PayoutAnswer) : SettlementTx (String × String) :=
  fun s =>
    match answer with
    | .executed reference url =>
      (.ok (reference, url), ⟨{ s.committed with payouts := s.committed.payouts ++ [settlementId] },
        { s.working with payouts := s.working.payouts ++ [settlementId] }⟩)
    | .failed error => (.error error, s)

def withPayout (now : ℕ) (payout : String × String) (s : Settlement) : Settlement :=
  { s with status := .paid, transactionReference := some payout.1, paymentProofUrl := some payout.2,
           paidAt := some now }

def withFailure (error : String) (s : Settlement) : Settlement :=
  { s with status := .failed, failureReason := some error }

def withoutFailure (s : Settlement) : Settlement := { s with failureReason := none }

def payCommissions (settlementId : ℕ) (db : Db) : Db :=
  { db with
    commissionLogs := db.commissionLogs.update (fun c => c.settlementId = some settlementId)
      (fun c => { c with status := .paid }) fun _ => rfl }

/-- What both endpoints try for one settlement. -/
def paySettlement (now settlementId : ℕ) (c : Circumstances) : SettlementTx Unit := do
  let payout ← executePayout settlementId c.answer
  update (rewriteSettlement settlementId (withPayout now payout) fun _ => rfl)
  raiseIf c.queryError
  update (payCommissions settlementId)

/-- What both endpoints do when that fails. -/
def markFailed (settlementId : ℕ) (error : String) : SettlementTx Unit :=
  update (rewriteSettlement settlementId (withFailure error) fun _ => rfl)

/-- The turn of one settlement in a batch. -/
def payOrMark (now : ℕ) (circumstances : ℕ → Circumstances) (settlementId : ℕ) :
    SettlementTx Unit :=
  handle (paySettlement now settlementId (circumstances settlementId)) (markFailed settlementId)

def dueSettlements (month : String) (db : Db) : List ℕ :=
  (db.settlements.filter fun s => s.settlementMonth = month ∧ s.status = .generated).map
    Settlement.id

def processBatchPayments (now : ℕ) (month : String) (circumstances : ℕ → Circumstances)
    (commitError : Option String) : SettlementTx Unit := do
  let db ← look
  (dueSettlements month db).forM (payOrMark now circumstances)
  safeCommit commitError

def statusText : SettlementStatus → String
  | .pending => "pending"
  | .generated => "generated"
  | .approved => "approved"
  | .processing => "processing"
  | .paid => "paid"
  | .failed => "failed"

/-- `process_single_payment`; its commits, and the refresh after the first one, may fail. -/
def processSinglePayment (now settlementId : ℕ) (c : Circumstances)
    (commitError refreshError failureCommitError : Option String) : SettlementTx Unit := do
  let db ← look
  let settlement ← demand (db.settlements.get? settlementId) "Settlement not found"
  ensure (settlement.status = .failed ∨ settlement.status = .generated)
    ("Cannot process settlement with status " ++ statusText settlement.status)
  handle
    (do
      paySettlement now settlementId c
      update (rewriteSettlement settlementId withoutFailure fun _ => rfl)
      safeCommit commitError
      raiseIf refreshError)
    fun error => do
      markFailed settlementId error
      safeCommit failureCommitError
      raise ("Payment processing failed: " ++ error)

/-! ## Runs -/

inductive Payment where
  | batch (now : ℕ) (month : String) (circumstances : ℕ → Circumstances)
      (commitError : Option String)
  | single (now settlementId : ℕ) (circumstances : Circumstances)
      (commitError refreshError failureCommitError : Option String)

def Payment.program : Payment → SettlementTx Unit
  | batch now month circumstances commitError =>
    processBatchPayments now month circumstances commitError
  | single now settlementId c commitError refreshError failureCommitError =>
    processSinglePayment now settlementId c commitError refreshError failureCommitError

def paymentStep (db : Db) (payment : Payment) : Db := (payment.program.call db).2

def Payable (db : Db) (settlementId : ℕ) : Prop :=
  ∃ s ∈ db.settlements, s.id = settlementId ∧ (s.status = .failed ∨ s.status = .generated)

/-- Nothing fails after a payout was executed. -/
def PaidCleanly (db : Db) : Payment → Prop
  | .batch _ month circumstances commitError => ∀ settlementId ∈ dueSettlements month db,
      (circumstances settlementId).Paying →
        (circumstances settlementId).queryError = none ∧ commitError = none
  | .single _ settlementId c commitError refreshError _ => Payable db settlementId → c.Paying →
      c.queryError = none ∧ commitError = none ∧ refreshError = none

/-- What was paid out is marked as paid, and was paid out once. -/
structure Settled (db : Db) : Prop where
  once : db.payouts.Nodup
  marked : ∀ settlementId ∈ db.payouts, ∃ s ∈ db.settlements, s.id = settlementId ∧ s.status = .paid

/-! ## One settlement -/

section

variable {now settlementId : ℕ} {c : Circumstances} {s t : Session Db} {db : Db}

variable {f : Settlement → Settlement}

theorem mem_rewritten {hf : ∀ s, (f s).id = s.id} {x : Settlement} :
    x ∈ (rewriteSettlement settlementId f hf db).settlements ↔
      ∃ r ∈ db.settlements, (if r.id = settlementId then f r else r) = x := by
  have h : x ∈ db.settlements.update (fun s => s.id = settlementId) f hf ↔ _ := Table.mem_update
  simp only [decide_eq_true_eq] at h
  exact h

def paidOut (now settlementId : ℕ) (payout : String × String) (s : Session Db) : Session Db :=
  ⟨{ s.committed with payouts := s.committed.payouts ++ [settlementId] },
    payCommissions settlementId (rewriteSettlement settlementId (withPayout now payout)
      (fun _ => rfl)
      { s.working with payouts := s.working.payouts ++ [settlementId] })⟩

/-- **One settlement**: the gateway refuses it, or pays it, or pays it and the query fails. -/
theorem paySettlement_cases (now settlementId : ℕ) (c : Circumstances) (s : Session Db) :
    (∃ e, ¬ c.Paying ∧ paySettlement now settlementId c s = (.error e, s)) ∨
    (∃ payout, c.Paying ∧ c.queryError = none ∧
      paySettlement now settlementId c s = (.ok (), paidOut now settlementId payout s)) ∨
    (c.Paying ∧ c.queryError ≠ none) := by
  rcases hanswer : c.answer with ⟨reference, url⟩ | error
  · have hpaying : c.Paying := ⟨reference, url, hanswer⟩
    rcases hquery : c.queryError with _ | e
    · refine .inr (.inl ⟨(reference, url), hpaying, rfl, ?_⟩)
      unfold paySettlement
      rw [hanswer, hquery]
      rfl
    · exact .inr (.inr ⟨hpaying, by simp⟩)
  · refine .inl ⟨error, ?_, ?_⟩
    · rintro ⟨reference, url, h⟩
      rw [hanswer] at h
      cases h
    · unfold paySettlement
      rw [hanswer]
      rfl

theorem Settled.rewritten (h : Settled db) (hnew : settlementId ∉ db.payouts)
    {hf : ∀ s, (f s).id = s.id} :
    Settled (rewriteSettlement settlementId f hf db) := by
  refine ⟨h.once, fun k hk => ?_⟩
  obtain ⟨r, hr, hid, hpaid⟩ := h.marked k hk
  refine ⟨r, mem_rewritten.mpr ⟨r, hr, if_neg ?_⟩, hid, hpaid⟩
  rw [hid]
  rintro rfl
  exact hnew hk

theorem Settled.relabelled (h : Settled db)
    {hf : ∀ s, (f s).id = s.id} (hstatus : ∀ s, s.status = .paid → (f s).status = .paid) :
    Settled (rewriteSettlement settlementId f hf db) := by
  refine ⟨h.once, fun k hk => ?_⟩
  obtain ⟨r, hr, hid, hpaid⟩ := h.marked k hk
  refine ⟨_, mem_rewritten.mpr ⟨r, hr, rfl⟩, ?_⟩
  split_ifs
  · exact ⟨(hf r).trans hid, hstatus r hpaid⟩
  · exact ⟨hid, hpaid⟩

theorem Settled.paid (h : Settled s.working) (hnew : settlementId ∉ s.working.payouts)
    (hthere : ∃ r ∈ s.working.settlements, r.id = settlementId) (payout : String × String) :
    Settled (paidOut now settlementId payout s).working := by
  have hother :=
    @Settled.rewritten settlementId s.working (withPayout now payout) h hnew (fun _ => rfl)
  refine ⟨?_, fun k hk => ?_⟩
  · have honce : (s.working.payouts ++ [settlementId]).Nodup := by
      rw [List.nodup_append]
      refine ⟨h.once, List.nodup_singleton _, ?_⟩
      rintro k hk _ hk' rfl
      exact hnew (List.mem_singleton.mp hk' ▸ hk)
    exact honce
  · rcases List.mem_append.mp hk with hk | hk
    · exact hother.marked k hk
    · rw [List.mem_singleton.mp hk]
      obtain ⟨r, hr, hid⟩ := hthere
      have hmem : withPayout now payout r ∈ (rewriteSettlement settlementId (withPayout now payout)
          (fun _ => rfl) s.working).settlements := mem_rewritten.mpr ⟨r, hr, if_pos hid⟩
      exact ⟨withPayout now payout r, hmem, hid, rfl⟩

theorem Settled.not_paid (h : Settled db) {r : Settlement} (hr : r ∈ db.settlements)
    (hstatus : r.status = .failed ∨ r.status = .generated) : r.id ∉ db.payouts := by
  intro hk
  obtain ⟨r', hr', hid, hpaid⟩ := h.marked r.id hk
  obtain rfl := Table.eq_of_key hr' hr hid
  rw [hpaid] at hstatus
  rcases hstatus with hstatus | hstatus <;> cases hstatus

end

/-! ## A call -/

section

variable {now : ℕ} {db : Db}

theorem safeCommit_eq (error : Option String) (s : Session Db) : safeCommit error s =
    match error with
    | none => (.ok (), ⟨s.working, s.working⟩)
    | some e => (.error e, ⟨s.committed, s.committed⟩) := by
  rcases error with _ | e <;> rfl

/-- The settlements left in a batch: none was paid out, each is in the table. -/
structure Left (payouts : List ℕ) (settlements : Table Settlement) (left : List ℕ) : Prop where
  nodup : left.Nodup
  new : ∀ k ∈ left, k ∉ payouts
  there : ∀ k ∈ left, ∃ r ∈ settlements, r.id = k

theorem there_rewritten {settlementId : ℕ} {f : Settlement → Settlement}
    {hf : ∀ s, (f s).id = s.id} {k : ℕ} (h : ∃ r ∈ db.settlements, r.id = k) :
    ∃ r ∈ (rewriteSettlement settlementId f hf db).settlements, r.id = k := by
  obtain ⟨r, hr, hid⟩ := h
  refine ⟨_, mem_rewritten.mpr ⟨r, hr, rfl⟩, ?_⟩
  split_ifs
  · rw [hf]
    exact hid
  · exact hid

/-- **A batch** in which no query fails after a payout: the loop returns, and has paid the payouts
of the committed store only if a payout was executed. -/
theorem forM_payOrMark {circumstances : ℕ → Circumstances} {left : List ℕ} {s : Session Db}
    (h : Settled s.working) (hleft : Left s.working.payouts s.working.settlements left)
    (hclean : ∀ k ∈ left, (circumstances k).Paying → (circumstances k).queryError = none) :
    ∃ t, left.forM (payOrMark now circumstances) s = (.ok (), t) ∧ Settled t.working ∧
      ((∃ k ∈ left, (circumstances k).Paying) ∨ t.committed = s.committed) := by
  induction left generalizing s with
  | nil => exact ⟨s, rfl, h, .inr rfl⟩
  | cons k left ih =>
    have hnodup := List.nodup_cons.mp hleft.nodup
    have hnew := hleft.new k List.mem_cons_self
    have hthere := hleft.there k List.mem_cons_self
    have hclean' := fun j hj => hclean j (List.mem_cons_of_mem k hj)
    have hcons : (k :: left).forM (payOrMark now circumstances) s =
        (payOrMark now circumstances k >>= fun _ => left.forM (payOrMark now circumstances)) s :=
          rfl
    rw [hcons]
    rcases paySettlement_cases now k (circumstances k) s with ⟨e, -, hrun⟩ |
      ⟨payout, hpaying, -, hrun⟩ | ⟨hpaying, hquery⟩
    · have hturn : payOrMark now circumstances k s = (.ok (), ⟨s.committed,
          rewriteSettlement k (withFailure e) (fun _ => rfl) s.working⟩) := handle_of_error hrun
      rw [bind_of_ok hturn]
      obtain ⟨t, ht, hsettled, hcommitted⟩ := @ih ⟨s.committed,
        rewriteSettlement k (withFailure e) (fun _ => rfl) s.working⟩ (h.rewritten hnew)
        ⟨hnodup.2, fun j hj => hleft.new j (List.mem_cons_of_mem k hj), fun j hj =>
          there_rewritten (hleft.there j (List.mem_cons_of_mem k hj))⟩ hclean'
      refine ⟨t, ht, hsettled, hcommitted.imp_left ?_⟩
      rintro ⟨j, hj, hjpaying⟩
      exact ⟨j, List.mem_cons_of_mem k hj, hjpaying⟩
    · have hturn : payOrMark now circumstances k s = (.ok (), paidOut now k payout s) :=
        handle_of_ok hrun
      rw [bind_of_ok hturn]
      have hnew' : ∀ j ∈ left, j ∉ (paidOut now k payout s).working.payouts := by
        intro j hj hpaid
        rcases List.mem_append.mp hpaid with hpaid | hpaid
        · exact hleft.new j (List.mem_cons_of_mem k hj) hpaid
        · rw [List.mem_singleton.mp hpaid] at hj
          exact hnodup.1 hj
      have hthere' : ∀ j ∈ left, ∃ r ∈ (paidOut now k payout s).working.settlements, r.id = j :=
        fun j hj => @there_rewritten s.working k (withPayout now payout) (fun _ => rfl) j
          (hleft.there j (List.mem_cons_of_mem k hj))
      obtain ⟨t, ht, hsettled, -⟩ := @ih (paidOut now k payout s) (h.paid hnew hthere payout)
        ⟨hnodup.2, hnew', hthere'⟩ hclean'
      exact ⟨t, ht, hsettled, .inl ⟨k, List.mem_cons_self, hpaying⟩⟩
    · exact absurd (hclean k List.mem_cons_self hpaying) hquery

theorem left_dueSettlements (h : Settled db) (month : String) :
    Left db.payouts db.settlements (dueSettlements month db) := by
  have hdue : ∀ k ∈ dueSettlements month db, ∃ r ∈ db.settlements, r.id = k ∧
      r.status = .generated := by
    intro k hk
    obtain ⟨r, hr, hid⟩ := List.mem_map.mp hk
    obtain ⟨hr, hdue⟩ := Table.mem_filter.mp hr
    exact ⟨r, hr, hid, (of_decide_eq_true hdue).2⟩
  refine ⟨?_, fun k hk => ?_, fun k hk => ?_⟩
  · have hkeys : (db.settlements.rows.map Settlement.id).Nodup := db.settlements.nodup
    exact hkeys.sublist (List.filter_sublist.map Settlement.id)
  · obtain ⟨r, hr, rfl, hstatus⟩ := hdue k hk
    exact h.not_paid hr (.inr hstatus)
  · obtain ⟨r, hr, hid, -⟩ := hdue k hk
    exact ⟨r, hr, hid⟩

theorem batch_settled (h : Settled db) (now : ℕ) (month : String)
    (circumstances : ℕ → Circumstances) (commitError : Option String)
    (hclean : PaidCleanly db (.batch now month circumstances commitError)) :
    Settled (paymentStep db (.batch now month circumstances commitError)) := by
  obtain ⟨t, hloop, hsettled, hcommitted⟩ := @forM_payOrMark now circumstances
    (dueSettlements month db) (.fresh db) h (left_dueSettlements h month)
    fun k hk hpaying => (hclean k hk hpaying).1
  have hrun : processBatchPayments now month circumstances commitError (.fresh db) =
      safeCommit commitError t := by
    unfold processBatchPayments
    rw [look_bind]
    exact bind_of_ok hloop
  rw [safeCommit_eq] at hrun
  unfold paymentStep Payment.program
  rcases commitError with _ | e
  · rw [call_eq hrun]
    exact hsettled
  · rw [call_eq hrun]
    rcases hcommitted with ⟨k, hk, hpaying⟩ | hsame
    · cases (hclean k hk hpaying).2
    · dsimp only
      rw [hsame]
      exact h

theorem single_settled (h : Settled db) (now settlementId : ℕ) (c : Circumstances)
    (commitError refreshError failureCommitError : Option String)
    (hclean : PaidCleanly db
      (.single now settlementId c commitError refreshError failureCommitError)) :
    Settled (paymentStep db
      (.single now settlementId c commitError refreshError failureCommitError)) := by
  unfold paymentStep Payment.program
  dsimp only
  rcases hget : db.settlements.get? settlementId with _ | settlement
  · have hrun : processSinglePayment now settlementId c commitError refreshError failureCommitError
        (.fresh db) = (.error "Settlement not found", .fresh db) := by
      unfold processSinglePayment
      rw [look_bind]
      exact demand_bind_none hget _ _ _
    rw [call_eq hrun]
    exact h
  obtain ⟨hmem, hid⟩ := Table.get?_eq_some.mp hget
  by_cases hstatus : settlement.status = .failed ∨ settlement.status = .generated
  swap
  · have hrun : processSinglePayment now settlementId c commitError refreshError failureCommitError
        (.fresh db) = (.error ("Cannot process settlement with status " ++
          statusText settlement.status), .fresh db) := by
      unfold processSinglePayment
      rw [look_bind]
      exact (demand_bind hget _ _ _).trans (ensure_bind_not hstatus _ _ _)
    rw [call_eq hrun]
    exact h
  have hnew : settlementId ∉ db.payouts := by
    have hpaid := h.not_paid hmem hstatus
    rwa [show settlement.id = settlementId from hid] at hpaid
  have hrun : processSinglePayment now settlementId c commitError refreshError failureCommitError
      (.fresh db) = handle
        (do
          paySettlement now settlementId c
          update (rewriteSettlement settlementId withoutFailure fun _ => rfl)
          safeCommit commitError
          raiseIf refreshError)
        (fun error => do
          markFailed settlementId error
          safeCommit failureCommitError
          raise ("Payment processing failed: " ++ error)) (.fresh db) := by
    unfold processSinglePayment
    rw [look_bind]
    exact (demand_bind hget _ _ _).trans (ensure_bind hstatus _ _ _)
  rcases paySettlement_cases now settlementId c (.fresh db) with ⟨e, -, hpay⟩ |
    ⟨payout, hpaying, -, hpay⟩ | ⟨hpaying, hquery⟩
  · have hfailed : Settled (rewriteSettlement settlementId (withFailure e) (fun _ => rfl) db) :=
      h.rewritten hnew
    rw [handle_of_error (bind_of_error hpay)] at hrun
    rcases failureCommitError with _ | e'
    · rw [call_eq (hrun.trans rfl)]
      exact hfailed
    · rw [call_eq (hrun.trans rfl)]
      exact h
  · have hthere : ∃ r ∈ db.settlements, r.id = settlementId := ⟨settlement, hmem, hid⟩
    obtain ⟨-, hcommit, hrefresh⟩ := hclean ⟨settlement, hmem, hid, hstatus⟩ hpaying
    subst hcommit hrefresh
    have hpaid : Settled (paidOut now settlementId payout (.fresh db)).working :=
      Settled.paid (s := .fresh db) h hnew hthere payout
    have hkept : Settled (rewriteSettlement settlementId withoutFailure (fun _ => rfl)
        (paidOut now settlementId payout (.fresh db)).working) := hpaid.relabelled fun _ hs => hs
    have htry := (bind_of_ok (f := fun _ => do
      update (rewriteSettlement settlementId withoutFailure fun _ => rfl)
      safeCommit none
      raiseIf none) hpay).trans rfl
    rw [handle_of_ok htry] at hrun
    rw [call_eq hrun]
    exact hkept
  · exact absurd (hclean ⟨settlement, hmem, hid, hstatus⟩ hpaying).1 hquery

end

theorem payment_settled {db : Db} (h : Settled db) (payment : Payment)
    (hclean : PaidCleanly db payment) : Settled (paymentStep db payment) := by
  cases payment with
  | batch now month circumstances commitError =>
    exact batch_settled h now month circumstances commitError hclean
  | single now settlementId c commitError refreshError failureCommitError =>
    exact single_settled h now settlementId c commitError refreshError failureCommitError hclean

/-- **Payout once.**  From a store in which what was paid out is marked as paid, no settlement is
ever paid out twice, if in no call of the run something fails after a payout. -/
theorem payouts_once_over_runs (db : Db) (payments : List Payment) (hstart : Settled db)
    (hclean : Along paymentStep PaidCleanly db payments) (p q : List Payment)
    (hp : payments = p ++ q) (settlementId : ℕ) :
    (run paymentStep db p).payouts.count settlementId ≤ 1 := by
  subst hp
  have hsettled : Settled (run paymentStep db p) :=
    run_invariant_of_along (I := Settled) (fun _ payment h hc =>
      payment_settled h payment hc) hstart
      (along_append.mp hclean).1
  exact List.nodup_iff_count_le_one.mp hsettled.once settlementId

/-! ## A settlement that is paid twice -/

/-- Settlement 1 of January 2025 is due. -/
def january : Db where
  settlements := ⟨[{ id := 1, dealerId := some 3, settlementMonth := "2025-01", startDate := 0,
                     endDate := 1, netPayable := 8500, status := .generated }], by decide⟩

theorem settled_january : Settled january :=
  ⟨List.nodup_nil, fun _ hk => absurd hk List.not_mem_nil⟩

def executed : Circumstances := ⟨.executed "PAY-1" "receipt.pdf", none⟩

theorem payouts_once_over_runs_sample : (run paymentStep january
    [.batch 0 "2025-01" (fun _ => executed) none,
      .single 1 1 executed none none none]).payouts.count
      1 ≤ 1 := by
  refine payouts_once_over_runs january
    [.batch 0 "2025-01" (fun _ => executed) none, .single 1 1 executed none none none]
    settled_january ⟨?_, ?_, trivial⟩ _ [] rfl 1
  · exact fun _ _ _ => ⟨rfl, rfl⟩
  · exact fun _ _ => ⟨rfl, rfl, rfl⟩

/-- **The commit of a paid settlement fails**, it is marked as failed, and it is paid again. -/
theorem settlement_paid_twice : (run paymentStep january
    [.single 0 1 executed (some "connection lost") none none,
      .single 1 1 executed none none none]).payouts.count 1 = 2 := by
  decide

end WezuBackend.Settlements.Payout
