import WezuBackend.Wallet.Operations
import WezuBackend.Lib.Interleaving

/-!
# Calls of `initiate_refund` at the same time

Calls for one transaction, each in a session of its own.  A call reads the transaction, reads the
refunds that are there, adds its refund and commits; it sees what the others have committed, and no
lock and no unique column stands between its look at the refunds and its commit.

Two calls that both look before either commits leave two pending refunds (`refunded_twice`).  A
schedule keeps the transaction at one refund exactly if no call commits after another one did so
between its look and its commit (`at_most_one_iff`).
-/

namespace WezuBackend.Wallet.ConcurrentRefunds

open Lib.Tables Lib.Runs Lib.Interleaving Core.Base Core.Amounts Core.Floats
open Financial.Model Wallet.Service Wallet.Operations

/-- The arguments of a call, apart from the transaction. -/
structure Request where
  now : ℕ
  amount : Option Amount := none
  reason : String := "Customer Request"

inductive Stage where
  | called
  /-- the transaction was read: a credit -/
  | loaded (origTxn : Transaction)
  /-- no pending or processed refund was there -/
  | unrefunded (origTxn : Transaction)
  /-- the refund is added to the session -/
  | added (refundAmount : ℤ)
  | ended (result : Except Exc (Option Refund))

def refundAmount (request : Request) (origTxn : Transaction) : Except Exc ℤ :=
  match toMoney (request.amount.getD (.ofMoney origTxn.amount)),
    toMoney (.ofMoney origTxn.amount) with
  | .error e, _ => .error e
  | .ok amount, limit =>
    if amount ≤ 0 then .error (.http 400 "Refund amount must be greater than zero")
    else
      match limit with
      | .error e => .error e
      | .ok limit =>
        if limit < amount then .error (.http 400 "Refund amount exceeds original transaction")
        else .ok amount

def newRefund (transactionId : ℕ) (request : Request) (amount : ℤ) (id : ℕ) : Refund :=
  { id, transactionId, amount := column amount, reason := some request.reason, status := .pending,
    createdAt := request.now }

/-- The next step of a call. -/
def advance (transactionId : ℕ) (request : Request) (db : Db) : Stage → Db × Stage
  | .called =>
    match db.transactions.get? transactionId with
    | none => (db, .ended (.ok none))
    | some origTxn =>
      if ¬ origTxn.status.Readable then (db, .ended (.error .lookupError))
      else if origTxn.type ≠ some .credit then (db, .ended (.ok none))
      else (db, .loaded origTxn)
  | .loaded origTxn =>
    match db.refunds.find? (isOpenRefundOf transactionId) with
    | some existing => (db, .ended (.ok (some existing)))
    | none => (db, .unrefunded origTxn)
  | .unrefunded origTxn =>
    match refundAmount request origTxn with
    | .error e => (db, .ended (.error e))
    | .ok amount => (db, .added amount)
  | .added amount =>
    ({ db with refunds := db.refunds.add (newRefund transactionId request amount) },
      .ended (.ok (some (newRefund transactionId request amount db.refunds.freshKey))))
  | .ended result => (db, .ended result)

/-! ## Calls at the same time -/

/-- At most one refund of the transaction is pending or processed. -/
def AtMostOne (transactionId : ℕ) (db : Db) : Prop :=
  ∀ r ∈ db.refunds, ∀ r' ∈ db.refunds,
    isOpenRefundOf transactionId r → isOpenRefundOf transactionId r' → r = r'

instance (transactionId : ℕ) (db : Db) : Decidable (AtMostOne transactionId db) := by
  unfold AtMostOne
  infer_instance

def Refunded (transactionId : ℕ) (db : Db) : Prop :=
  ∃ r ∈ db.refunds, isOpenRefundOf transactionId r

/-- The next step of the call is its commit. -/
def Committing (stage : Stage) : Prop := ∃ amount, stage = .added amount

/-- The call has found no refund, and has not committed its own. -/
def InFlight (stage : Stage) : Prop := (∃ origTxn, stage = .unrefunded origTxn) ∨ Committing stage

section Step

variable {k : ℕ} {request : Request} {db : Db} {stage : Stage}

theorem isOpenRefundOf_newRefund (amount : ℤ) (id : ℕ) :
    isOpenRefundOf k (newRefund k request amount id) = true := by
  simp [isOpenRefundOf, newRefund]

/-- **What a step does to the tables**: nothing, unless it is the commit of a refund. -/
theorem advance_store (h : ¬ Committing stage) : (advance k request db stage).1 = db := by
  cases stage with
  | called =>
    simp only [advance]
    split
    · rfl
    · split_ifs <;> rfl
  | loaded origTxn =>
    simp only [advance]
    split <;> rfl
  | unrefunded origTxn =>
    simp only [advance]
    split <;> rfl
  | added amount => exact absurd ⟨amount, rfl⟩ h
  | ended result => rfl

theorem mem_refunds_added {amount : ℤ} {r : Refund} :
    r ∈ (advance k request db (.added amount)).1.refunds ↔
      r ∈ db.refunds ∨ r = newRefund k request amount db.refunds.freshKey :=
  Table.mem_add_mk fun _ => rfl

theorem refunded_of_committing (h : Committing stage) :
    Refunded k (advance k request db stage).1 := by
  obtain ⟨amount, rfl⟩ := h
  exact ⟨_, mem_refunds_added.mpr (.inr rfl), isOpenRefundOf_newRefund _ _⟩

theorem Refunded.advance (h : Refunded k db) : Refunded k (advance k request db stage).1 := by
  by_cases hc : Committing stage
  · exact refunded_of_committing hc
  · rwa [advance_store hc]

theorem not_refunded_of_inFlight (h : ¬ InFlight stage)
    (h' : InFlight (advance k request db stage).2) :
      ¬ Refunded k (advance k request db stage).1 := by
  rw [advance_store fun hc => h (.inr hc)]
  cases stage with
  | called =>
    simp only [ConcurrentRefunds.advance] at h'
    split at h'
    · rcases h' with ⟨_, h'⟩ | ⟨_, h'⟩ <;> cases h'
    · split_ifs at h' <;> rcases h' with ⟨_, h'⟩ | ⟨_, h'⟩ <;> cases h'
  | loaded origTxn =>
    simp only [ConcurrentRefunds.advance] at h'
    split at h'
    · rcases h' with ⟨_, h'⟩ | ⟨_, h'⟩ <;> cases h'
    · next hnone =>
      rintro ⟨r, hr, hopen⟩
      rw [Table.find?_eq_none.mp hnone r hr] at hopen
      cases hopen
  | unrefunded origTxn => exact absurd (.inl ⟨origTxn, rfl⟩) h
  | added amount => exact absurd (.inr ⟨amount, rfl⟩) h
  | ended result => rcases h' with ⟨_, h'⟩ | ⟨_, h'⟩ <;> cases h'

theorem not_inFlight_of_committing (h : Committing stage) :
    ¬ InFlight (advance k request db stage).2 := by
  obtain ⟨amount, rfl⟩ := h
  rintro (⟨_, h⟩ | ⟨_, h⟩) <;> cases h

theorem AtMostOne.advance (h : AtMostOne k db) (hnone : Committing stage → ¬ Refunded k db) :
    AtMostOne k (advance k request db stage).1 := by
  by_cases hc : Committing stage
  · obtain ⟨amount, rfl⟩ := hc
    have hold : ∀ r ∈ db.refunds, ¬ isOpenRefundOf k r := fun r hr hopen =>
      hnone ⟨amount, rfl⟩ ⟨r, hr, hopen⟩
    intro r hr r' hr' hopen hopen'
    rcases mem_refunds_added.mp hr with hr | rfl
    · exact absurd hopen (hold r hr)
    · rcases mem_refunds_added.mp hr' with hr' | rfl
      · exact absurd hopen' (hold r' hr')
      · rfl
  · rwa [advance_store hc]

theorem not_atMostOne_of_committing (h : Refunded k db) (hc : Committing stage) :
    ¬ AtMostOne k (ConcurrentRefunds.advance k request db stage).1 := by
  obtain ⟨amount, rfl⟩ := hc
  obtain ⟨r, hr, hopen⟩ := h
  intro hone
  have heq := hone r (mem_refunds_added.mpr (.inl hr)) _ (mem_refunds_added.mpr (.inr rfl)) hopen
    (isOpenRefundOf_newRefund _ _)
  have hlt := Table.key_lt_freshKey hr
  rw [heq] at hlt
  exact lt_irrefl _ hlt

end Step

section Schedule

variable {ι : Type} [DecidableEq ι] (transactionId : ℕ) (requests : ι → Request)

/-- The next step of call `i`. -/
def next : World ι Db Stage → ι → World ι Db Stage :=
  turn fun i => advance transactionId (requests i)

/-- A call commits after another one did so between its look at the refunds and its commit. -/
def Overtaken (w : World ι Db Stage) (schedule : List ι) : Prop :=
  ∃ p b q a r, schedule = p ++ b :: (q ++ a :: r) ∧ b ≠ a ∧
    InFlight ((run (next transactionId requests) w p).position a) ∧
    Committing ((run (next transactionId requests) w p).position b) ∧
    Committing ((run (next transactionId requests) w (p ++ b :: q)).position a)

variable {transactionId requests} {w : World ι Db Stage}

theorem Overtaken.append {p : List ι} (h : Overtaken transactionId requests w p) (q : List ι) :
    Overtaken transactionId requests w (p ++ q) := by
  obtain ⟨p₁, b, p₂, a, r, rfl, h⟩ := h
  exact ⟨p₁, b, p₂, a, r ++ q, by simp, h⟩

theorem refunded_run (h : Refunded transactionId w.store) (schedule : List ι) :
    Refunded transactionId (run (next transactionId requests) w schedule).store :=
  run_invariant (I := fun w : World ι Db Stage => Refunded transactionId w.store) (fun _ _ h =>
    h.advance) h schedule

variable {schedule : List ι}

/-- If a call is in flight and a refund is there, another call has committed it meanwhile. -/
theorem overtaken_of_refunded (hw : ∀ i, ¬ InFlight (w.position i)) {a : ι}
    (ha : Committing ((run (next transactionId requests) w schedule).position a))
    (hr : Refunded transactionId (run (next transactionId requests) w schedule).store) :
    Overtaken transactionId requests w (schedule ++ [a]) := by
  have hbegin : ∀ db stage, ¬ InFlight stage →
      InFlight (advance transactionId (requests a) db stage).2 →
      ¬ Refunded transactionId (advance transactionId (requests a) db stage).1 :=
    fun _ _ => not_refunded_of_inFlight
  have hend : ∀ db stage, ¬ Refunded transactionId db →
      Refunded transactionId (advance transactionId (requests a) db stage).1 →
      ¬ InFlight (advance transactionId (requests a) db stage).2 := by
    intro db stage hn hs
    by_cases hc : Committing stage
    · exact not_inFlight_of_committing hc
    · rw [advance_store hc] at hs
      exact absurd hs hn
  obtain ⟨p, b, q, rfl, hne, hp, hnone, hsome⟩ :=
    interference (A := fun i => advance transactionId (requests i)) hbegin hend (hw a) schedule
      (.inr ha) hr
  refine ⟨p, b, q, a, [], by simp, hne, hp, ?_, ha⟩
  by_contra hc
  change ¬ Committing
    ((run (turn fun i => advance transactionId (requests i)) w p).position b) at hc
  rw [run_concat, turn_store, advance_store hc] at hsome
  exact hnone hsome

/-- **One refund**, if no call is overtaken. -/
theorem at_most_one_of (hw : ∀ i, ¬ InFlight (w.position i)) (h : AtMostOne transactionId w.store)
    (schedule : List ι) (hno : ¬ Overtaken transactionId requests w schedule) :
    AtMostOne transactionId (run (next transactionId requests) w schedule).store := by
  induction schedule using List.reverseRecOn with
  | nil => exact h
  | append_singleton schedule a ih =>
    rw [run_concat]
    refine (ih fun ho => hno (ho.append [a])).advance fun hc hr => hno ?_
    exact overtaken_of_refunded hw hc hr

theorem not_at_most_one_of (ho : Overtaken transactionId requests w schedule) :
    ∃ p q, schedule = p ++ q ∧
      ¬ AtMostOne transactionId (run (next transactionId requests) w p).store := by
  obtain ⟨p, b, q, a, r, rfl, -, -, hb, ha⟩ := ho
  refine ⟨p ++ b :: q ++ [a], r, by simp, ?_⟩
  rw [run_concat]
  refine not_atMostOne_of_committing ?_ ha
  rw [run_append, run_cons]
  exact refunded_run (refunded_of_committing hb) q

/-- **Exactly once**: the transaction has at most one refund at every moment if and only if no call
is overtaken. -/
theorem at_most_one_iff {ι : Type} [DecidableEq ι] (transactionId : ℕ) (requests : ι → Request)
    (db : Db) (h : AtMostOne transactionId db) (schedule : List ι) :
    (∀ p q, schedule = p ++ q →
        AtMostOne transactionId
          (run (next transactionId requests) (.start db .called) p).store) ↔
      ¬ Overtaken transactionId requests (.start db .called) schedule := by
  have hstart : ∀ i : ι,
      ¬ InFlight ((World.start db Stage.called : World ι Db Stage).position i) := by
    rintro i (⟨_, h⟩ | ⟨_, h⟩) <;> cases h
  constructor
  · intro hall ho
    obtain ⟨p, q, hp, hn⟩ := not_at_most_one_of ho
    exact hn (hall p q hp)
  · rintro hno p q rfl
    exact at_most_one_of hstart h p fun ho => hno (ho.append q)

end Schedule

/-! ## Samples -/

/-- A credit of 50.00 with a status that can be loaded. -/
def deposited : Db :=
  { Db.ofWallets sampleUsers sampleWallets with
    transactions := ⟨[{
      id := 1, userId := 1, walletId := some 1, amount := 5000, balanceAfter := some 5000,
      type := some .credit, category := some "deposit", status := .other "SUCCESS",
      description := none }], by decide⟩ }

def doubleClick : Bool → Request := fun _ => { now := 0 }

theorem at_most_one_iff_sample :
    (∀ p q, [true, true, true, true, false, false] = p ++ q →
        AtMostOne 1 (run (next 1 doubleClick) (.start deposited .called) p).store) ↔
      ¬ Overtaken 1 doubleClick (.start deposited .called) [true, true, true, true, false, false] :=
  at_most_one_iff 1 doubleClick deposited (by decide) _

/-- Both clicks look before either of them commits. -/
theorem refunded_twice :
    ¬ ∀ (requests : Bool → Request) (db : Db), AtMostOne 1 db → ∀ schedule : List Bool,
      AtMostOne 1 (run (next 1 requests) (.start db .called) schedule).store := by
  intro h
  have hone := h doubleClick deposited (by decide)
    [true, true, false, false, true, true, false, false]
  exact absurd hone (by decide)

end WezuBackend.Wallet.ConcurrentRefunds
