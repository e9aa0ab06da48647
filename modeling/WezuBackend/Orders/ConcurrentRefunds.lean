import WezuBackend.Orders.Refund
import WezuBackend.Lib.Interleaving

/-!
# Refund requests with one idempotency key

Calls of `process_refund` for one order, with one key and one payload, run side by side.  A call
looks its key up, reads the order, has the gateway refund the payment, flushes the order (which
locks its row) and looks for a response of the key again, and commits.

What a call returns is always the response of a refund that the gateway has accepted (`kept_world`).
The gateway accepts a second refund if its call is overtaken: another call has been paid and has not
committed, or has committed since this one read the order, or its commit has been undone by a call
that the gateway refused (`refunded_once_iff`).
-/

namespace WezuBackend.Orders.ConcurrentRefunds

open Lib.Tables Lib.Runs Lib.Interleaving Lib.Atomicity.Tx Core.Base
open Fleet.Model Fleet.Transitions Orders.Service Orders.Requests Orders.Records Orders.Refund

/-! ## A call, step by step -/

/-- What the calls have in common: the order, the request of the key, and the key. -/
structure Subject where
  orderReference : String
  scope : RequestScope
  key : String

/-- The time of a call, and what the gateway answers it. -/
structure Call where
  now : ℕ
  answer : GatewayAnswer

/-- The committed rows, and whether a call holds the lock on the order's row. -/
structure Store where
  db : RefundDb
  locked : Bool := false

/-- Where a call is in `process_refund`. -/
inductive Stage where
  | called
  /-- the key has no response -/
  | unanswered
  /-- the order is read -/
  | planned (plan : RefundPlan)
  /-- the gateway has accepted the refund -/
  | paid (plan : RefundPlan) (transactionId : ℕ) (gatewayRefundId : Option String)
  /-- the order is flushed; the response is, too, unless the key has one by now -/
  | recorded (plan : RefundPlan) (transactionId : ℕ) (gatewayRefundId : Option String)
    (isNew : Bool)
  /-- the gateway has refused the refund, or there is nowhere to send it -/
  | failing (plan : RefundPlan) (refusal : Option String)
  | ended (result : Except Exc Order)

/-- `get_idempotent_replay`. -/
def lookUp (subject : Subject) (call : Call) (store : Store) : Store × Stage :=
  match store.db.fleet.idempotencyKeys.find? (isRecordOf subject.scope subject.key) with
  | none => (store, .unanswered)
  | some record =>
    if record.expiresAt ≤ call.now then
      ({ store with db := { store.db with fleet := { store.db.fleet with
        idempotencyKeys := store.db.fleet.idempotencyKeys.erase record.id } } }, .unanswered)
    else if record.requestFingerprint = subject.scope.requestFingerprint then
      match record.responsePayload with
      | .malformed => (store, .ended (.error (.http 500 "Stored idempotent response is corrupted")))
      | .order data => (store, .ended (.ok data))
    else (store, .ended (.error (.http 409
      "Idempotency-Key reuse with different request payload is not allowed")))

/-- The order is read, and where the money goes. -/
def readOrder (subject : Subject) (store : Store) : Store × Stage :=
  match planRefund store.db subject.orderReference with
  | .error e => (store, .ended (.error e))
  | .ok plan => (store, .planned plan)

/-- The answer of a call that is paid. -/
def responseOf (call : Call) (plan : RefundPlan) : Order :=
  withRefundStatus call.now "processed" plan.order

def pay (call : Call) (plan : RefundPlan) (store : Store) : Store × Stage :=
  match plan.destination, call.answer with
  | .gateway transactionId razorpayPaymentId, .accepted gatewayRefundId =>
    ({ store with db := { store.db with gateway := store.db.gateway ++
      [⟨razorpayPaymentId, plan.amount, responseOf call plan⟩] } },
      .paid plan transactionId gatewayRefundId)
  | .gateway _ _, .refused error => (store, .failing plan (some error))
  | .wallet _, _ => (store, .ended (.error .integrityError))
  | .unknown, _ => (store, .failing plan none)

/-- `record_idempotent_response`, which flushes the order first.  The flush waits for the lock. -/
def record (subject : Subject) (plan : RefundPlan) (transactionId : ℕ)
    (gatewayRefundId : Option String) (store : Store) : Store × Stage :=
  if store.locked then (store, .paid plan transactionId gatewayRefundId)
  else
    match store.db.fleet.idempotencyKeys.find? (isRecordOf subject.scope subject.key) with
    | none => ({ store with locked := true }, .recorded plan transactionId gatewayRefundId true)
    | some existing =>
      if existing.requestFingerprint = subject.scope.requestFingerprint then
        ({ store with locked := true }, .recorded plan transactionId gatewayRefundId false)
      else (store, .ended (.error (.http 409
        "Idempotency-Key reuse with different request payload is not allowed")))

def newRecord (subject : Subject) (call : Call) (response : Order) (id : ℕ) : IdempotencyKey :=
  { id, userId := subject.scope.userId, idempotencyKey := subject.key,
    requestMethod := subject.scope.requestMethod, requestPath := subject.scope.requestPath,
    requestFingerprint := subject.scope.requestFingerprint, responsePayload := .order response,
    expiresAt := call.now + idempotencyLifetime }

theorem key_newRecord (subject : Subject) (call : Call) (response : Order) (id : ℕ) :
    Row.key (newRecord subject call response id) = id := rfl

def addRecord (subject : Subject) (call : Call) (response : Order) (db : RefundDb) : RefundDb :=
  { db with fleet := { db.fleet with
    idempotencyKeys := db.fleet.idempotencyKeys.add (newRecord subject call response)
      (key_newRecord subject call response) } }

def stored (subject : Subject) (call : Call) (plan : RefundPlan) (transactionId : ℕ)
    (gatewayRefundId : Option String) (isNew : Bool) (db : RefundDb) : RefundDb :=
  let db := storeStatus call.now "processed" plan.order
    (bookRefund call.now transactionId plan gatewayRefundId db)
  if isNew then addRecord subject call (responseOf call plan) db else db

/-- What the commit of a call that is not paid stores. -/
def failed (call : Call) (plan : RefundPlan) (refusal : Option String) (db : RefundDb) : RefundDb :=
  storeStatus call.now "failed" plan.order (if refusal.isSome then bookFailure plan db else db)

def failure (refusal : Option String) : Exc :=
  refusal.elim
    (.http 409 "Unable to determine refund destination or payment source for this return order")
    fun error => .http 400 s!"Refund failed: {error}"

/-- The next step of a call. -/
def advance (subject : Subject) (call : Call) (store : Store) : Stage → Store × Stage
  | .called => lookUp subject call store
  | .unanswered => readOrder subject store
  | .planned plan => pay call plan store
  | .paid plan transactionId gatewayRefundId =>
    record subject plan transactionId gatewayRefundId store
  | .recorded plan transactionId gatewayRefundId isNew =>
    (⟨stored subject call plan transactionId gatewayRefundId isNew store.db, false⟩,
      .ended (.ok (responseOf call plan)))
  | .failing plan refusal =>
    if store.locked then (store, .failing plan refusal)
    else (⟨failed call plan refusal store.db, false⟩, .ended (.error (failure refusal)))
  | .ended result => (store, .ended result)

/-! ## What a step can be -/

def recordOf (subject : Subject) (db : RefundDb) : Option IdempotencyKey :=
  db.fleet.idempotencyKeys.find? (isRecordOf subject.scope subject.key)

def orderOf (subject : Subject) (db : RefundDb) : Option Order :=
  namedOrder db.fleet.orders subject.orderReference

/-- The call is paid and has not committed. -/
def InFlight : Stage → Prop
  | .paid _ _ _ => True
  | .recorded _ _ _ _ => True
  | _ => False

inductive Steps (subject : Subject) (call : Call) (store : Store) : Stage → Store × Stage → Prop
  /-- a call that has ended, or that waits for the lock -/
  | stays {stage} : Steps subject call store stage (store, stage)
  | refused {stage e} (hstage : ¬ InFlight stage) :
      Steps subject call store stage (store, .ended (.error e))
  | conflict {plan t g r e} (hr : recordOf subject store.db = some r)
      (hne : r.requestFingerprint ≠ subject.scope.requestFingerprint) :
      Steps subject call store (.paid plan t g) (store, .ended (.error e))
  | answered {r data} (hr : recordOf subject store.db = some r)
      (hdata : r.responsePayload = .order data) :
      Steps subject call store .called (store, .ended (.ok data))
  | unanswered : Steps subject call store .called (store, .unanswered)
  | dropped (id : ℕ) : Steps subject call store .called
      ({ store with db := { store.db with fleet := { store.db.fleet with
        idempotencyKeys := store.db.fleet.idempotencyKeys.erase id } } }, .unanswered)
  | planned {plan} (h : planRefund store.db subject.orderReference = .ok plan) :
      Steps subject call store .unanswered (store, .planned plan)
  | paid {plan t p g} (hdestination : plan.destination = .gateway t p)
      (haccepted : call.answer = .accepted g) : Steps subject call store (.planned plan)
        ({ store with db := { store.db with gateway := store.db.gateway ++
          [⟨p, plan.amount, responseOf call plan⟩] } }, .paid plan t g)
  | unpaid {plan refusal} : Steps subject call store (.planned plan) (store, .failing plan refusal)
  | recorded {plan t g isNew} : Steps subject call store (.paid plan t g)
      ({ store with locked := true }, .recorded plan t g isNew)
  | committed {plan t g isNew} : Steps subject call store (.recorded plan t g isNew)
      (⟨stored subject call plan t g isNew store.db, false⟩, .ended (.ok (responseOf call plan)))
  | failed {plan refusal} : Steps subject call store (.failing plan refusal)
      (⟨failed call plan refusal store.db, false⟩, .ended (.error (failure refusal)))

theorem lookUp_steps (subject : Subject) (call : Call) (store : Store) :
    Steps subject call store .called (lookUp subject call store) := by
  unfold lookUp
  split
  · exact .unanswered
  · next r hr =>
    split_ifs
    · exact .dropped r.id
    · split
      · exact .refused id
      · next data hdata => exact .answered hr hdata
    · exact .refused id

theorem advance_steps (subject : Subject) (call : Call) (store : Store) (stage : Stage) :
    Steps subject call store stage (advance subject call store stage) := by
  cases stage with
  | called => exact lookUp_steps subject call store
  | unanswered =>
    show Steps subject call store _ (readOrder subject store)
    unfold readOrder
    split
    · exact .refused id
    · next plan hplan => exact .planned hplan
  | planned plan =>
    show Steps subject call store _ (pay call plan store)
    unfold pay
    split
    · next t p g hdestination haccepted => exact .paid hdestination haccepted
    · exact .unpaid
    · exact .refused id
    · exact .unpaid
  | paid plan t g =>
    show Steps subject call store _ (record subject plan t g store)
    unfold record
    split_ifs
    · exact .stays
    · split
      · exact .recorded
      · next r hr =>
        split_ifs with hsame
        · exact .recorded
        · exact .conflict hr hsame
  | recorded plan t g isNew => exact .committed
  | failing plan refusal =>
    unfold advance
    split_ifs
    · exact .stays
    · exact .failed
  | ended result => exact .stays

/-! ## The order's row -/

theorem orderOf_storeStatus (subject : Subject) (now : ℕ) (refundStatus : String) (loaded : Order)
    (db : RefundDb) : orderOf subject (storeStatus now refundStatus loaded db) =
      (orderOf subject db).map fun o =>
        if o.id = loaded.id then writtenStatus now refundStatus loaded o else o := by
  unfold orderOf storeStatus writeStatus
  dsimp only
  rcases hget : db.fleet.orders.get? loaded.id with _ | r
  · -- no order of this id
    have hother : ∀ o ∈ db.fleet.orders, o.id ≠ loaded.id := fun o ho hid => by
      have hsome : db.fleet.orders.get? loaded.id = some o := Table.get?_eq_some.mpr ⟨ho, hid⟩
      rw [hget] at hsome
      cases hsome
    rcases hnamed : namedOrder db.fleet.orders subject.orderReference with _ | o
    · rfl
    · rw [Option.map_some, if_neg (hother o (namedOrder_mem hnamed))]
  · obtain ⟨hmem, hid⟩ := Table.get?_eq_some.mp hget
    have hrow : ∀ o ∈ db.fleet.orders, o.id = loaded.id → o = r := fun o ho hoid =>
      Table.eq_of_key ho hmem (hoid.trans hid.symm)
    have hkey : Row.key (writtenStatus now refundStatus loaded r) = loaded.id := hid
    unfold namedOrder
    split_ifs with hempty
    · rfl
    · rw [Table.get?_set, Table.find?_set, hkey]
      · have hmap : ∀ found : Option Order, (∀ o ∈ found, o ∈ db.fleet.orders) →
            (found.map fun x => if Row.key x = loaded.id then writtenStatus now
              refundStatus loaded r
              else x) = found.map fun o =>
                if o.id = loaded.id then writtenStatus now refundStatus loaded o else o := by
          intro found hfound
          rcases found with _ | o
          · rfl
          · have ho := hfound o rfl
            rw [Option.map_some, Option.map_some]
            by_cases hoid : o.id = loaded.id
            · rw [if_pos hoid, hrow o ho hoid]
              exact congrArg some (if_pos hid)
            · exact congrArg some ((if_neg hoid).trans (if_neg hoid).symm)
        rw [Option.map_or, hmap _ fun o ho => (Table.get?_eq_some.mp ho).1,
          hmap _ fun o ho => Table.find?_mem ho]
      · intro x hx hxkey
        rw [hrow x hx (hxkey.trans hkey)]
        rfl

/-- The order's refund is marked as processed. -/
def Processed (subject : Subject) (db : RefundDb) : Prop :=
  ∃ o ∈ orderOf subject db, o.refundStatus = "processed"

/-- What no step takes away: the rows of the wallets, what the gateway has accepted, and the order.
-/
structure Grows (subject : Subject) (db db' : RefundDb) : Prop where
  wallets : db'.wallets = db.wallets
  gateway : ∀ e ∈ db.gateway, e ∈ db'.gateway
  order : ∀ o ∈ orderOf subject db, ∃ o' ∈ orderOf subject db', o'.id = o.id

section

variable {subject : Subject} {call : Call} {store : Store} {stage : Stage} {out : Store × Stage}

variable {db db' : RefundDb}

theorem grows_of_same (hwallets : db'.wallets = db.wallets)
    (hgateway : ∀ e ∈ db.gateway, e ∈ db'.gateway) (horders : db'.fleet.orders = db.fleet.orders) :
    Grows subject db db' := by
  refine ⟨hwallets, hgateway, fun o ho => ⟨o, ?_, rfl⟩⟩
  unfold orderOf at ho ⊢
  rwa [horders]

theorem grows_storeStatus (now : ℕ) (refundStatus : String) (loaded : Order) (db : RefundDb) :
    Grows subject db (storeStatus now refundStatus loaded db) := by
  refine ⟨rfl, fun _ he => he, fun o ho => ?_⟩
  rw [orderOf_storeStatus]
  refine ⟨_, Option.mem_map_of_mem _ ho, ?_⟩
  split_ifs <;> rfl

theorem Grows.trans {db db' db'' : RefundDb} (h : Grows subject db db')
    (h' : Grows subject db' db'') :
    Grows subject db db'' := by
  refine ⟨h'.wallets.trans h.wallets, fun e he => h'.gateway e (h.gateway e he), fun o ho => ?_⟩
  obtain ⟨o', ho', hid⟩ := h.order o ho
  obtain ⟨o'', ho'', hid'⟩ := h'.order o' ho'
  exact ⟨o'', ho'', hid'.trans hid⟩

theorem grows_refunds (h : exceptRefunds db' = exceptRefunds db) :
    Grows subject db db' := by
  obtain ⟨hfleet, hwallets, hgateway⟩ := of_exceptRefunds h
  exact grows_of_same hwallets (fun e he => hgateway ▸ he) (by rw [hfleet])

theorem stored_eq (subject : Subject) (call : Call) (plan : RefundPlan) (t : ℕ) (g : Option String)
    (isNew : Bool) (db : RefundDb) : ∃ booked, exceptRefunds booked = exceptRefunds db ∧
      (stored subject call plan t g isNew db = storeStatus call.now "processed" plan.order booked ∨
        stored subject call plan t g isNew db = addRecord subject call (responseOf call plan)
          (storeStatus call.now "processed" plan.order booked)) := by
  refine ⟨_, exceptRefunds_bookRefund call.now t plan g db, ?_⟩
  unfold stored
  cases isNew
  · exact .inl rfl
  · exact .inr rfl

theorem failed_eq (call : Call) (plan : RefundPlan) (refusal : Option String) (db : RefundDb) :
    ∃ booked, exceptRefunds booked = exceptRefunds db ∧
      failed call plan refusal db = storeStatus call.now "failed" plan.order booked := by
  unfold failed
  split_ifs
  · exact ⟨_, exceptRefunds_bookFailure plan db, rfl⟩
  · exact ⟨db, rfl, rfl⟩

theorem steps_grows (h : Steps subject call store stage out) : Grows subject store.db out.1.db := by
  have hsame : Grows subject store.db store.db := grows_of_same rfl (fun _ he => he) rfl
  cases h with
  | dropped id => exact grows_of_same rfl (fun _ he => he) rfl
  | paid hdestination haccepted =>
    exact grows_of_same rfl (fun _ he => List.mem_append_left _ he) rfl
  | @committed plan t g isNew =>
    obtain ⟨booked, hbooked, heq | heq⟩ := stored_eq subject call plan t g isNew store.db
    · dsimp only
      rw [heq]
      exact (grows_refunds hbooked).trans (grows_storeStatus _ _ _ _)
    · dsimp only
      rw [heq]
      exact ((grows_refunds hbooked).trans (grows_storeStatus _ _ _ _)).trans
        (grows_of_same rfl (fun _ he => he) rfl)
  | @failed plan refusal =>
    obtain ⟨booked, hbooked, heq⟩ := failed_eq call plan refusal store.db
    dsimp only
    rw [heq]
    exact (grows_refunds hbooked).trans (grows_storeStatus _ _ _ _)
  | _ => exact hsame

/-- The order of a plan is the one of the calls, and was not processed. -/
def Plans (subject : Subject) (db : RefundDb) (plan : RefundPlan) : Prop :=
  plan.order.refundStatus ≠ "processed" ∧ ∃ o ∈ orderOf subject db, o.id = plan.order.id

variable {plan : RefundPlan}

theorem plans_of_planned (h : planRefund store.db subject.orderReference = .ok plan) :
    Plans subject store.db plan ∧ ¬ Processed subject store.db := by
  obtain ⟨hnamed, -, -, hne, -⟩ := planRefund_ok h
  refine ⟨⟨hne, plan.order, hnamed, rfl⟩, ?_⟩
  rintro ⟨o, ho, hprocessed⟩
  have hsame : some plan.order = some o := hnamed.symm.trans ho
  obtain rfl := Option.some.inj hsame
  exact hne hprocessed

theorem orderOf_refunds (h : exceptRefunds db' = exceptRefunds db) :
    orderOf subject db' = orderOf subject db := by
  unfold orderOf
  rw [(of_exceptRefunds h).1]

theorem processed_stored (hplan : Plans subject store.db plan) (t : ℕ)
    (g : Option String) (isNew : Bool) :
    Processed subject (stored subject call plan t g isNew store.db) := by
  obtain ⟨hne, o, ho, hid⟩ := hplan
  have hmarked : ∀ booked, exceptRefunds booked = exceptRefunds store.db →
      Processed subject (storeStatus call.now "processed" plan.order booked) := by
    intro booked hbooked
    refine ⟨writtenStatus call.now "processed" plan.order o, ?_, ?_⟩
    · rw [orderOf_storeStatus, orderOf_refunds hbooked]
      rw [Option.mem_def] at ho ⊢
      rw [ho, Option.map_some, if_pos hid]
    · have hcolumn : writtenColumn plan.order.refundStatus "processed" o.refundStatus
          = "processed" := by
        unfold writtenColumn
        exact if_neg (Ne.symm hne)
      exact hcolumn
  obtain ⟨booked, hbooked, heq | heq⟩ := stored_eq subject call plan t g isNew store.db
  · rw [heq]
    exact hmarked booked hbooked
  · rw [heq]
    exact hmarked booked hbooked

theorem steps_marks (h : Steps subject call store stage out)
    (hbefore : ¬ Processed subject store.db)
    (hafter : Processed subject out.1.db) : ∃ plan t g isNew, stage = .recorded plan t g isNew := by
  cases h with
  | @committed plan t g isNew => exact ⟨plan, t, g, isNew, rfl⟩
  | @failed plan refusal =>
    exfalso
    obtain ⟨booked, hbooked, heq⟩ := failed_eq call plan refusal store.db
    obtain ⟨o, ho, hprocessed⟩ := hafter
    dsimp only at ho
    rw [heq, orderOf_storeStatus, orderOf_refunds hbooked] at ho
    obtain ⟨o', ho', rfl⟩ := Option.mem_map.mp ho
    split_ifs at hprocessed with hid
    · have hcolumn : writtenColumn plan.order.refundStatus "failed" o'.refundStatus = "processed" :=
        hprocessed
      unfold writtenColumn at hcolumn
      split_ifs at hcolumn with hloaded
      · exact hbefore ⟨o', ho', hcolumn⟩
      · exact absurd hcolumn (by decide)
    · exact hbefore ⟨o', ho', hprocessed⟩
  | _ => exact absurd hafter hbefore

end

/-! ## What a call owes -/

/-- The response of a call that is paid, or what it has returned. -/
def owed (call : Call) : Stage → Option Order
  | .paid plan _ _ => some (responseOf call plan)
  | .recorded plan _ _ _ => some (responseOf call plan)
  | .ended (.ok data) => some data
  | _ => none

/-- The plan that a call carries out. -/
def planOf : Stage → Option RefundPlan
  | .planned plan => some plan
  | .paid plan _ _ => some plan
  | .recorded plan _ _ _ => some plan
  | .failing plan _ => some plan
  | _ => none

def Backed (db : RefundDb) (data : Order) : Prop := ∃ e ∈ db.gateway, e.response = data

/-- The records of the key are of this request, and their responses are backed. -/
def Recorded (subject : Subject) (db : RefundDb) : Prop :=
  ∀ r ∈ db.fleet.idempotencyKeys, isRecordOf subject.scope subject.key r = true →
    r.requestFingerprint = subject.scope.requestFingerprint ∧
      ∃ data, r.responsePayload = .order data ∧ Backed db data

section

variable {subject : Subject} {call : Call} {store : Store} {stage : Stage} {out : Store × Stage}

variable {db db' : RefundDb}

variable {data : Order}

theorem Backed.grows (h : Backed db data) (hgrows : Grows subject db db') : Backed db' data := by
  obtain ⟨e, he, hresponse⟩ := h
  exact ⟨e, hgrows.gateway e he, hresponse⟩

theorem Plans.grows {plan : RefundPlan} (h : Plans subject db plan)
    (hgrows : Grows subject db db') : Plans subject db' plan := by
  obtain ⟨hne, o, ho, hid⟩ := h
  obtain ⟨o', ho', hid'⟩ := hgrows.order o ho
  exact ⟨hne, o', ho', hid'.trans hid⟩

theorem Recorded.of_keys (h : Recorded subject db) (hgrows : Grows subject db db')
    (hkeys : ∀ r ∈ db'.fleet.idempotencyKeys, r ∈ db.fleet.idempotencyKeys) :
    Recorded subject db' := by
  intro r hr hrecord
  obtain ⟨hfingerprint, data, hdata, hbacked⟩ := h r (hkeys r hr) hrecord
  exact ⟨hfingerprint, data, hdata, hbacked.grows hgrows⟩

theorem Recorded.added {db : RefundDb} (h : Recorded subject db)
    (hbacked : Backed db data) : Recorded subject (addRecord subject call data db) := by
  intro r hr hrecord
  rcases (Table.mem_add_mk (key_newRecord subject call data)).mp hr with hr | rfl
  · exact h r hr hrecord
  · exact ⟨rfl, data, rfl, hbacked⟩

theorem steps_recorded (h : Steps subject call store stage out)
    (hrecorded : Recorded subject store.db)
    (howed : ∀ data ∈ owed call stage, Backed store.db data) : Recorded subject out.1.db := by
  have hgrows := steps_grows h
  cases h with
  | dropped id => exact hrecorded.of_keys hgrows fun r hr => (Table.mem_erase.mp hr).1
  | @committed plan t g isNew =>
    obtain ⟨booked, hbooked, heq | heq⟩ := stored_eq subject call plan t g isNew store.db
    · dsimp only at hgrows ⊢
      rw [heq] at hgrows ⊢
      refine hrecorded.of_keys hgrows fun r hr => ?_
      have hkeys : r ∈ booked.fleet.idempotencyKeys := hr
      rwa [(of_exceptRefunds hbooked).1] at hkeys
    · dsimp only at hgrows ⊢
      rw [heq] at hgrows ⊢
      have hwritten : Grows subject store.db (storeStatus call.now "processed" plan.order booked) :=
        (grows_refunds hbooked).trans (grows_storeStatus _ _ _ _)
      refine (hrecorded.of_keys hwritten fun r hr => ?_).added ((howed _ rfl).grows hwritten)
      have hkeys : r ∈ booked.fleet.idempotencyKeys := hr
      rwa [(of_exceptRefunds hbooked).1] at hkeys
  | @failed plan refusal =>
    obtain ⟨booked, hbooked, heq⟩ := failed_eq call plan refusal store.db
    refine hrecorded.of_keys hgrows fun r hr => ?_
    dsimp only at hr
    rw [heq] at hr
    have hkeys : r ∈ booked.fleet.idempotencyKeys := hr
    rwa [(of_exceptRefunds hbooked).1] at hkeys
  | _ => exact hrecorded.of_keys hgrows fun r hr => hr

theorem steps_owed (h : Steps subject call store stage out) (hrecorded : Recorded subject store.db)
    (howed : ∀ data ∈ owed call stage, Backed store.db data) :
    ∀ data ∈ owed call out.2, Backed out.1.db data := by
  have hgrows := steps_grows h
  cases h with
  | stays => exact fun data hdata => howed data hdata
  | answered hr hpayload =>
    rintro data ⟨⟩
    obtain ⟨-, data', hpayload', hbacked⟩ := hrecorded _ (Table.find?_mem hr) (Table.find?_prop hr)
    rw [hpayload] at hpayload'
    cases hpayload'
    exact hbacked
  | paid hdestination haccepted =>
    rintro data ⟨⟩
    exact ⟨_, List.mem_append_right _ (List.mem_singleton.mpr rfl), rfl⟩
  | recorded => exact fun data hdata => howed data hdata
  | committed =>
    rintro data ⟨⟩
    exact (howed _ rfl).grows hgrows
  | _ => exact fun data hdata => by cases hdata

theorem steps_plans (h : Steps subject call store stage out)
    (hplans : ∀ plan ∈ planOf stage, Plans subject store.db plan) :
    ∀ plan ∈ planOf out.2, Plans subject out.1.db plan := by
  have hgrows := steps_grows h
  cases h with
  | stays => exact fun plan hplan => hplans plan hplan
  | planned h =>
    rintro plan ⟨⟩
    exact (plans_of_planned h).1
  | paid hdestination haccepted =>
    rintro plan ⟨⟩
    exact (hplans _ rfl).grows hgrows
  | unpaid =>
    rintro plan ⟨⟩
    exact hplans _ rfl
  | recorded =>
    rintro plan ⟨⟩
    exact (hplans _ rfl).grows hgrows
  | _ => exact fun plan hplan => by cases hplan

theorem steps_idle (h : Steps subject call store stage out)
    (hprocessed : Processed subject store.db)
    (hidle : planOf stage = none) : planOf out.2 = none := by
  cases h with
  | stays => exact hidle
  | planned h => exact absurd hprocessed (plans_of_planned h).2
  | paid hdestination haccepted => cases hidle
  | unpaid => cases hidle
  | recorded => cases hidle
  | _ => rfl

theorem steps_unmarks (h : Steps subject call store stage out)
    (hbefore : Processed subject store.db)
    (hafter : ¬ Processed subject out.1.db) : ∃ plan, planOf stage = some plan := by
  cases h with
  | committed => exact ⟨_, rfl⟩
  | failed => exact ⟨_, rfl⟩
  | _ => exact absurd hbefore hafter

end

/-! ## The calls side by side -/

section

variable {ι : Type} [DecidableEq ι]

def next (subject : Subject) (calls : ι → Call) : World ι Store Stage → ι → World ι Store Stage :=
  turn fun i => advance subject (calls i)

/-- What the gateway accepts is counted from the first call on. -/
def start (db : RefundDb) : World ι Store Stage := .start ⟨{ db with gateway := [] }, false⟩ .called

def worldAfter (subject : Subject) (calls : ι → Call) (db : RefundDb) (schedule : List ι) :
    World ι Store Stage :=
  run (next subject calls) (start db) schedule

/-- The gateway has accepted one refund at most, nothing is credited to a wallet, and who has
succeeded has returned the response of an accepted refund. -/
structure Once (db : RefundDb) (w : World ι Store Stage) : Prop where
  effects : w.store.db.gateway.length ≤ 1
  wallets : w.store.db.wallets = db.wallets
  answers : ∀ i data, w.position i = .ended (.ok data) → Backed w.store.db data

structure Kept (subject : Subject) (calls : ι → Call) (db : RefundDb) (w : World ι Store Stage) :
    Prop where
  wallets : w.store.db.wallets = db.wallets
  recorded : Recorded subject w.store.db
  owed : ∀ i, ∀ data ∈ owed (calls i) (w.position i), Backed w.store.db data
  plans : ∀ i, ∀ plan ∈ planOf (w.position i), Plans subject w.store.db plan

variable {subject : Subject} {calls : ι → Call} {db : RefundDb}

omit [DecidableEq ι] in
theorem kept_start (hnew : recordOf subject db = none) :
    Kept subject calls db (start (ι := ι) db) := by
  refine ⟨rfl, ?_, ?_, ?_⟩
  · intro r hr hrecord
    rw [Table.find?_eq_none.mp hnew r hr] at hrecord
    cases hrecord
  · rintro i data ⟨⟩
  · rintro i plan ⟨⟩

variable {w : World ι Store Stage}

theorem kept_next (h : Kept subject calls db w) (i : ι) :
    Kept subject calls db (next subject calls w i) := by
  have hsteps := advance_steps subject (calls i) w.store (w.position i)
  have hgrows := steps_grows hsteps
  refine ⟨hgrows.wallets.trans h.wallets, steps_recorded hsteps h.recorded (h.owed i), ?_, ?_⟩
  · intro j
    by_cases hj : j = i
    · subst hj
      rw [next, turn_position_self]
      exact steps_owed hsteps h.recorded (h.owed j)
    · rw [next, turn_position_ne _ hj]
      exact fun data hdata => (h.owed j data hdata).grows hgrows
  · intro j
    by_cases hj : j = i
    · subst hj
      rw [next, turn_position_self]
      exact steps_plans hsteps (h.plans j)
    · rw [next, turn_position_ne _ hj]
      exact fun plan hplan => (h.plans j plan hplan).grows hgrows

/-- **In every interleaving** the responses are those of refunds that the gateway has accepted. -/
theorem kept_world (hnew : recordOf subject db = none) (schedule : List ι) :
    Kept subject calls db (worldAfter subject calls db schedule) :=
  run_invariant (I := fun w => Kept subject calls db w) (fun _ i h => kept_next h i)
    (kept_start hnew)
    schedule

omit [DecidableEq ι] in
theorem Kept.once_iff (h : Kept subject calls db w) :
    Once db w ↔ w.store.db.gateway.length ≤ 1 := by
  refine ⟨fun honce => honce.effects, fun heffects => ⟨heffects, h.wallets, fun i data hi => ?_⟩⟩
  refine h.owed i data ?_
  rw [hi]
  rfl

/-! ## Payments -/

/-- The next step of the call is a refund that the gateway accepts. -/
def PaysAt (calls : ι → Call) (w : World ι Store Stage) (i : ι) : Prop :=
  ∃ plan t p g, w.position i = .planned plan ∧ plan.destination = .gateway t p ∧
    (calls i).answer = .accepted g

variable {i : ι}

theorem pays_next (h : PaysAt calls w i) :
    (next subject calls w i).store.db.gateway.length = w.store.db.gateway.length + 1 := by
  obtain ⟨plan, t, p, g, hstage, hdestination, haccepted⟩ := h
  have hpaid : (next subject calls w i).store.db.gateway = w.store.db.gateway ++
      [⟨p, plan.amount, responseOf (calls i) plan⟩] := by
    rw [next, turn_store, hstage]
    show (pay (calls i) plan w.store).1.db.gateway = _
    unfold pay
    rw [hdestination, haccepted]
  rw [hpaid, List.length_append, List.length_singleton]

theorem effects_next (subject : Subject) (calls : ι → Call) (w : World ι Store Stage) (i : ι) :
    (PaysAt calls w i ∧ InFlight ((next subject calls w i).position i)) ∨
      (next subject calls w i).store.db.gateway = w.store.db.gateway := by
  have hsteps := advance_steps subject (calls i) w.store (w.position i)
  rw [next, turn_position_self, turn_store]
  generalize hstage : w.position i = stage at hsteps ⊢
  generalize advance subject (calls i) w.store stage = out at hsteps ⊢
  cases hsteps with
  | @paid plan t p g hdestination haccepted =>
    exact .inl ⟨⟨plan, t, p, g, hstage, hdestination, haccepted⟩, trivial⟩
  | @committed plan t g isNew =>
    obtain ⟨booked, hbooked, heq | heq⟩ := stored_eq subject (calls i) plan t g isNew w.store.db
    · refine .inr ?_
      dsimp only
      rw [heq]
      exact (of_exceptRefunds hbooked).2.2
    · refine .inr ?_
      dsimp only
      rw [heq]
      exact (of_exceptRefunds hbooked).2.2
  | @failed plan refusal =>
    obtain ⟨booked, hbooked, heq⟩ := failed_eq (calls i) plan refusal w.store.db
    refine .inr ?_
    dsimp only
    rw [heq]
    exact (of_exceptRefunds hbooked).2.2
  | _ => exact .inr rfl

/-- A call that is paid stays in flight until its commit marks the order. -/
theorem inFlight_next (h : Kept subject calls db w)
    (hflight : InFlight (w.position i)) : InFlight ((next subject calls w i).position i) ∨
      Processed subject (next subject calls w i).store.db := by
  have hsteps := advance_steps subject (calls i) w.store (w.position i)
  have hplans := h.plans i
  rw [next, turn_position_self, turn_store]
  generalize w.position i = stage at hsteps hplans hflight ⊢
  generalize advance subject (calls i) w.store stage = out at hsteps ⊢
  cases hsteps with
  | stays => exact .inl hflight
  | refused hstage => exact absurd hflight hstage
  | conflict hr hne =>
    exact absurd (h.recorded _ (Table.find?_mem hr) (Table.find?_prop hr)).1 hne
  | recorded => exact .inl trivial
  | committed => exact .inr (processed_stored (hplans _ rfl) _ _ _)
  | _ => cases hflight

/-- If the order is marked, the gateway has been asked, or nothing was to be paid from the start. -/
def Accounted (subject : Subject) (w : World ι Store Stage) : Prop :=
  Processed subject w.store.db → w.store.db.gateway ≠ [] ∨ ∀ i, planOf (w.position i) = none

omit [DecidableEq ι] in
theorem gateway_ne_nil_of_inFlight (h : Kept subject calls db w)
    (hflight : InFlight (w.position i)) : w.store.db.gateway ≠ [] := by
  have hsome : ∃ data, owed (calls i) (w.position i) = some data := by
    generalize w.position i = stage at hflight
    cases stage with
    | paid plan t g => exact ⟨_, rfl⟩
    | recorded plan t g isNew => exact ⟨_, rfl⟩
    | _ => cases hflight
  obtain ⟨data, hdata⟩ := hsome
  obtain ⟨e, he, -⟩ := h.owed i data hdata
  exact List.ne_nil_of_mem he

theorem gateway_next (i : ι) (h : w.store.db.gateway ≠ []) :
    (next subject calls w i).store.db.gateway ≠ [] := by
  obtain ⟨e, he⟩ := List.exists_mem_of_ne_nil _ h
  exact List.ne_nil_of_mem
    ((steps_grows (advance_steps subject (calls i) w.store (w.position i))).gateway e he)

theorem accounted_next (hkept : Kept subject calls db w)
    (h : Accounted subject w) (i : ι) : Accounted subject (next subject calls w i) := by
  intro hafter
  have hsteps := advance_steps subject (calls i) w.store (w.position i)
  by_cases hbefore : Processed subject w.store.db
  · rcases h hbefore with hpaid | hidle
    · exact .inl (gateway_next i hpaid)
    · refine .inr fun j => ?_
      by_cases hj : j = i
      · subst hj
        rw [next, turn_position_self]
        exact steps_idle hsteps hbefore (hidle j)
      · rw [next, turn_position_ne _ hj]
        exact hidle j
  · obtain ⟨plan, t, g, isNew, hstage⟩ := steps_marks hsteps hbefore hafter
    refine .inl (gateway_next i (gateway_ne_nil_of_inFlight hkept (i := i) ?_))
    rw [hstage]
    trivial

/-! ## The exact condition -/

/-- Some step has undone the mark of the order. -/
def Undone (subject : Subject) (calls : ι → Call) (db : RefundDb) (p : List ι) : Prop :=
  ∃ p₁ d p₂, p = p₁ ++ d :: p₂ ∧ Processed subject (worldAfter subject calls db p₁).store.db ∧
    ¬ Processed subject (worldAfter subject calls db (p₁ ++ [d])).store.db

/-- Another call has been paid: it is in flight, or has marked the order, or the mark is undone. -/
def Preceded (subject : Subject) (calls : ι → Call) (db : RefundDb) (p : List ι) : Prop :=
  (∃ j, InFlight ((worldAfter subject calls db p).position j)) ∨
    Processed subject (worldAfter subject calls db p).store.db ∨ Undone subject calls db p

def Overtaken (subject : Subject) (calls : ι → Call) (db : RefundDb) (schedule : List ι) : Prop :=
  ∃ p b r, schedule = p ++ b :: r ∧ PaysAt calls (worldAfter subject calls db p) b ∧
    Preceded subject calls db p

theorem worldAfter_concat (subject : Subject) (calls : ι → Call) (db : RefundDb) (p : List ι)
    (i : ι) : worldAfter subject calls db (p ++ [i]) =
      next subject calls (worldAfter subject calls db p) i :=
  run_concat _ p i

variable {p : List ι}

/-- What happened before the last step stays so, or the order is marked, or the mark is undone. -/
theorem Preceded.concat (hkept : Kept subject calls db (worldAfter subject calls db p))
    (h : Preceded subject calls db p) (i : ι) : Preceded subject calls db (p ++ [i]) := by
  rcases h with ⟨j, hflight⟩ | hprocessed | ⟨p₁, d, p₂, rfl, hmarked, hundone⟩
  · rw [Preceded, worldAfter_concat]
    by_cases hj : j = i
    · subst hj
      exact (inFlight_next hkept hflight).imp (fun h => ⟨j, h⟩) .inl
    · refine .inl ⟨j, ?_⟩
      rwa [next, turn_position_ne _ hj]
  · refine .inr ?_
    by_cases hstill : Processed subject (worldAfter subject calls db (p ++ [i])).store.db
    · exact .inl hstill
    · exact .inr ⟨p, i, [], rfl, hprocessed, hstill⟩
  · refine .inr (.inr ⟨p₁, d, p₂ ++ [i], ?_, hmarked, hundone⟩)
    rw [List.append_assoc, List.cons_append]

/-- Without a call that was overtaken, the second refund is not asked for. -/
theorem paid_once (hnew : recordOf subject db = none) (h : ¬ Overtaken subject calls db p) :
    (worldAfter subject calls db p).store.db.gateway = [] ∨
      (worldAfter subject calls db p).store.db.gateway.length = 1 ∧
        Preceded subject calls db p := by
  induction p using List.reverseRecOn with
  | nil => exact .inl rfl
  | append_singleton p i ih =>
    have hkept : Kept subject calls db (worldAfter subject calls db p) := kept_world hnew p
    have hbefore : ¬ Overtaken subject calls db p := by
      rintro ⟨p', b, r, rfl, hpays, hpreceded⟩
      exact h ⟨p', b, r ++ [i], by rw [List.append_assoc, List.cons_append], hpays, hpreceded⟩
    rcases effects_next subject calls (worldAfter subject calls db p) i with ⟨hpays,
      hflight⟩ | hsame
    · rcases ih hbefore with hnone | ⟨-, hpreceded⟩
      · refine .inr ⟨?_, .inl ⟨i, ?_⟩⟩
        · rw [worldAfter_concat, pays_next hpays, hnone]
          rfl
        · rwa [worldAfter_concat]
      · exact absurd ⟨p, i, [], rfl, hpays, hpreceded⟩ h
    · rw [worldAfter_concat, hsame]
      exact (ih hbefore).imp id fun ⟨hlength, hpreceded⟩ => ⟨hlength, hpreceded.concat hkept i⟩

theorem gateway_ne_nil_of_preceded (hnew : recordOf subject db = none) {b : ι}
    (hpays : PaysAt calls (worldAfter subject calls db p) b) (h : Preceded subject calls db p) :
    (worldAfter subject calls db p).store.db.gateway ≠ [] := by
  have haccounted : ∀ p : List ι, Accounted subject (worldAfter subject calls db p) := fun p =>
    (run_invariant (I := fun w => Kept subject calls db w ∧ Accounted subject w)
      (fun _ i h => ⟨kept_next h.1 i, accounted_next h.1 h.2 i⟩)
      ⟨kept_start hnew, fun _ => .inr fun _ => rfl⟩ p).2
  rcases h with ⟨j, hflight⟩ | hprocessed | ⟨p₁, d, p₂, rfl, hmarked, hundone⟩
  · exact gateway_ne_nil_of_inFlight (kept_world hnew p) hflight
  · rcases haccounted p hprocessed with hpaid | hidle
    · exact hpaid
    · obtain ⟨plan, -, -, -, hstage, -⟩ := hpays
      have hnone := hidle b
      rw [hstage] at hnone
      cases hnone
  · have hpaid : (worldAfter subject calls db p₁).store.db.gateway ≠ [] := by
      rw [worldAfter_concat] at hundone
      obtain ⟨plan, hplan⟩ := steps_unmarks
        (advance_steps subject (calls d) _ ((worldAfter subject calls db p₁).position d)) hmarked
          hundone
      rcases haccounted p₁ hmarked with hpaid | hidle
      · exact hpaid
      · rw [hidle d] at hplan
        cases hplan
    rw [worldAfter, run_append]
    exact run_invariant (I := fun w : World ι Store Stage => w.store.db.gateway ≠ [])
      (fun _ i h => gateway_next i h) hpaid _

/-- **Refunds with one key.**  The refund is made at most once, and every call that succeeds returns
its response, in every state of the run, if and only if no call is paid that was overtaken. -/
theorem refunded_once_iff (subject : Subject) (calls : ι → Call) (db : RefundDb)
    (hnew : recordOf subject db = none) (schedule : List ι) :
    (∀ p q, schedule = p ++ q → Once db (worldAfter subject calls db p)) ↔
      ¬ Overtaken subject calls db schedule := by
  constructor
  · rintro honce ⟨p, b, r, rfl, hpays, hpreceded⟩
    have hpaid := gateway_ne_nil_of_preceded hnew hpays hpreceded
    have hlast := (honce (p ++ [b]) r (by rw [List.append_assoc, List.singleton_append])).effects
    rw [worldAfter_concat, pays_next hpays] at hlast
    have hpos := List.length_pos_of_ne_nil hpaid
    omega
  · rintro hnot p q rfl
    rw [(kept_world hnew p).once_iff]
    have hbefore : ¬ Overtaken subject calls db p := by
      rintro ⟨p', b, r, rfl, hpays, hpreceded⟩
      exact hnot ⟨p', b, r ++ q, by rw [List.append_assoc, List.cons_append], hpays, hpreceded⟩
    rcases paid_once hnew hbefore with hnone | ⟨hlength, -⟩
    · rw [hnone]
      exact Nat.zero_le 1
    · exact hlength.le

end

/-! ## Two clicks -/

/-- Return `R1`, of 10.00, is delivered and waits for its refund. -/
def returnDelivered : Order :=
  { id := "R1", status := "delivered", destination := "Depot", orderDate := 0, updatedAt := 0,
    totalValue := 1000, type := "return", originalOrderId := some "O1", refundStatus := "pending" }

/-- Order `O1` was paid by payment `pay_4`. -/
def paymentOfOrder : Transaction :=
  { id := 4, referenceType := some "order", referenceId := some "O1",
    razorpayPaymentId := some "pay_4" }

def refundDesk : RefundDb where
  fleet := { orders := ⟨[returnDelivered], List.nodup_singleton _⟩ }
  transactions := ⟨[paymentOfOrder], List.nodup_singleton _⟩

def refundOfReturn : Subject where
  orderReference := "R1"
  scope := { userId := 1, idempotencyKey := some "k1", requestMethod := "POST",
             requestPath := "/orders/R1/refund", requestFingerprint := "process-refund" }
  key := "k1"

/-- The same request, sent at two times. -/
def twoClicks : Bool → Call
  | false => ⟨1, .accepted (some "rfnd_1")⟩
  | true => ⟨2, .accepted (some "rfnd_2")⟩

theorem refunded_once_iff_sample :
    (∀ p q, List.replicate 5 false ++ List.replicate 5 true = p ++ q →
      Once refundDesk (worldAfter refundOfReturn twoClicks refundDesk p)) ↔
      ¬ Overtaken refundOfReturn twoClicks refundDesk
        (List.replicate 5 false ++ List.replicate 5 true) :=
  refunded_once_iff refundOfReturn twoClicks refundDesk rfl _

/-- Both read the order before either commits. -/
def clickedTwice : List Bool :=
  [false, true, false, true, false, true, false, false, true, true]

theorem gateway_asked_twice :
    ¬ ∀ schedule, Once refundDesk (worldAfter refundOfReturn twoClicks refundDesk schedule) := by
  intro hclaim
  have htwice : (worldAfter refundOfReturn twoClicks refundDesk
      clickedTwice).store.db.gateway.length = 2 := by
    decide +kernel
  have honce := (hclaim clickedTwice).effects
  omega

end WezuBackend.Orders.ConcurrentRefunds
