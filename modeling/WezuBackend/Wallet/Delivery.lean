import WezuBackend.Wallet.Effects
import WezuBackend.Wallet.Webhook
import WezuBackend.Lib.Runs

/-!
# Captures delivered at least once

The stream delivers the event of a captured payment any number of times, before and after the intent
of its order is created.  A delivery marks the event, and an event that is marked is skipped; but a
delivery that finds no intent is ignored without an exception, so it leaves its mark too.  Where the
event is not marked, the delivery after the intent has to load the intent, whose status cannot be
loaded, and raises (`raised_of_stored`).  So no payment is ever credited (`never_credited`).
-/

namespace WezuBackend.Wallet.Delivery

open Lib.Tables Lib.Runs Lib.Atomicity Lib.Atomicity.Tx Core.Base Core.Amounts Core.Text
open Financial.Model Wallet.Service Wallet.Webhook Wallet.Operations Wallet.Effects

variable {db : Db} {n : Option ℕ} {o p : String} {v : ℤ}

/-! ## The handler -/

theorem handled_snd (x : WalletTx Handled) (s : Session Db) : (ignoreHttp x s).2 = (x s).2 := by
  rcases hx : x s with ⟨e | a, t⟩
  · rw [ignoreHttp, handle_of_error hx]
    cases e <;> rfl
  · rw [ignoreHttp, handle_of_ok hx]

theorem dropped_snd {α β : Type} (x : WalletTx α) (b : β) (s : Session Db) :
    ((x >>= fun _ => pure b) s).2 = (x s).2 := by
  rcases hx : x s with ⟨e | a, t⟩
  · rw [bind_of_error hx]
  · rw [bind_of_ok hx]
    rfl

structure Captures (entity : Option PaymentEntity) (orderId paymentId : String) (amount : ℤ)
    (noted : Option ℕ) : Prop where
  positive : 0 < amount
  entity : ∃ e, entity = some e ∧ truthy e.id = some paymentId ∧ truthy e.orderId = some orderId ∧
    captureAmount e.amount = .ok (some amount) ∧ e.notesUserId.noted = noted

variable {entity : Option PaymentEntity}

theorem handle_captures (cfg : Settings) (now : ℕ) (h : Captures entity o p v n) (s : Session Db) :
    handlePaymentCaptured cfg now entity s = ignoreHttp (do
      let _ ← applyRechargeCapture cfg now o p (.ofMoney v) n
      return .ok) s := by
  obtain ⟨e, rfl, hp, ho, hv, rfl⟩ := h.entity
  rw [handlePaymentCaptured, demand_bind rfl, hp, ho]
  dsimp only
  rw [lift_bind hv]
  dsimp only
  rw [if_neg (not_le.mpr h.positive)]

theorem handle_idle (cfg : Settings) (now : ℕ)
    (h : ¬ ∃ o p v n, Captures entity o p v n) (s : Session Db) :
    (handlePaymentCaptured cfg now entity s).2 = s := by
  rcases entity with _ | e
  · rfl
  · rw [handlePaymentCaptured, demand_bind rfl]
    rcases hp : truthy e.id with _ | p
    · rfl
    rcases ho : truthy e.orderId with _ | o
    · rfl
    dsimp only
    rcases hv : captureAmount e.amount with _ | _ | v
    · rw [lift_bind_error rfl]
    · rw [lift_bind rfl]
      rfl
    · have hle : v ≤ 0 := by
        by_contra hpos
        exact h ⟨o, p, v, _, by omega, e, rfl, hp, ho, hv, rfl⟩
      rw [lift_bind rfl]
      dsimp only
      rw [if_pos hle]
      rfl

/-- **What the handler does** to the stored state: nothing, or the capture it is asked for. -/
theorem handle_effect (cfg : Settings) (now : ℕ) (entity : Option PaymentEntity) (db : Db) :
    ((handlePaymentCaptured cfg now entity).call db).2 = db ∨
    ∃ o p v n, Captures entity o p v n ∧ ((handlePaymentCaptured cfg now entity).call db).2 =
      step cfg db (.applyRechargeCapture now o p (.ofMoney v) n) := by
  by_cases hc : ∃ o p v n, Captures entity o p v n
  · obtain ⟨o, p, v, n, hc⟩ := hc
    refine .inr ⟨o, p, v, n, hc, ?_⟩
    have hrun := congrArg Prod.snd (handle_captures cfg now hc (.fresh db))
    rw [handled_snd, dropped_snd] at hrun
    have hstep := dropped_snd (applyRechargeCapture cfg now o p (.ofMoney v) n) () (.fresh db)
    change (handlePaymentCaptured cfg now entity (.fresh db)).2.committed =
      (program cfg (.applyRechargeCapture now o p (.ofMoney v) n) (.fresh db)).2.committed
    rw [hrun]
    exact (congrArg Session.committed hstep).symm
  · left
    exact congrArg Session.committed (handle_idle cfg now hc (.fresh db))

theorem Captures.fits (h : Captures entity o p v n) : Fits v := by
  obtain ⟨e, -, -, -, hv, -⟩ := h.entity
  unfold captureAmount at hv
  split at hv
  · cases hv
  · split at hv
    · next heq =>
      cases hv
      exact toMoney_fits heq
    · cases hv

/-- **The handler after the intent**: the row cannot be loaded, and the exception is not one of
HTTP. -/
theorem raised_of_stored (cfg : Settings) (now : ℕ) (h : Captures entity o p v n)
    {t : Transaction} (ht : t ∈ db.transactions) (hprop : isRechargeOf o t = true)
    (hs : ¬ t.status.Readable) :
    (handlePaymentCaptured cfg now entity).call db = (.error .lookupError, db) := by
  have hv : toMoney (.ofMoney v) = .ok v := toMoney_ofMoney_ok.mpr ⟨h.fits, rfl⟩
  have hfirst : firstTransaction (isRechargeOf o) (.fresh db) =
      (.error .lookupError, .fresh db) := by
    rw [firstTransaction, look_bind]
    exact ensure_bind_not (fun hl => hs (hl t ht hprop)) _ _ _
  have hraise : applyRechargeCapture cfg now o p (.ofMoney v) n (.fresh db) =
      (.error .lookupError, .fresh db) := by
    refine bind_of_error ?_
    rw [money, lift_bind hv, ensure_bind h.positive]
    exact bind_of_error hfirst
  have hrun : handlePaymentCaptured cfg now entity (.fresh db) =
      (.error .lookupError, .fresh db) := by
    rw [handle_captures cfg now h, ignoreHttp, handle_of_error (bind_of_error hraise)]
    rfl
  exact call_eq hrun

/-! ## Deliveries of one event -/

structure CaptureEvent where
  eventId : Option String
  payload : WebhookPayload
  captured : lower (strip (payload.event.getD "")) = "payment.captured"

def CaptureEvent.message (event : CaptureEvent) : StreamEvent :=
  { eventId := event.eventId, payload := some event.payload }

def CaptureEvent.marker (digest : WebhookPayload → String) (event : CaptureEvent) : String :=
  markerId digest event.message event.payload

def deliver (cfg : Settings) (digest : WebhookPayload → String) (event : CaptureEvent)
    (world : World) (now : ℕ) : World :=
  (processWebhookEvent cfg digest now event.message world).2

/-- Deliveries, the creation of the intent, and more deliveries. -/
def history (cfg : Settings) (digest : WebhookPayload → String) (event : CaptureEvent)
    (intent : Op) (world : World) (before after : List ℕ) : World :=
  let early := run (deliver cfg digest event) world before
  run (deliver cfg digest event) { early with db := step cfg early.db intent } after

section Deliveries

variable (cfg : Settings) {digest : WebhookPayload → String} {event : CaptureEvent}

theorem processEvent_captured (now : ℕ) (s : Session Db) :
    processEvent cfg now event.payload s =
      handlePaymentCaptured cfg now event.payload.payment s := by
  have hne : lower (strip (event.payload.event.getD "")) ≠ "" := by
    rw [event.captured]
    decide
  unfold processEvent
  rw [ensure_bind hne, if_pos event.captured]

/-- **A delivery**: a marked event is skipped; any other goes to the handler, and is marked unless
the handler raises. -/
theorem deliver_eq (world : World) (now : ℕ) :
    deliver cfg digest event world now =
      if event.marker digest ∈ world.markers then world
      else
        match (handlePaymentCaptured cfg now event.payload.payment).call world.db with
        | (.ok _, db) => { db, markers := event.marker digest :: world.markers }
        | (.error _, db) => { db, markers := world.markers } := by
  have hrun : (processEvent cfg now event.payload).call world.db =
      (handlePaymentCaptured cfg now event.payload.payment).call world.db := by
    simp only [Tx.call, processEvent_captured cfg]
  unfold deliver processWebhookEvent
  by_cases hm : event.marker digest ∈ world.markers
  · rw [if_pos hm]
    exact congrArg Prod.snd (if_pos hm)
  · rw [if_neg hm, ← hrun]
    refine (congrArg Prod.snd (if_neg hm)).trans ?_
    rcases (processEvent cfg now event.payload).call world.db with ⟨_ | _, _⟩ <;> rfl

variable {world : World}

theorem deliver_of_marked (h : event.marker digest ∈ world.markers) (now : ℕ) :
    deliver cfg digest event world now = world := by
  rw [deliver_eq, if_pos h]

theorem deliver_db (h : event.marker digest ∉ world.markers) (now : ℕ) :
    (deliver cfg digest event world now).db =
      ((handlePaymentCaptured cfg now event.payload.payment).call world.db).2 := by
  rw [deliver_eq, if_neg h]
  rcases (handlePaymentCaptured cfg now event.payload.payment).call world.db with ⟨_ | _, _⟩ <;> rfl

/-! ## Never credited -/

/-- The intent of the order, if there is one, is as it was created. -/
def Pending (db : Db) (orderId : String) : Prop :=
  ∀ t ∈ db.transactions, isRechargeOf orderId t → t.status = .pending

/-- The handler of a payment of the order leaves the store as it is. -/
theorem handler_idle (now : ℕ) {payment : Option PaymentEntity} (h : Pending db o)
    (horder : ∀ e ∈ payment, e.orderId = some o) :
    ((handlePaymentCaptured cfg now payment).call db).2 = db := by
  rcases handle_effect cfg now payment db with hsame | ⟨o', p, v, n, hc, hstep⟩
  · exact hsame
  obtain ⟨e, rfl, -, ho', -, -⟩ := hc.entity
  rw [horder e rfl] at ho'
  obtain ⟨ho', -⟩ := truthy_eq_some.mp ho'
  cases ho'
  have he := step_effect cfg db (.applyRechargeCapture now o p (.ofMoney v) n)
  rw [hstep]
  generalize step cfg db (.applyRechargeCapture now o p (.ofMoney v) n) = db' at he
  cases he with
  | unchanged => rfl
  | captured ha hv ht htw hw hu hl hf hn =>
    have hread := hl _ (Table.find?_mem ht) (Table.find?_prop ht)
    rw [h _ (Table.find?_mem ht) (Table.find?_prop ht)] at hread
    exact absurd hread not_readable_pending

theorem run_idle (digest : WebhookPayload → String) {orderId : String}
    (horder : ∀ e ∈ event.payload.payment, e.orderId = some orderId)
    (world : World) (h : Pending world.db orderId) (times : List ℕ) :
    (run (deliver cfg digest event) world times).db = world.db := by
  refine run_invariant (I := fun w : World => w.db = world.db) (fun w now hw => ?_) rfl times
  by_cases hm : event.marker digest ∈ w.markers
  · rw [deliver_of_marked cfg hm]
    exact hw
  · rw [deliver_db cfg hm, hw]
    exact handler_idle cfg now h horder

theorem pending_of_create (u : ℕ) (a : Amount) (d : String)
    (hnone : ∀ t ∈ db.transactions, isRechargeOf o t = false) :
    Pending (step cfg db (.createRechargeIntent u a o d)) o := by
  have he := step_effect cfg db (.createRechargeIntent u a o d)
  generalize step cfg db (.createRechargeIntent u a o d) = db' at he
  intro t ht hprop
  cases he with
  | unchanged =>
    rw [hnone t ht] at hprop
    cases hprop
  | intentCreated ha hv hop hnew =>
    rcases (Table.mem_add_mk fun _ => rfl).mp ht with ht | rfl
    · rw [hop.transactions] at ht
      rw [hnone t ht] at hprop
      cases hprop
    · rfl

end Deliveries

/-- The intent of the order is settled with the amount of the payment, and since `db₀` its wallet,
the user's, has been credited this amount once, and no other wallet anything. -/
def CreditedOnce (userId : ℕ) (orderId : String) (payment : Option PaymentEntity) (db₀ db : Db) :
    Prop :=
  ∃ e amount t w, payment = some e ∧ captureAmount e.amount = .ok (some amount) ∧
    db.transactions.find? (isRechargeOf orderId) = some t ∧ t.status = .success ∧
    t.amount = amount ∧ t.walletId = some w.id ∧ w ∈ db.wallets ∧ w.userId = userId ∧
    ∀ k, db.balance k = db₀.balance k + if k = w.id then amount else 0

/-- **Never credited.**  An order has no intent yet; the event of its payment is delivered any
number of times before the intent is created and after it.  No delivery changes anything that is
stored, and the payment is not credited. -/
theorem never_credited (cfg : Settings) (digest : WebhookPayload → String) (event : CaptureEvent)
    (userId : ℕ) (amount : Amount) (orderId description : String) (world : World)
    (before after : List ℕ)
    (hnone : ∀ t ∈ world.db.transactions, isRechargeOf orderId t = false)
    (horder : ∀ e ∈ event.payload.payment, e.orderId = some orderId) :
    (history cfg digest event (.createRechargeIntent userId amount orderId description) world
        before after).db =
      step cfg world.db (.createRechargeIntent userId amount orderId description) ∧
    ¬ CreditedOnce userId orderId event.payload.payment world.db
      (history cfg digest event (.createRechargeIntent userId amount orderId description) world
        before after).db := by
  have hearly := run_idle cfg digest horder world
    (fun t ht hprop => by rw [hnone t ht] at hprop; cases hprop) before
  have hcreated := pending_of_create cfg userId amount description hnone
  have hsame : (history cfg digest event
      (.createRechargeIntent userId amount orderId description) world before after).db =
      step cfg world.db (.createRechargeIntent userId amount orderId description) := by
    rw [history, hearly]
    exact run_idle cfg digest horder _ hcreated after
  refine ⟨hsame, ?_⟩
  rintro ⟨e, v, t, w, -, -, ht, hs, -⟩
  rw [hsame] at ht
  have hpending := hcreated t (Table.find?_mem ht) (Table.find?_prop ht)
  rw [hs] at hpending
  cases hpending

/-! ## A world -/

def sampleEvent : CaptureEvent where
  eventId := some "evt_1"
  payload :=
    { event := some "payment.captured"
      payment := some { id := some "pay_1", orderId := some "order_1", amount := .finite 10000 0 } }
  captured := by decide

def sampleDigest (_ : WebhookPayload) : String := "digest"

/-- Two empty wallets in a database that stores the intent, and nothing delivered yet. -/
def sampleWorld : World := { db := .ofWallets sampleUsers sampleWallets, markers := [] }

def sampleIntent : Op := .createRechargeIntent 1 (.finite 100 0) "order_1" "r"

theorem never_credited_sample :
    (step {} sampleWorld.db sampleIntent).transactions.rows ≠ [] ∧
    ¬ CreditedOnce 1 "order_1" sampleEvent.payload.payment sampleWorld.db
      (history {} sampleDigest sampleEvent sampleIntent sampleWorld [] [7, 8]).db :=
  ⟨by decide, (never_credited {} sampleDigest sampleEvent 1 (.finite 100 0) "order_1" "r"
    sampleWorld [] [7, 8] (by decide) (by rintro _ ⟨⟩; rfl)).2⟩

/-- A payment of 100.00 is delivered twice after its intent is stored, and the balance is 0.00. -/
theorem payment_lost :
    ¬ ∀ before after : List ℕ, after ≠ [] →
      CreditedOnce 1 "order_1" sampleEvent.payload.payment sampleWorld.db
        (history {} sampleDigest sampleEvent sampleIntent sampleWorld before after).db := by
  intro h
  obtain ⟨_, _, t, _, -, -, ht, hs, -⟩ := h [] [7, 8] (by decide)
  have hpending : ((history {} sampleDigest sampleEvent sampleIntent sampleWorld []
      [7, 8]).db.transactions.find? (isRechargeOf "order_1")).map Transaction.status =
      some .pending := by
    decide
  rw [ht, Option.map_some, hs] at hpending
  cases hpending

end WezuBackend.Wallet.Delivery
