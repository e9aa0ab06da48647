import WezuBackend.Orders.Drivers

/-!
# Announcements of status changes

Status updates and proofs of delivery end with a row of the order outbox, from which the change is
sent to the screens of the operators.  The row is left out where the outbox already has one with
the request's key for this order (`Sent`), whoever sent it and to whichever path; a request is a
replay only where the user, the method and the path agree as well.  Hence a change is announced
exactly when its key has announced nothing of the order before (`changes_announced_over_runs`).

Everything before the row is written leaves the outbox alone (`updateLoaded_announced`,
`proveDelivery_announced`), and so does the look-up of the key (`answered_carriedOut`).
-/

namespace WezuBackend.Orders.Announcements

open Lib.Tables Lib.Atomicity Lib.Atomicity.Tx Lib.Runs Core.Letters Fleet.Model
open Fleet.Transitions Orders.Normalise Orders.Service Orders.Effects Orders.Requests
open Orders.Lifecycle

/-! ## Rows of the outbox -/

/-- A change of the order's status has been announced under the key. -/
def Sent (rows : Table OrderRealtimeOutbox) (orderId : String) (key : Option String) : Prop :=
  key.isSome ∧ ∃ row ∈ rows, row.orderId = orderId ∧ row.eventType = "order_status_updated" ∧
    row.idempotencyKey = key

/-- The row says which order is in which status, by whom and when. -/
structure Describes (now actorUserId : ℕ) (order : Order) (row : OrderRealtimeOutbox) : Prop where
  orderId : row.orderId = order.id
  eventType : row.eventType = "order_status_updated"
  orderStatus : row.orderStatus = order.status
  newStatus : row.newStatus = some order.status
  actorUserId : row.actorUserId = some actorUserId
  createdAt : row.createdAt = now

/-- One row has been added, and it describes the change. -/
def Announced (now actorUserId : ℕ) (order : Order) (before after : Table OrderRealtimeOutbox) :
    Prop :=
  ∃ row, row ∉ before ∧ (∀ r, r ∈ after ↔ r ∈ before ∨ r = row) ∧
    Describes now actorUserId order row

theorem not_announced_self (now actorUserId : ℕ) (order : Order)
    (rows : Table OrderRealtimeOutbox) : ¬ Announced now actorUserId order rows rows := by
  rintro ⟨row, hnew, hrows, -⟩
  exact hnew ((hrows row).mpr (.inr rfl))

variable {order : Order}

theorem announced_add {now actorUserId : ℕ} {rows : Table OrderRealtimeOutbox}
    {row : ℕ → OrderRealtimeOutbox} (hrow : ∀ k, (row k).id = k)
    (h : ∀ k, Describes now actorUserId order (row k)) :
    Announced now actorUserId order rows (rows.add row hrow) := by
  refine ⟨row rows.freshKey, fun hmem => ?_, fun r => Table.mem_add, h _⟩
  have hlt := Table.key_lt_freshKey hmem
  rw [show Row.key (row rows.freshKey) = rows.freshKey from hrow _] at hlt
  omega

/-! ## The end of a request -/

theorem fixes_record_announcements (now : ℕ) (scope : RequestScope) (key : Option String)
    (response : Order) : Fixes announcements (recordIdempotentResponse now scope key response) :=
  fixes_record_of (fun _ _ => rfl) _ _ _ _

variable {key : Option String} {s t : Session Db}

theorem emit_announced {now actorUserId : ℕ}
    (h : emitOrderRealtimeUpdate now "order_status_updated" order actorUserId order.status key s =
      (.ok (), t)) :
    Announced now actorUserId order (announcements s.working) (announcements t.working) ↔
      ¬ Sent (announcements s.working) order.id key := by
  rw [emitOrderRealtimeUpdate, look_bind] at h
  rcases hfound : s.working.orderRealtimeOutbox.find? (fun row => key.isSome ∧
    row.orderId = order.id ∧ row.eventType = "order_status_updated" ∧ row.idempotencyKey = key)
    with _ | row
  · rw [hfound] at h
    have hnone := Table.find?_eq_none.mp hfound
    rw [← update_ok.mp h]
    refine iff_of_true ?_ ?_
    · dsimp only [announcements]
      exact announced_add _ fun _ => ⟨rfl, rfl, rfl, rfl, rfl, rfl⟩
    rintro ⟨hkey, row, hmem, hrow⟩
    have hno := hnone row hmem
    rw [decide_eq_false_iff_not] at hno
    exact hno ⟨hkey, hrow⟩
  · rw [hfound] at h
    obtain ⟨-, rfl⟩ := pure_ok.mp h
    have hrow := Table.find?_prop hfound
    rw [decide_eq_true_eq] at hrow
    refine iff_of_false (not_announced_self _ _ _ _) (not_not.mpr ?_)
    exact ⟨hrow.1, row, Table.find?_mem hfound, hrow.2⟩

variable {now : ℕ} {scope : RequestScope}

theorem respond_announced {order order' : Order}
    (h : respond now scope key "order_status_updated" order.status order s = (.ok order', t)) :
    Announced now scope.userId order (announcements s.working) (announcements t.working) ↔
      ¬ Sent (announcements s.working) order.id key := by
  rw [respond, bind_ok] at h
  obtain ⟨_, s₁, hrecord, h⟩ := h
  rw [bind_ok] at h
  obtain ⟨_, s₂, hemit, h⟩ := h
  obtain ⟨-, rfl⟩ := pure_ok.mp h
  have hsame := ((fixes_record_announcements _ _ _ _).eq hrecord).2
  rw [← hsame]
  exact emit_announced hemit

section

variable [Casing]

theorem fixes_sync_announcements (now : ℕ) (order : Order) (newStatus : String)
    (failureReason : Option String) (actorId : Option ℕ) : Fixes announcements
      (syncBatteriesForOrderStatus now order newStatus failureReason actorId) :=
  fixes_sync_of announcements_of_rows announcements_of_moves _ _ _ _ _

theorem updateLoaded_announced {statusUpdate : StatusUpdate} {loaded order : Order}
    (h : updateLoaded now scope key statusUpdate loaded s = (.ok order, t)) :
    Announced now scope.userId order (announcements s.working) (announcements t.working) ↔
      ¬ Sent (announcements s.working) loaded.id key := by
  obtain ⟨-, rfl, s₁, s₂, s₃, s₄, hdispatch, hretry, hsync, hend, hrespond⟩ := updateLoaded_ok h
  have h₁ := (((fixes_beginDispatch _ _ _).of announcements_of_drivers).eq hdispatch).2
  have hretried := (fixes_retryOrder_of announcements_of_rows announcements_of_moves
    announcements_of_drivers now loaded).ite (p := canonicalOrderStatus loaded.status = "failed" ∧
      canonicalOrderStatus statusUpdate.status = "pending") (readOnly_pure ()).fixes
  have h₂ := (hretried.eq hretry).2
  have h₃ := ((fixes_sync_announcements _ _ _ _ _).eq hsync).2
  have h₄ := (((fixes_endDelivery _ _ _).of announcements_of_drivers).eq hend).2
  have hbefore : announcements s₄.working = announcements s.working :=
    h₄.trans (h₃.trans (h₂.trans h₁))
  rw [← hbefore]
  exact respond_announced hrespond

theorem proveDelivery_announced {orderId : String} {pod : ProofOfDeliveryCreate}
    (h : proveDelivery now scope key orderId pod s = (.ok order, t)) :
    ∃ loaded, namedOrder s.working.orders orderId = some loaded ∧
      (Announced now scope.userId order (announcements s.working) (announcements t.working) ↔
        ¬ Sent (announcements s.working) loaded.id key) := by
  obtain ⟨loaded, hnamed, -, imageUrl, signatureUrl, s₁, s₂, rfl, hsync, hrelease, hrespond⟩ :=
    proveDelivery_ok h
  have h₁ := ((fixes_sync_announcements _ _ _ _ _).eq hsync).2
  have h₂ := (((fixes_releaseDriverIfIdle _ _).of announcements_of_drivers).eq hrelease).2
  have hbefore : announcements s₂.working = announcements s.working := h₂.trans h₁
  refine ⟨loaded, hnamed, ?_⟩
  rw [← hbefore]
  exact respond_announced hrespond

end

/-! ## Requests -/

structure StatusChange where
  now : ℕ
  scope : RequestScope
  orderReference : String

/-- Status updates and proofs of delivery change a status. -/
def statusChange : Request → Option StatusChange
  | .update now scope orderId _ => some ⟨now, scope, orderId⟩
  | .prove now scope orderId _ => some ⟨now, scope, orderId⟩
  | _ => none

/-- The request's key has not announced a change of its order before. -/
def Unsent (db : Db) (c : StatusChange) : Prop :=
  ∀ loaded ∈ namedOrder db.orders c.orderReference,
    ∀ key, normalizeIdempotencyKey c.scope.idempotencyKey = .ok key →
      ¬ Sent db.orderRealtimeOutbox loaded.id key

variable {db : Db}

section

variable [Casing]

/-- **One request**: its change is announced if and only if its key has announced none before. -/
theorem change_announced {request : Request} {c : StatusChange}
    (hchange : statusChange request = some c) (hnew : ¬ request.Replays db)
    (h : (request.program.call db).1 = .ok order) :
    Announced c.now c.scope.userId order db.orderRealtimeOutbox
      (request.step db).orderRealtimeOutbox ↔ Unsent db c := by
  have hone : ∀ {x : Option String → FleetTx Order}, (∀ key, Tentative (x key)) →
      request.program = (answered c.now c.scope fun key => committing (x key)) →
      ¬ Replayed c.now c.scope db →
      (∀ key db₀ t, x key (.fresh db₀) = (.ok order, t) →
        ∃ loaded, namedOrder db₀.orders c.orderReference = some loaded ∧
          (Announced c.now c.scope.userId order (announcements db₀) (announcements t.working) ↔
            ¬ Sent (announcements db₀) loaded.id key)) →
      (Announced c.now c.scope.userId order db.orderRealtimeOutbox
        (request.step db).orderRealtimeOutbox ↔ Unsent db c) := by
    intro x hx hprogram hnew hbody
    unfold Request.step
    rcases hcall : request.program.call db with ⟨result, db'⟩
    rw [hcall] at h
    obtain rfl : result = .ok order := h
    rw [hprogram] at hcall
    obtain ⟨key, db₀, t, hkey, hsame, hrows, -, hrun, rfl⟩ :=
      answered_carriedOut (fun key => commitsLast_committing (hx key)) hnew hcall
    obtain ⟨loaded, hnamed, hiff⟩ := hbody key db₀ t hrun
    rw [hrows] at hiff
    rw [orders_of_records _ _ hsame] at hnamed
    refine Iff.trans hiff ⟨fun hunsent l hl k hk => ?_, fun hunsent => ?_⟩
    swap
    · exact hunsent loaded hnamed key hkey
    obtain rfl := Option.some.inj (hnamed.symm.trans hl)
    obtain rfl := Except.ok.inj (hkey.symm.trans hk)
    exact hunsent
  cases request with
  | update now scope orderId statusUpdate =>
    obtain rfl := Option.some.inj hchange
    refine hone (x := fun key => updateStatus now scope key orderId statusUpdate)
      (fun key => (fixes_updateStatus now scope key orderId statusUpdate).tentative) rfl
      hnew fun key db₀ t hrun => ?_
    obtain ⟨loaded, hnamed, hupdate⟩ := updateStatus_named hrun
    exact ⟨loaded, hnamed, updateLoaded_announced hupdate⟩
  | prove now scope orderId pod =>
    obtain rfl := Option.some.inj hchange
    refine hone (x := fun key => proveDelivery now scope key orderId pod)
      (fun key => (fixes_proveDelivery now scope key orderId pod).tentative) rfl hnew
      fun key db₀ t hrun => ?_
    have hannounced := proveDelivery_announced hrun
    exact hannounced
  | create | assign | giveBack => cases hchange

/-- **Announcements over runs.**  In every run of requests, a status update or a proof of delivery
that is carried out leaves one new row that describes its change if and only if no row of the outbox
has its order and its key. -/
theorem changes_announced_over_runs (db : Db) (requests : List Request) :
    ∀ p request q c order, requests = p ++ request :: q → statusChange request = some c →
      ¬ request.Replays (runRequests db p) →
      (request.program.call (runRequests db p)).1 = .ok order →
      (Announced c.now c.scope.userId order (runRequests db p).orderRealtimeOutbox
        (runRequests db (p ++ [request])).orderRealtimeOutbox ↔ Unsent (runRequests db p) c) := by
  intro p request q c order _ hchange hnew hcall
  have hstep : runRequests db (p ++ [request]) = request.step (runRequests db p) :=
    run_concat db p request
  rw [hstep]
  exact change_announced hchange hnew hcall

end

/-! ## One key, two users -/

/-- Order `B` has failed. -/
def failedOrder : Db where
  orders := ⟨[{ id := "B", status := "failed", destination := "Pune", orderDate := 0,
                updatedAt := 0 }], by decide⟩

/-- A user changes the status of order `B` under the key `k`. -/
def changedBy (userId : ℕ) (status : String) : Request :=
  .update 1 { userId, idempotencyKey := some "k", requestMethod := "PUT",
              requestPath := "/orders/B/status", requestFingerprint := status } "B" { status }

theorem not_replays_of_unknown {userId : ℕ} {status : String}
    (h : ∀ r ∈ db.idempotencyKeys, r.userId ≠ userId) : ¬ (changedBy userId status).Replays db := by
  rintro ⟨key, -, k, -, record, hfound, -⟩
  have hrecord := Table.find?_prop hfound
  unfold isRecordOf at hrecord
  rw [decide_eq_true_eq] at hrecord
  exact h record (Table.find?_mem hfound) hrecord.1

/-- Order `B` in the status that an update at time 1 gives it. -/
def orderIn (status : String) : Order :=
  { id := "B", status, destination := "Pune", orderDate := 0, updatedAt := 1 }

theorem changes_announced_over_runs_sample :
    Announced 1 1 (orderIn "pending") failedOrder.orderRealtimeOutbox
      (runRequests failedOrder [changedBy 1 "pending"]).orderRealtimeOutbox := by
  refine (changes_announced_over_runs failedOrder [changedBy 1 "pending"] []
    (changedBy 1 "pending") [] _ (orderIn "pending") rfl rfl
    (not_replays_of_unknown (by decide)) (by decide +kernel)).mpr ?_
  rintro loaded - key - ⟨-, row, hmem, -⟩
  exact absurd hmem (Table.not_mem_empty row)

/-- **The retry by one user and the cancellation by another** under one key: the second is carried
out and not announced. -/
theorem change_unannounced :
    let db := runRequests failedOrder [changedBy 1 "pending"]
    let request := changedBy 2 "cancelled"
    ¬ request.Replays db ∧ (request.program.call db).1 = .ok (orderIn "cancelled") ∧
      db.orders.get? "B" = some (orderIn "pending") ∧
      (request.step db).orders.get? "B" = some (orderIn "cancelled") ∧
      ¬ Announced 1 2 (orderIn "cancelled") db.orderRealtimeOutbox
        (request.step db).orderRealtimeOutbox := by
  refine ⟨not_replays_of_unknown (by decide +kernel), by decide +kernel, by decide +kernel,
    by decide +kernel, ?_⟩
  rintro ⟨row, hnew, hrows, -⟩
  refine hnew ?_
  have hsame : (Request.step (changedBy 2 "cancelled")
      (runRequests failedOrder [changedBy 1 "pending"])).orderRealtimeOutbox.rows =
        (runRequests failedOrder [changedBy 1 "pending"]).orderRealtimeOutbox.rows := by
    decide +kernel
  have hrow := (hrows row).mpr (.inr rfl)
  rw [Table.mem_def, hsame] at hrow
  exact hrow

end WezuBackend.Orders.Announcements
