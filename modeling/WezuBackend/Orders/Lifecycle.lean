import WezuBackend.Orders.Requests

/-!
# The lifecycle of an order

The status column is free text, so the lifecycle is one of canonical statuses.  A status update is
checked against the table; proof of delivery ends an order in transit, or a pending one that has a
driver; and the two texts that assignment writes are both spellings of `pending`.
-/

namespace WezuBackend.Orders.Lifecycle

open Lib.Tables Lib.Atomicity Lib.Atomicity.Tx Lib.Runs Core.Text Core.Letters Fleet.Model
open Fleet.Consistency Fleet.Transitions Orders.Normalise Orders.Service Orders.Effects
open Orders.Requests

/-! ## Spellings -/

/-- A text that is a word of letters in any case has no separators. -/
theorem underscored_of_lower {text word : String} (hword : ∀ c ∈ word.toList, c ≠ '-' ∧ c ≠ ' ')
    (h : lower text = word) : underscored text = text := by
  have hchars : ∀ c ∈ text.toList, ¬ (c = '-' ∨ c = ' ') := by
    intro c hc hsep
    have hlower : c.toLower ∈ word.toList := by
      rw [← h, lower, String.toList_ofList]
      exact List.mem_map_of_mem hc
    obtain ⟨hdash, hblank⟩ := hword _ hlower
    rcases hsep with rfl | rfl
    · exact hdash (by decide)
    · exact hblank (by decide)
  unfold underscored
  rw [List.map_congr_left fun c hc => if_neg (hchars c hc), List.map_id']
  exact String.ofList_toList

/-- The status that assignment writes, in any case, is a spelling of `pending`. -/
theorem canonical_of_word {status word : String} (hword : ∀ c ∈ word.toList, c ≠ '-' ∧ c ≠ ' ')
    (h : lower (strip status) = word) :
    canonicalOrderStatus status = (statusMapping.lookup (compacted word)).getD word := by
  unfold canonicalOrderStatus
  rw [underscored_of_lower hword h, h]

theorem canonical_of_assigned {status : String} (h : lower (strip status) = "assigned") :
    canonicalOrderStatus status = "pending" := by
  rw [canonical_of_word (by simp) h]
  decide

theorem canonical_of_new {status : String} (h : lower (strip status) = "new") :
    canonicalOrderStatus status = "pending" := by
  rw [canonical_of_word (by simp) h]
  decide

theorem canonical_assigned : canonicalOrderStatus "assigned" = "pending" := by decide +kernel

theorem canonical_pending : canonicalOrderStatus "pending" = "pending" := by decide +kernel

theorem canonical_delivered : canonicalOrderStatus "delivered" = "delivered" := by decide +kernel

theorem canonical_markOrderAssigned (now : ℕ) (order : Order) :
    canonicalOrderStatus (markOrderAssignedIfPending now order).status =
      canonicalOrderStatus order.status := by
  unfold markOrderAssignedIfPending
  split_ifs with h
  · rw [h.1]
    exact canonical_assigned
  · rfl

theorem canonical_unassigned (now : ℕ) (order : Order) :
    canonicalOrderStatus (unassigned now order).status = canonicalOrderStatus order.status := by
  unfold unassigned
  dsimp only
  split_ifs with h
  · rw [canonical_of_assigned h]
    exact canonical_pending
  · rfl

@[simp] theorem id_markOrderAssigned (now : ℕ) (order : Order) :
    (markOrderAssignedIfPending now order).id = order.id := by
  unfold markOrderAssignedIfPending
  split_ifs <;> rfl

@[simp] theorem id_unassigned (now : ℕ) (order : Order) : (unassigned now order).id = order.id := by
  unfold unassigned
  rfl

variable {orders : Table Order}

theorem mem_set_self {order order' : Order} (h : order ∈ orders)
    (hid : order'.id = order.id) : order' ∈ orders.set order' :=
  Table.mem_set.mpr (.inr ⟨rfl, order, h, hid.symm⟩)

theorem mem_set_other {order' x : Order} (h : x ∈ orders)
    (hid : x.id ≠ order'.id) : x ∈ orders.set order' := Table.mem_set.mpr (.inl ⟨h, hid⟩)

/-! ## One request -/

/-- A change of the canonical status that the lifecycle permits.  The last case is proof of delivery
of a pending order that has a driver. -/
inductive Permitted (request : Request) (order : Order) : String → Prop
  | unchanged : Permitted request order (canonicalOrderStatus order.status)
  | transition {status} (h : status ∈ validTransitions (canonicalOrderStatus order.status)) :
      Permitted request order status
  | proven {now scope orderId pod} (hrequest : request = .prove now scope orderId pod)
      (hpending : canonicalOrderStatus order.status = "pending")
      (hdriver : order.assignedDriverId.isSome) : Permitted request order "delivered"

variable {order : Order} {request : Request}

/-- The statuses that an order can go to: itself, those of the table, and `delivered`. -/
theorem permitted_cases (h : Permitted request order status) :
    status = canonicalOrderStatus order.status ∨
      status ∈ validTransitions (canonicalOrderStatus order.status) ∨
      (canonicalOrderStatus order.status = "pending" ∧ status = "delivered") := by
  cases h with
  | unchanged => exact .inl rfl
  | transition h => exact .inr (.inl h)
  | proven _ hpending _ => exact .inr (.inr ⟨hpending, rfl⟩)

def statusOf (db : Db) (orderId : String) : Option String :=
  (db.orders.get? orderId).map fun order => canonicalOrderStatus order.status

variable {db : Db}

variable {orderId status : String}

theorem statusOf_eq_some
    (h : statusOf db orderId = some status) : ∃ order, db.orders.get? orderId = some order ∧
      canonicalOrderStatus order.status = status := Option.map_eq_some_iff.mp h

/-- Every order is there, and its status has changed as permitted. -/
def Evolved (request : Request) (orders orders' : Table Order) : Prop :=
  ∀ order ∈ orders, ∃ order' ∈ orders', order'.id = order.id ∧
    Permitted request order (canonicalOrderStatus order'.status)

theorem evolved_refl (request : Request) (orders : Table Order) :
    Evolved request orders orders := fun order h => ⟨order, h, rfl, .unchanged⟩

theorem evolved_set {order order' : Order} (h : order ∈ orders) (hid : order'.id = order.id)
    (hstatus : Permitted request order (canonicalOrderStatus order'.status)) :
    Evolved request orders (orders.set order') := by
  intro x hx
  by_cases hkey : x.id = order.id
  · obtain rfl := Table.eq_of_key hx h hkey
    exact ⟨order', mem_set_self hx hid, hid, hstatus⟩
  · exact ⟨x, mem_set_other hx fun hx' => hkey (hx'.trans hid), rfl, .unchanged⟩

theorem evolved_insert
    (h : orders.get? order.id = none) : Evolved request orders (insertOrder orders order) :=
  fun x hx => ⟨x, (mem_insertOrder h).mpr (.inl hx), rfl, .unchanged⟩

theorem validateStatusTransition_ok {newStatus : String} {u : Unit}
    (h : validateStatusTransition order newStatus = .ok u) :
    canonicalOrderStatus newStatus ∈ validTransitions (canonicalOrderStatus order.status) := by
  unfold validateStatusTransition at h
  dsimp only at h
  split_ifs at h with hvalid hallowed
  exact hallowed

theorem acceptsProof_cases (h : acceptsProof order) :
    canonicalOrderStatus order.status = "in_transit" ∨
      (canonicalOrderStatus order.status = "pending" ∧ order.assignedDriverId.isSome) := by
  unfold acceptsProof at h
  rw [decide_eq_true_eq] at h
  rcases h with h | ⟨hword, hdriver⟩ | ⟨hpending, hdriver, -⟩
  · exact .inl h
  · right
    rcases List.mem_cons.mp hword with hword | hword
    · exact ⟨canonical_of_assigned hword, hdriver⟩
    · exact ⟨canonical_of_new (List.mem_singleton.mp hword), hdriver⟩
  · exact .inr ⟨hpending, hdriver⟩

/-- Nothing but spellings of statuses has changed. -/
def Respelled (orders orders' : Table Order) : Prop :=
  ∀ order ∈ orders, ∃ order' ∈ orders', order'.id = order.id ∧
    canonicalOrderStatus order'.status = canonicalOrderStatus order.status

theorem Respelled.trans {orders orders' orders'' : Table Order} (h : Respelled orders orders')
    (h' : Respelled orders' orders'') : Respelled orders orders'' := by
  intro order horder
  obtain ⟨x, hx, hid, hstatus⟩ := h order horder
  obtain ⟨y, hy, hid', hstatus'⟩ := h' x hx
  exact ⟨y, hy, hid'.trans hid, hstatus'.trans hstatus⟩

theorem respelled_set {order order' : Order} (h : order ∈ orders) (hid : order'.id = order.id)
    (hstatus : canonicalOrderStatus order'.status = canonicalOrderStatus order.status) :
    Respelled orders (orders.set order') := by
  intro x hx
  by_cases hkey : x.id = order.id
  · obtain rfl := Table.eq_of_key hx h hkey
    exact ⟨order', mem_set_self hx hid, hid, hstatus⟩
  · exact ⟨x, mem_set_other hx fun hx' => hkey (hx'.trans hid), rfl, rfl⟩

theorem Respelled.evolved {orders orders' : Table Order}
    (h : Respelled orders orders') : Evolved request orders orders' := by
  intro order horder
  obtain ⟨x, hx, hid, hstatus⟩ := h order horder
  refine ⟨x, hx, hid, ?_⟩
  rw [hstatus]
  exact .unchanged

theorem latestActiveOrderOf_mem {driverId : ℕ} {orderId : String}
    (h : latestActiveOrderOf db driverId orderId = some order) : order ∈ db.orders ∧
      order.assignedDriverId = some driverId ∧ order.id ≠ orderId ∧
        order.status ∈ activeDriverOrderStatusesDb := by
  have hmem := List.mem_of_mem_head? h
  rw [List.mem_insertionSort, List.mem_filter, decide_eq_true_eq] at hmem
  exact hmem

variable {now driverId : ℕ} {s t : Session Db}

theorem takeOver_orders {found : Option Order}
    (h : takeOver now driverId order s = (.ok found, t)) :
    t.working.orders = s.working.orders ∨ ∃ conflicting ∈ s.working.orders,
      conflicting.id ≠ order.id ∧ found = some (unassigned now conflicting) ∧
        t.working.orders = s.working.orders.set (unassigned now conflicting) := by
  rw [takeOver, bind_ok] at h
  obtain ⟨db, s₁, hq, h⟩ := h
  obtain ⟨-, rfl, rfl⟩ := query_ok.mp hq
  rcases hfound : latestActiveOrderOf s.working driverId order.id with _ | conflicting
  · rw [hfound] at h
    rw [(pure_ok.mp h).2]
    exact .inl rfl
  · obtain ⟨hmem, -, hne, -⟩ := latestActiveOrderOf_mem hfound
    rw [hfound, bind_ok] at h
    obtain ⟨_, s₂, hensure, h⟩ := h
    obtain ⟨-, rfl⟩ := ensure_ok.mp hensure
    rw [saveOrder, update_bind, bind_ok] at h
    obtain ⟨_, s₃, hstatus, h⟩ := h
    obtain ⟨hsome, rfl⟩ := pure_ok.mp h
    refine .inr ⟨conflicting, hmem, hne, hsome.symm, ?_⟩
    exact (((fixes_setDriverStatus _ _ _).of orders_of_drivers).eq hstatus).2

variable {key : Option String} {scope : RequestScope}

/-- An assignment writes its order, and perhaps before it the pending order whose driver it
takes. -/
theorem changeDriver_orders {previous order : Order} (hmem : previous ∈ s.working.orders)
    (h : changeDriver now scope key previous driverId s = (.ok order, t)) :
    order = withDriver now driverId previous ∧ ∃ orders, previous ∈ orders ∧
      t.working.orders = orders.set order ∧ (orders = s.working.orders ∨
        ∃ conflicting ∈ s.working.orders, orders =
          s.working.orders.set (unassigned now conflicting)) := by
  obtain ⟨horder, found, s₁, s₂, s₃, s₄, s₅, hfirst, htake, hsecond, hbusy, hrelease, hrecords⟩ :=
    changeDriver_ok h
  have h₁ := (((fixes_assertDriverAvailableForOrder _ _ _ _).of orders_of_drivers).eq hfirst).2
  have h₃ := (((fixes_assertDriverAvailableForOrder _ _ _ _).of orders_of_drivers).eq hsecond).2
  have h₄ := (((fixes_setDriverStatus _ _ _).of orders_of_drivers).eq hbusy).2
  have h₅ := (((fixes_releasePreviousDriver _ _ _).of orders_of_drivers).eq hrelease).2
  have hlast : t.working.orders = s₂.working.orders.set order := by
    rw [orders_of_records _ _ hrecords, h₅, h₄, h₃]
  rw [← h₁] at hmem ⊢
  refine ⟨horder, s₂.working.orders, ?_, hlast, ?_⟩
  · rcases takeOver_orders htake with hsame | ⟨conflicting, -, hne, -, hset⟩
    · rwa [hsame]
    · rw [hset]
      refine mem_set_other hmem fun hkey => hne ?_
      rw [hkey, id_unassigned]
  · rcases takeOver_orders htake with hsame | ⟨conflicting, hconflicting, -, -, hset⟩
    · exact .inl hsame
    · exact .inr ⟨conflicting, hconflicting, hset⟩

/-- An assignment does not change what a status is a spelling of. -/
theorem changeDriver_respelled {previous order : Order} (hmem : previous ∈ s.working.orders)
    (h : changeDriver now scope key previous driverId s = (.ok order, t)) :
    Respelled s.working.orders t.working.orders := by
  obtain ⟨horder, orders, hmem', hlast, horders⟩ := changeDriver_orders hmem h
  have hid : order.id = previous.id := by
    rw [horder, withDriver, id_markOrderAssigned]
  have hstatus : canonicalOrderStatus order.status = canonicalOrderStatus previous.status := by
    rw [horder, withDriver, canonical_markOrderAssigned]
  have hset : Respelled orders t.working.orders := by
    rw [hlast]
    exact respelled_set hmem' hid hstatus
  rcases horders with rfl | ⟨conflicting, hconflicting, rfl⟩
  · exact hset
  · exact (respelled_set hconflicting (id_unassigned now conflicting)
      (canonical_unassigned now conflicting)).trans hset

section

variable [Casing]

theorem prepareOrder_orders {now : ℕ} {payload : OrderCreate} {prepared : Order × List String}
    (h : prepareOrder now payload s = (.ok prepared, t)) :
    t.working.orders = s.working.orders := by
  obtain ⟨-, fresh, s₁, s₂, -, -, hdriver, hreserve, htake⟩ := prepareOrder_ok h
  have h₁ := (((fixes_assertNewDriver _).of orders_of_drivers).eq hdriver).2
  have h₂ := (((fixes_reserveOrderBatteries _ _ _ _).of orders_of_moves).eq hreserve).2
  have h₃ := (((fixes_takeDriver _ _).of orders_of_drivers).eq htake).2
  rw [h₃, h₂, h₁]

theorem storeOrder_orders {now : ℕ} {order order' : Order} {ids : List String}
    (h : storeOrder now scope key order ids s = (.ok order', t)) :
    t.working.orders = insertOrder s.working.orders order := by
  obtain ⟨-, -, s₁, hrows, hrecords⟩ := storeOrder_ok h
  have hlast := (((fixes_persistOrderBatteries _ _).of orders_of_rows).eq hrows).2
  rw [orders_of_records _ _ hrecords, hlast]

theorem body_evolved (h : request.body key s = (.ok order, t)) :
    Evolved request s.working.orders t.working.orders := by
  cases request with
  | create now scope payload =>
    rw [Request.body, bind_ok] at h
    obtain ⟨prepared, s₁, hprepare, hstore⟩ := h
    rw [storeOrder_orders hstore, ← prepareOrder_orders hprepare]
    exact evolved_insert (storeOrder_ok hstore).2.1
  | update now scope orderId statusUpdate =>
    rw [Request.body] at h
    obtain ⟨loaded, hmem, hupdate⟩ := updateStatus_ok h
    obtain ⟨hvalid, horder, -⟩ := updateLoaded_ok hupdate
    rw [updateLoaded_orders hupdate, horder, writeOrder_of_mem hmem]
    exact evolved_set hmem rfl (.transition (validateStatusTransition_ok hvalid))
  | prove now scope orderId pod =>
    rw [Request.body] at h
    obtain ⟨previous, hmem, haccepts, ⟨imageUrl, signatureUrl, horder⟩, horders⟩ :=
      proveDelivery_orders h
    rw [horders, horder]
    refine evolved_set hmem rfl ?_
    have hdelivered : canonicalOrderStatus
      (withProof now pod imageUrl signatureUrl previous).status =
        "delivered" := by
      exact canonical_delivered
    rw [hdelivered]
    rcases acceptsProof_cases haccepts with htransit | ⟨hpending, hdriver⟩
    · refine .transition ?_
      rw [htransit]
      decide
    · exact .proven rfl hpending hdriver
  | assign now scope orderId driverReferences =>
    rw [Request.body, bind_ok] at h
    obtain ⟨driverReference, s₀, hreference, h⟩ := h
    obtain ⟨-, rfl⟩ := lift_ok.mp hreference
    obtain ⟨previous, driver, hprevious, -, -, hassign⟩ := assignTo_ok h
    have hmem := namedOrder_mem hprevious
    rcases hassign with ⟨-, hconfirm⟩ | ⟨-, hchange⟩
    · obtain ⟨horder, hrecords⟩ := confirmDriver_ok hconfirm
      rw [orders_of_records _ _ hrecords, horder]
      exact (respelled_set hmem (id_markOrderAssigned now previous)
        (canonical_markOrderAssigned now previous)).evolved
    · exact (changeDriver_respelled hmem hchange).evolved
  | giveBack now scope returnId orderId reason =>
    rw [Request.body] at h
    obtain ⟨original, -, -, hnew, horders⟩ := returnDelivered_orders h
    rw [horders]
    exact evolved_insert hnew

theorem step_evolved (request : Request) (db : Db) :
    Evolved request db.orders (request.step db).orders := by
  rcases request.step_cases db with hrecords | ⟨key, db₀, order, t, -, hsame, hrun, hstep⟩
  · rw [orders_of_records _ _ hrecords]
    exact evolved_refl _ _
  · rw [hstep, ← orders_of_records _ _ hsame]
    exact body_evolved hrun

/-! ## Runs -/

/-- The store after the requests, one at a time. -/
def runRequests (db : Db) (requests : List Request) : Db :=
  run (fun db request => Request.step request db) db requests

theorem statusOf_step (request : Request) {orderId : String}
    (h : db.orders.get? orderId = some order) : ∃ status,
      statusOf (request.step db) orderId = some status ∧ Permitted request order status := by
  obtain ⟨hmem, rfl⟩ := Table.get?_eq_some.mp h
  obtain ⟨order', hmem', hid, hstatus⟩ := step_evolved request db order hmem
  refine ⟨canonicalOrderStatus order'.status, ?_, hstatus⟩
  have hget : (request.step db).orders.get? order.id = some order' :=
    Table.get?_eq_some.mpr ⟨hmem', hid⟩
  rw [statusOf, show Row.key order = order.id from rfl, hget]
  rfl

theorem statusOf_step_of_final (request : Request)
    (hfinal : validTransitions status = []) (hne : status ≠ "pending")
    (h : statusOf db orderId = some status) :
    statusOf (request.step db) orderId = some status := by
  obtain ⟨order, hget, rfl⟩ := statusOf_eq_some h
  obtain ⟨status', hstatus', hpermitted⟩ := statusOf_step request hget
  rw [hstatus']
  rcases permitted_cases hpermitted with rfl | hmem | ⟨hpending, -⟩
  · rfl
  · rw [hfinal] at hmem
    cases hmem
  · exact absurd hpending hne

/-- **The lifecycle of orders.**  Over any run of requests: a delivered or cancelled order stays so;
a failed one stays so or is pending next; and every change is one of the table, or proof of delivery
of a pending order that has a driver. -/
theorem order_statuses_over_runs (db : Db) (requests : List Request) :
    (∀ p q r orderId status, requests = p ++ q ++ r → status ∈ ["delivered", "cancelled"] →
      statusOf (runRequests db p) orderId = some status →
        statusOf (runRequests db (p ++ q)) orderId = some status) ∧
    (∀ p request q orderId, requests = p ++ request :: q →
      statusOf (runRequests db p) orderId = some "failed" →
        statusOf (runRequests db (p ++ [request])) orderId ∈ [some "failed", some "pending"]) ∧
    ∀ p request q orderId order, requests = p ++ request :: q →
      (runRequests db p).orders.get? orderId = some order → ∃ status,
        statusOf (runRequests db (p ++ [request])) orderId = some status ∧
          Permitted request order status := by
  have hstep : ∀ p request, runRequests db (p ++ [request]) =
      Request.step request (runRequests db p) := fun p request => run_concat db p request
  refine ⟨?_, ?_, ?_⟩
  · rintro p q r orderId status - hfinal h
    rw [runRequests, run_append]
    refine run_invariant (I := fun db => statusOf db orderId = some status) ?_ h q
    intro db request hdb
    rcases List.mem_cons.mp hfinal with rfl | hcancelled
    · exact statusOf_step_of_final request (by decide) (by decide) hdb
    · obtain rfl := List.mem_singleton.mp hcancelled
      exact statusOf_step_of_final request (by decide) (by decide) hdb
  · rintro p request q orderId - h
    obtain ⟨order, hget, hfailed⟩ := statusOf_eq_some h
    obtain ⟨status, hstatus, hpermitted⟩ := statusOf_step request hget
    rw [hstep, hstatus]
    rcases permitted_cases hpermitted with rfl | hmem | ⟨hpending, -⟩
    · rw [hfailed]
      exact List.mem_cons_self
    · rw [hfailed] at hmem
      have hpending : status = "pending" := List.mem_singleton.mp hmem
      rw [hpending]
      exact List.mem_cons_of_mem _ List.mem_cons_self
    · rw [hfailed] at hpending
      exact absurd hpending (by decide)
  · rintro p request q orderId order - h
    rw [hstep]
    exact statusOf_step request h

end

end WezuBackend.Orders.Lifecycle
