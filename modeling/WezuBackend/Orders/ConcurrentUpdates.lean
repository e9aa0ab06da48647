import WezuBackend.Orders.Records
import WezuBackend.Lib.Interleaving

/-!
# Status updates side by side

Calls of `update_order_status` for one order.  A call looks its key up, reads the order and checks
the transition, locks the order's batteries, and writes and commits.  The order is read without a
lock.

If every call that comes to write finds the order as it has read it, the calls have the results, and
leave the database, that they have and leave one after the other (`updates_serialised`).  A call
that finds another one's status there writes over it: a dispatch that was read before a cancellation
dispatches the cancelled order (`cancelled_order_dispatched`).
-/

namespace WezuBackend.Orders.ConcurrentUpdates

open Lib.Tables Lib.Runs Lib.Interleaving Lib.Atomicity Lib.Atomicity.Tx Core.Base
open Core.Letters Fleet.Model Fleet.Transitions Orders.Normalise Orders.Service Orders.Effects
open Orders.Requests Orders.Records

/-! ## A call, step by step -/

structure Call where
  now : ℕ
  scope : RequestScope
  statusUpdate : StatusUpdate

/-- The committed rows, and whether a call holds the locks on the order's batteries. -/
structure Store where
  db : Db
  locked : Bool := false

/-- Where a call is in `update_order_status`. -/
inductive Stage where
  | called
  /-- the key has no response -/
  | unanswered (key : Option String)
  /-- the order is read, and the transition is a valid one -/
  | loaded (key : Option String) (order : Order)
  /-- the batteries are locked -/
  | locking (key : Option String) (order : Order)
  | ended (result : Except Exc Order)

/-- The key, and the response that is stored under it. -/
def findReplay (call : Call) : FleetTx (Option String × Option Order) := do
  let key ← lift (normalizeIdempotencyKey call.scope.idempotencyKey)
  let found ← getIdempotentReplay call.now call.scope key
  return (key, found)

/-- The order, if the transition is valid. -/
def readOrder (orderId : String) (call : Call) : FleetTx Order := do
  let order ← resolveOrderOr404 orderId
  lift (validateStatusTransition order (canonicalOrderStatus call.statusUpdate.status))
  return order

section

variable [Casing]

/-- What is left to do once the order is read. -/
def writeStatus (call : Call) (key : Option String) (order : Order) : FleetTx Order := do
  let order ← updateLoaded call.now call.scope key call.statusUpdate order
  commitAll
  return order

/-- The next step of a call. -/
def advance (orderId : String) (call : Call) (store : Store) : Stage → Store × Stage
  | .called =>
    match (findReplay call).call store.db with
    | (.error e, db) => ({ store with db }, .ended (.error e))
    | (.ok (_, some data), db) => ({ store with db }, .ended (.ok data))
    | (.ok (key, none), db) => ({ store with db }, .unanswered key)
  | .unanswered key =>
    match (readOrder orderId call).call store.db with
    | (.error e, db) => ({ store with db }, .ended (.error e))
    | (.ok order, db) => ({ store with db }, .loaded key order)
  | .loaded key order =>
    if store.locked then (store, .loaded key order)
    else ({ store with locked := true }, .locking key order)
  | .locking key order =>
    (⟨((writeStatus call key order).call store.db).2, false⟩,
      .ended ((writeStatus call key order).call store.db).1)
  | .ended result => (store, .ended result)

def exec (orderId : String) (call : Call) (db : Db) : Except Exc Order × Db :=
  (updateOrderStatus call.now call.scope orderId call.statusUpdate).call db

end

def recordFor (call : Call) (key : Option String) (db : Db) : Option IdempotencyKey :=
  key.bind fun k => db.idempotencyKeys.find? (isRecordOf call.scope k)

/-- The record of the call's key has not expired. -/
def Unexpired (call : Call) (db : Db) : Prop :=
  ∀ key, normalizeIdempotencyKey call.scope.idempotencyKey = .ok key →
    ∀ record ∈ recordFor call key db, call.now < record.expiresAt

/-! ## What the steps of a call find -/

section

variable {orderId : String} {call : Call} {db : Db}

variable {key : Option String}

/-- The look-up of a key that has not expired leaves the database alone. -/
theorem getIdempotentReplay_unexpired (hu : UniqueIndexes db)
    (hunexpired : ∀ record ∈ recordFor call key db, call.now < record.expiresAt) :
    ∃ r, getIdempotentReplay call.now call.scope key (.fresh db) = (r, .fresh db) ∧
      (r = .ok none ↔ recordFor call key db = none) := by
  rcases key with _ | key
  · exact ⟨_, rfl, iff_of_true rfl rfl⟩
  have hquery : query (.fresh db) = (.ok db, .fresh db) := query_ok.mpr ⟨hu, rfl, rfl⟩
  unfold getIdempotentReplay
  dsimp only
  rw [bind_of_ok hquery]
  rcases hfound : db.idempotencyKeys.find? (isRecordOf call.scope key) with _ | record
  · exact ⟨_, rfl, iff_of_true rfl hfound⟩
  · have hlater : ¬ record.expiresAt ≤ call.now := by
      have := hunexpired record hfound
      omega
    have hsome : recordFor call (some key) db ≠ none := by
      rw [show recordFor call (some key) db = some record from hfound]
      exact Option.some_ne_none record
    dsimp only
    unfold answerOf
    rw [if_neg hlater]
    by_cases hsame : record.requestFingerprint = call.scope.requestFingerprint
    · rw [ensure_bind hsame]
      rcases record.responsePayload with _ | data
      · exact ⟨_, rfl, iff_of_false (by simp) hsome⟩
      · exact ⟨_, rfl, iff_of_false (by simp) hsome⟩
    · rw [ensure_bind_not hsame]
      exact ⟨_, rfl, iff_of_false (by simp) hsome⟩

theorem readOrder_fresh (hu : UniqueIndexes db) :
    (∃ order, readOrder orderId call (.fresh db) = (.ok order, .fresh db) ∧
      namedOrder db.orders orderId = some order ∧
      validateStatusTransition order (canonicalOrderStatus call.statusUpdate.status) = .ok ()) ∨
    ∃ e, readOrder orderId call (.fresh db) = (.error e, .fresh db) := by
  unfold readOrder
  have hresolve := resolveOrderOr404_fresh orderId hu
  rcases hnamed : namedOrder db.orders orderId with _ | order
  · rw [hnamed] at hresolve
    exact .inr ⟨_, bind_of_error hresolve⟩
  · rw [hnamed] at hresolve
    rw [bind_of_ok hresolve]
    rcases hvalid : validateStatusTransition order
      (canonicalOrderStatus call.statusUpdate.status) with e | u
    · exact .inr ⟨_, lift_bind_error rfl _ _⟩
    · exact .inl ⟨order, lift_bind rfl _ _, rfl, hvalid⟩

/-! ## The whole call -/

variable [Casing]

/-- `update_order_status`, after its key was looked up. -/
def carryOut (orderId : String) (call : Call) (key : Option String) : FleetTx Order := do
  let order ← updateStatus call.now call.scope key orderId call.statusUpdate
  commitAll
  return order

theorem updateOrderStatus_of_key (s : Session Db)
    (hkey : normalizeIdempotencyKey call.scope.idempotencyKey = .ok key) :
    updateOrderStatus call.now call.scope orderId call.statusUpdate s =
      (getIdempotentReplay call.now call.scope key >>= fun found =>
        match found with
        | some data => pure data
        | none => carryOut orderId call key) s := by
  unfold updateOrderStatus answered
  exact lift_bind hkey _ _

variable {e : Exc}

theorem exec_of_refused (h : normalizeIdempotencyKey call.scope.idempotencyKey = .error e) :
    exec orderId call db = (.error e, db) := by
  have hrun : updateOrderStatus call.now call.scope orderId call.statusUpdate (.fresh db) =
      (.error e, .fresh db) := by
    unfold updateOrderStatus answered
    exact lift_bind_error h _ _
  exact call_eq hrun

theorem exec_of_answered {r : Except Exc Order}
    (hkey : normalizeIdempotencyKey call.scope.idempotencyKey = .ok key)
    (hreplay : getIdempotentReplay call.now call.scope key (.fresh db) = (r.map some, .fresh db)) :
    exec orderId call db = (r, db) := by
  have hrun := @updateOrderStatus_of_key orderId call key _ (.fresh db) hkey
  rcases r with e | data
  · rw [bind_of_error hreplay] at hrun
    exact call_eq hrun
  · rw [bind_of_ok hreplay] at hrun
    exact call_eq hrun

theorem exec_of_unanswered (hkey : normalizeIdempotencyKey call.scope.idempotencyKey = .ok key)
    (hreplay : getIdempotentReplay call.now call.scope key (.fresh db) = (.ok none, .fresh db)) :
    exec orderId call db = (carryOut orderId call key).call db := by
  have hrun := @updateOrderStatus_of_key orderId call key _ (.fresh db) hkey
  rw [bind_of_ok hreplay] at hrun
  unfold exec Tx.call
  rw [hrun]

theorem carryOut_of_unread (hread : readOrder orderId call (.fresh db) = (.error e, .fresh db)) :
    (carryOut orderId call key).call db = (.error e, db) := by
  have hupdate : updateStatus call.now call.scope key orderId call.statusUpdate (.fresh db) =
      (.error e, .fresh db) := by
    unfold readOrder at hread
    unfold updateStatus
    rcases Tx.bind_error.mp hread with hresolve | ⟨order, s, hresolve, hrest⟩
    · exact bind_of_error hresolve
    · rw [bind_of_ok hresolve]
      rcases Tx.bind_error.mp hrest with hvalid | ⟨u, s', -, hpure⟩
      · exact bind_of_error hvalid
      · cases hpure
  have hrun : carryOut orderId call key (.fresh db) = (.error e, .fresh db) := by
    unfold carryOut
    exact bind_of_error hupdate
  exact call_eq hrun

theorem carryOut_of_read (key : Option String) {order : Order} (hu : UniqueIndexes db)
    (hnamed : namedOrder db.orders orderId = some order) :
    (carryOut orderId call key).call db = (writeStatus call key order).call db := by
  have hresolve := resolveOrderOr404_fresh orderId hu
  rw [hnamed] at hresolve
  have hrun : carryOut orderId call key (.fresh db) = writeStatus call key order (.fresh db) := by
    unfold carryOut writeStatus updateStatus
    rw [seq_assoc, bind_of_ok hresolve]
  unfold Tx.call
  rw [hrun]

theorem uniqueIndexes_exec (hu : UniqueIndexes db) : UniqueIndexes (exec orderId call db).2 :=
  step_uniqueIndexes (.update call.now call.scope orderId call.statusUpdate) hu

end

/-! ## The steps of a call -/

def Ready (call : Call) (key : Option String) (db : Db) : Prop :=
  normalizeIdempotencyKey call.scope.idempotencyKey = .ok key ∧ recordFor call key db = none

section

variable [Casing] {orderId : String} {call : Call} {store : Store}

variable {key : Option String}

theorem exec_of_ready (hu : UniqueIndexes store.db) (h : Ready call key store.db) :
    exec orderId call store.db = (carryOut orderId call key).call store.db := by
  have hunexpired : ∀ record ∈ recordFor call key store.db, call.now < record.expiresAt := by
    rw [h.2]
    rintro record ⟨⟩
  obtain ⟨r, hreplay, hnone⟩ := getIdempotentReplay_unexpired hu hunexpired
  rw [hnone.mpr h.2] at hreplay
  exact exec_of_unanswered h.1 hreplay

/-- The look-up of the key ends the call, or finds that the key is new. -/
theorem advance_called (hu : UniqueIndexes store.db) (hunexpired : Unexpired call store.db) :
    (∃ r, advance orderId call store .called = (store, .ended r) ∧
      exec orderId call store.db = (r, store.db)) ∨
    ∃ key, advance orderId call store .called = (store, .unanswered key) ∧
      Ready call key store.db := by
  rcases hkey : normalizeIdempotencyKey call.scope.idempotencyKey with e | key
  · have hlook : findReplay call (.fresh store.db) = (.error e, .fresh store.db) := by
      unfold findReplay
      exact lift_bind_error hkey _ _
    refine .inl ⟨.error e, ?_, exec_of_refused hkey⟩
    rw [advance, call_eq hlook]
    rfl
  obtain ⟨r, hreplay, hnone⟩ := getIdempotentReplay_unexpired hu (hunexpired key hkey)
  have hlook : findReplay call (.fresh store.db) =
      (r.map fun found => (key, found), .fresh store.db) := by
    unfold findReplay
    rw [lift_bind hkey]
    rcases r with e | found
    · exact bind_of_error hreplay
    · exact bind_of_ok hreplay
  rcases r with e | found
  · refine .inl ⟨.error e, ?_, exec_of_answered hkey hreplay⟩
    rw [advance, call_eq hlook]
    rfl
  rcases found with _ | data
  · refine .inr ⟨key, ?_, hkey, hnone.mp rfl⟩
    rw [advance, call_eq hlook]
    rfl
  · refine .inl ⟨.ok data, ?_, exec_of_answered hkey hreplay⟩
    rw [advance, call_eq hlook]
    rfl

theorem advance_unanswered (hu : UniqueIndexes store.db) (hready : Ready call key store.db) :
    (∃ r, advance orderId call store (.unanswered key) = (store, .ended r) ∧
      exec orderId call store.db = (r, store.db)) ∨
    ∃ order, advance orderId call store (.unanswered key) = (store, .loaded key order) ∧
      namedOrder store.db.orders orderId = some order := by
  rcases @readOrder_fresh orderId call _ hu with ⟨order, hread, hnamed, -⟩ | ⟨e, hread⟩
  · refine .inr ⟨order, ?_, hnamed⟩
    rw [advance, call_eq hread]
    rfl
  · refine .inl ⟨.error e, ?_, ?_⟩
    · rw [advance, call_eq hread]
      rfl
    · rw [exec_of_ready hu hready]
      exact carryOut_of_unread hread

theorem exec_of_current {order : Order} (hu : UniqueIndexes store.db)
    (hready : Ready call key store.db) (hnamed : namedOrder store.db.orders orderId = some order) :
    exec orderId call store.db = (writeStatus call key order).call store.db := by
  rw [exec_of_ready hu hready, carryOut_of_read key hu hnamed]

end

/-! ## What a call leaves of the others' records -/

/-- The record of the first call's key is not one of the second's. -/
def KeysApart (call call' : Call) : Prop :=
  ∀ k k', normalizeIdempotencyKey call.scope.idempotencyKey = .ok (some k) →
    normalizeIdempotencyKey call'.scope.idempotencyKey = .ok (some k') →
      ∀ r, isRecordOf call.scope k r = true → isRecordOf call'.scope k' r = false

section

variable {call call' : Call} {key key' : Option String}

theorem keeps_record_apart (happart : KeysApart call call')
    (hkey : normalizeIdempotencyKey call.scope.idempotencyKey = .ok key)
    (hkey' : normalizeIdempotencyKey call'.scope.idempotencyKey = .ok key')
    (v : Option IdempotencyKey) (response : Order) :
    Keeps (fun db => recordFor call' key' db = v)
      (recordIdempotentResponse call.now call.scope key response) := by
  refine (fixes_recordIdempotentResponse _ _ _ _).tentative.keeps fun s u t h hs => ?_
  rcases key with _ | k
  · obtain ⟨-, rfl⟩ := pure_ok.mp h
    exact hs
  rw [recordIdempotentResponse, bind_ok] at h
  obtain ⟨db, s₁, hquery, h⟩ := h
  obtain ⟨hu, rfl, rfl⟩ := query_ok.mp hquery
  rcases hfound : s.working.idempotencyKeys.find? (isRecordOf call.scope k) with _ | existing
  · rw [hfound] at h
    dsimp only at h
    rw [update_bind] at h
    obtain ⟨-, rfl⟩ := flush_ok.mp h
    rcases key' with _ | k'
    · exact hs
    · rw [← hs]
      show Table.find? _ _ = Table.find? _ _
      dsimp only
      rw [Table.find?_add, if_neg, Option.or_none]
      rw [Bool.not_eq_true]
      exact happart k k' hkey hkey' _ (isRecordOf_iff.mpr ⟨rfl, rfl, rfl, rfl⟩)
  · rw [hfound] at h
    obtain ⟨-, rfl⟩ := ensure_ok.mp h
    exact hs

variable [Casing]

theorem recordFor_writeStatus (happart : KeysApart call call')
    (hkey : normalizeIdempotencyKey call.scope.idempotencyKey = .ok key)
    (hkey' : normalizeIdempotencyKey call'.scope.idempotencyKey = .ok key') (order : Order)
    (db : Db) : recordFor call' key' ((writeStatus call key order).call db).2 =
      recordFor call' key' db := by
  have hkeeps : Keeps (fun db' => recordFor call' key' db' = recordFor call' key' db)
      (writeStatus call key order) := by
    refine Keeps.bind (keeps_updateLoaded_of ?_ ?_ _ _) fun _ => ?_
    · intro db₁ db₂ hsame h
      rw [← h]
      have hkeys : db₁.idempotencyKeys = db₂.idempotencyKeys := hsame
      unfold recordFor
      rw [hkeys]
    · exact keeps_record_apart happart hkey hkey' _
    · exact (readOnly_flush.keeps.bind fun _ => keeps_commit).bind fun _ => (readOnly_pure _).keeps
  exact hkeeps.call (I := fun db' => recordFor call' key' db' = recordFor call' key' db) rfl

end

/-! ## The calls side by side -/

/-- The result of a call that has ended. -/
def resultOf : Stage → Option (Except Exc Order)
  | .ended result => some result
  | _ => none

/-- The order that a call writes in its next step. -/
def toWrite : Stage → Option Order
  | .locking _ order => some order
  | _ => none

/-- What a call has found out about its key, and is still so. -/
def Known (call : Call) (db : Db) : Stage → Prop
  | .called => Unexpired call db
  | .unanswered key => Ready call key db
  | .loaded key _ => Ready call key db
  | .locking key _ => Ready call key db
  | .ended _ => True

section

variable {ι : Type} [DecidableEq ι] [Casing]

def next (orderId : String) (calls : ι → Call) : World ι Store Stage → ι → World ι Store Stage :=
  turn fun i => advance orderId (calls i)

def worldAfter (orderId : String) (calls : ι → Call) (db : Db) (schedule : List ι) :
    World ι Store Stage :=
  run (next orderId calls) (.start ⟨db, false⟩ .called) schedule

/-- The calls that have ended have the results, and leave the database, that they have and leave one
after the other. -/
def Serialised (orderId : String) (calls : ι → Call) (db : Db) (done : List ι)
    (w : World ι Store Stage) : Prop :=
  Serial (fun i => exec orderId (calls i)) Store.db resultOf db done w

structure Kept (orderId : String) (calls : ι → Call) (db : Db) (done : List ι)
    (w : World ι Store Stage) : Prop where
  serial : Serialised orderId calls db done w
  unique : UniqueIndexes w.store.db
  known : ∀ i, Known (calls i) w.store.db (w.position i)

/-- A call that comes to write its order finds it as it has read it. -/
def Current (orderId : String) (w : World ι Store Stage) (i : ι) : Prop :=
  ∀ order ∈ toWrite (w.position i), namedOrder w.store.db.orders orderId = some order

omit [DecidableEq ι] [Casing] in
instance (orderId : String) (w : World ι Store Stage) (i : ι) : Decidable (Current orderId w i) :=
  inferInstanceAs (Decidable (∀ order ∈ toWrite (w.position i), _))

variable {orderId : String} {calls : ι → Call} {db : Db} {done : List ι} {w : World ι Store Stage}
  {i : ι}

theorem kept_of_idle (store : Store) (stage : Stage) (h : Kept orderId calls db done w)
    (hadvance : advance orderId (calls i) w.store (w.position i) = (store, stage))
    (hdb : store.db = w.store.db) (hresult : resultOf stage = resultOf (w.position i))
    (hknown : Known (calls i) w.store.db stage) :
    ∃ done', Kept orderId calls db done' (next orderId calls w i) := by
  have hstore : (next orderId calls w i).store.db = w.store.db := by
    rw [next, turn_store, hadvance, hdb]
  refine ⟨done, h.serial.idle hstore ?_, ?_, fun j => ?_⟩
  · rw [turn_position_self, hadvance, hresult]
  · rw [hstore]
    exact h.unique
  · rw [hstore]
    by_cases hj : j = i
    · subst hj
      rw [next, turn_position_self, hadvance]
      exact hknown
    · rw [next, turn_position_ne _ hj]
      exact h.known j

theorem kept_of_end (store : Store) (result : Except Exc Order) (h : Kept orderId calls db done w)
    (hadvance : advance orderId (calls i) w.store (w.position i) = (store, .ended result))
    (hrunning : resultOf (w.position i) = none)
    (hexec : exec orderId (calls i) w.store.db = (result, store.db))
    (hothers : ∀ j, j ≠ i → Known (calls j) store.db (w.position j)) :
    ∃ done', Kept orderId calls db done' (next orderId calls w i) := by
  have hstore : (next orderId calls w i).store.db = (exec orderId (calls i) w.store.db).2 := by
    rw [next, turn_store, hadvance, hexec]
  refine ⟨done ++ [i], h.serial.ends hrunning ?_ hstore, ?_, fun j => ?_⟩
  · rw [turn_position_self, hadvance, hexec]
    rfl
  · rw [hstore]
    exact uniqueIndexes_exec h.unique
  · rw [hstore, hexec]
    by_cases hj : j = i
    · subst hj
      rw [next, turn_position_self, hadvance]
      trivial
    · rw [next, turn_position_ne _ hj]
      exact hothers j hj

/-! ### One step -/

variable {key : Option String}

omit [DecidableEq ι] in
theorem known_of_write {j : ι} (hapart : KeysApart (calls i) (calls j))
    {order : Order} (hkey : normalizeIdempotencyKey (calls i).scope.idempotencyKey = .ok key)
    (h : Known (calls j) w.store.db (w.position j)) :
    Known (calls j) ((writeStatus (calls i) key order).call w.store.db).2 (w.position j) := by
  have hready : ∀ key', Ready (calls j) key' w.store.db →
      Ready (calls j) key' ((writeStatus (calls i) key order).call w.store.db).2 := by
    rintro key' ⟨hkey', hnone⟩
    exact ⟨hkey', (recordFor_writeStatus hapart hkey hkey' order _).trans hnone⟩
  rcases hposition : w.position j with _ | key' | ⟨key', order'⟩ | ⟨key', order'⟩ | result
  · rw [hposition] at h
    intro key' hkey' record hrecord
    rw [recordFor_writeStatus hapart hkey hkey' order _] at hrecord
    exact h key' hkey' record hrecord
  · rw [hposition] at h
    exact hready key' h
  · rw [hposition] at h
    exact hready key' h
  · rw [hposition] at h
    exact hready key' h
  · trivial

theorem kept_of_answer (result : Except Exc Order) (h : Kept orderId calls db done w)
    (hadvance : advance orderId (calls i) w.store (w.position i) = (w.store, .ended result))
    (hrunning : resultOf (w.position i) = none)
    (hexec : exec orderId (calls i) w.store.db = (result, w.store.db)) :
    ∃ done', Kept orderId calls db done' (next orderId calls w i) :=
  kept_of_end _ _ h hadvance hrunning hexec fun j _ => h.known j

theorem kept_of_called (h : Kept orderId calls db done w) (hposition : w.position i = .called) :
    ∃ done', Kept orderId calls db done' (next orderId calls w i) := by
  have hunexpired : Unexpired (calls i) w.store.db := by
    have := h.known i
    rwa [hposition] at this
  have hrunning : resultOf (w.position i) = none := by
    rw [hposition]
    rfl
  rcases @advance_called _ orderId (calls i) w.store h.unique hunexpired with
    ⟨r, hadvance, hexec⟩ | ⟨key, hadvance, hready⟩
  · rw [← hposition] at hadvance
    exact kept_of_answer r h hadvance hrunning hexec
  · rw [← hposition] at hadvance
    exact kept_of_idle w.store (.unanswered key) h hadvance rfl hrunning.symm hready

theorem kept_of_unanswered (h : Kept orderId calls db done w)
    (hposition : w.position i = .unanswered key) :
    ∃ done', Kept orderId calls db done' (next orderId calls w i) := by
  have hready : Ready (calls i) key w.store.db := by
    have := h.known i
    rwa [hposition] at this
  have hrunning : resultOf (w.position i) = none := by
    rw [hposition]
    rfl
  rcases @advance_unanswered _ orderId (calls i) w.store key h.unique hready with
    ⟨r, hadvance, hexec⟩ | ⟨order, hadvance, -⟩
  · rw [← hposition] at hadvance
    exact kept_of_answer r h hadvance hrunning hexec
  · rw [← hposition] at hadvance
    exact kept_of_idle w.store (.loaded key order) h hadvance rfl hrunning.symm hready

theorem kept_next (hapart : ∀ i j, i ≠ j → KeysApart (calls i) (calls j))
    (h : Kept orderId calls db done w) (hcurrent : Current orderId w i) :
    ∃ done', Kept orderId calls db done' (next orderId calls w i) := by
  have hknown := h.known i
  rcases hposition : w.position i with _ | key | ⟨key, order⟩ | ⟨key, order⟩ | result
  · exact kept_of_called h hposition
  · exact kept_of_unanswered h hposition
  · rw [hposition] at hknown
    have hrunning : resultOf (w.position i) = none := by
      rw [hposition]
      rfl
    rcases hlocked : w.store.locked with _ | _
    · refine kept_of_idle ⟨w.store.db, true⟩ (.locking key order) h ?_ rfl hrunning.symm hknown
      rw [hposition, advance, hlocked]
      rfl
    · refine kept_of_idle w.store (.loaded key order) h ?_ rfl hrunning.symm hknown
      rw [hposition, advance, hlocked]
      rfl
  · rw [hposition] at hknown
    refine kept_of_end ⟨((writeStatus (calls i) key order).call w.store.db).2, false⟩
      ((writeStatus (calls i) key order).call w.store.db).1 h ?_ ?_ ?_ fun j hj => ?_
    · rw [hposition, advance]
    · rw [hposition]
      rfl
    · rw [exec_of_current h.unique hknown (hcurrent order ?_)]
      rw [hposition]
      rfl
    · exact known_of_write (hapart i j (Ne.symm hj)) hknown.1 (h.known j)
  · refine kept_of_idle w.store (.ended result) h ?_ rfl ?_ trivial
    · rw [hposition, advance]
    · rw [hposition]

/-- **Status updates side by side.**  `calls` are updates of one order, with keys that are apart and
whose records have not expired.  In a run in which every call that comes to write the order finds it
as it has read it, the calls that have ended have the results, and leave the database, that they
have and leave one after the other. -/
theorem updates_serialised (orderId : String) (calls : ι → Call) {db : Db} (hu : UniqueIndexes db)
    (hapart : ∀ i j, i ≠ j → KeysApart (calls i) (calls j))
    (hunexpired : ∀ i, Unexpired (calls i) db) (schedule : List ι)
    (hcurrent : Along (next orderId calls) (Current orderId) (.start ⟨db, false⟩ .called) schedule)
    (p q : List ι) (hschedule : schedule = p ++ q) :
    ∃ done, Serialised orderId calls db done (worldAfter orderId calls db p) := by
  have hstep : ∀ (w : World ι Store Stage) i, (∃ done, Kept orderId calls db done w) →
      Current orderId w i → ∃ done, Kept orderId calls db done (next orderId calls w i) := by
    rintro w i ⟨done, h⟩ hi
    exact kept_next hapart h hi
  have hstart : ∃ done, Kept orderId calls db done (.start ⟨db, false⟩ .called) :=
    ⟨[], serial_start rfl rfl, hu, hunexpired⟩
  rw [hschedule, along_append] at hcurrent
  obtain ⟨done, h⟩ := run_invariant_of_along hstep hstart hcurrent.1
  exact ⟨done, h.serial⟩

end

/-! ## A cancellation and a dispatch -/

/-- Order `O1`, of battery `B1`, waits with driver 7. -/
def orderWaiting : Db where
  batteries := ⟨[{ id := 1, serialNumber := "B1", status := .reserved, locationId := some 5 }],
    List.nodup_singleton _⟩
  warehouses := ⟨[{ id := 5 }], List.nodup_singleton _⟩
  orders := ⟨[{ id := "O1", destination := "Pune", orderDate := 0, updatedAt := 0,
                assignedBatteryIds := .ofList ["B1"], assignedDriverId := some 7 }],
    List.nodup_singleton _⟩
  orderBatteries := ⟨[{ id := 1, orderId := "O1", batteryId := "B1", batteryPk := some 1 }],
    List.nodup_singleton _⟩
  driverProfiles := ⟨[{ id := 7, userId := 3, status := some "busy" }], List.nodup_singleton _⟩

def statusRequest : RequestScope :=
  { userId := 1, requestMethod := "PUT", requestPath := "/orders/O1/status",
    requestFingerprint := "" }

def cancelAndDispatch : Bool → Call
  | false => ⟨1, statusRequest, { status := "cancelled" }⟩
  | true => ⟨2, statusRequest, { status := "in_transit" }⟩

theorem no_key (i : Bool) : normalizeIdempotencyKey (cancelAndDispatch i).scope.idempotencyKey =
    .ok none := by
  cases i <;> rfl

theorem updates_serialised_sample :
    ∃ done, Serialised "O1" cancelAndDispatch orderWaiting done
      (worldAfter "O1" cancelAndDispatch orderWaiting
        (List.replicate 4 false ++ List.replicate 4 true)) := by
  refine updates_serialised "O1" cancelAndDispatch ⟨by decide, by decide, by decide⟩ ?_ ?_
    (List.replicate 4 false ++ List.replicate 4 true) (by decide +kernel) _ []
    (List.append_nil _).symm
  · intro i j _ k k' hkey
    rw [no_key i] at hkey
    cases hkey
  · intro i key hkey record hrecord
    rw [no_key i] at hkey
    obtain rfl := Except.ok.inj hkey
    cases hrecord

/-- Both read the order while it waits, and the cancellation is written first. -/
def cancelledFirst : List Bool := [false, true, false, true, false, false, true, true]

theorem cancelled_order_dispatched :
    ¬ ∀ schedule, ∃ done, Serialised "O1" cancelAndDispatch orderWaiting done
      (worldAfter "O1" cancelAndDispatch orderWaiting schedule) := by
  intro hclaim
  obtain ⟨done, h⟩ := hclaim cancelledFirst
  have hdispatched : (worldAfter "O1" cancelAndDispatch orderWaiting
      cancelledFirst).store.db.orders.rows.map (·.status) = ["in_transit"] := by
    decide +kernel
  rcases h.of_both (by decide +kernel) with hstore | hstore
  · rw [hstore] at hdispatched
    revert hdispatched
    decide +kernel
  · rw [hstore] at hdispatched
    revert hdispatched
    decide +kernel

end WezuBackend.Orders.ConcurrentUpdates
