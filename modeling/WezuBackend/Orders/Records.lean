import WezuBackend.Orders.Requests

/-!
# The records of idempotency keys

A response is recorded once under the user, the key, the method and the path of its request; the
table has a unique index on the four (`OneRecord`).  A request whose key was looked up without an
answer finds no record of its own when it comes to record its response (`replay_none`), so that
recording never fails (`record_ok`).  No other step of a request writes the table.
-/

namespace WezuBackend.Orders.Records

open Lib.Tables Lib.Atomicity Lib.Atomicity.Tx Core.Letters Fleet.Model
open Fleet.Transitions Orders.Service Orders.Effects Orders.Requests

/-! ## One record for each request -/

/-- The records are of one request. -/
def sameScope (r r' : IdempotencyKey) : Prop :=
  r.userId = r'.userId ∧ r.idempotencyKey = r'.idempotencyKey ∧
    r.requestMethod = r'.requestMethod ∧ r.requestPath = r'.requestPath

/-- The unique index on the user, the key, the method and the path. -/
def OneRecord (db : Db) : Prop :=
  ∀ r ∈ db.idempotencyKeys, ∀ r' ∈ db.idempotencyKeys, sameScope r r' → r = r'

variable {scope : RequestScope}

theorem isRecordOf_iff {key : String} {r : IdempotencyKey} :
    isRecordOf scope key r = true ↔ r.userId = scope.userId ∧ r.idempotencyKey = key ∧
      r.requestMethod = scope.requestMethod ∧ r.requestPath = scope.requestPath := by
  unfold isRecordOf
  rw [decide_eq_true_eq]

theorem sameScope_of_isRecordOf {key : String} {r r' : IdempotencyKey}
    (h : isRecordOf scope key r = true) (h' : isRecordOf scope key r' = true) : sameScope r r' := by
  obtain ⟨huser, hkey, hmethod, hpath⟩ := isRecordOf_iff.mp h
  obtain ⟨huser', hkey', hmethod', hpath'⟩ := isRecordOf_iff.mp h'
  exact ⟨huser.trans huser'.symm, hkey.trans hkey'.symm, hmethod.trans hmethod'.symm,
    hpath.trans hpath'.symm⟩

def Unrecorded (scope : RequestScope) (key : Option String) (db : Db) : Prop :=
  ∀ k ∈ key, db.idempotencyKeys.find? (isRecordOf scope k) = none

variable {db : Db} {key : Option String}

/-- **A look-up without an answer**: there is no record, or it has expired and is dropped. -/
theorem replay_dropped {now : ℕ} {t : Session Db}
    (h : getIdempotentReplay now scope key (.fresh db) = (.ok none, t)) :
    t = .fresh db ∧ Unrecorded scope key db ∨
      ∃ k ∈ key, ∃ record ∈ db.idempotencyKeys, isRecordOf scope k record = true ∧
        record.expiresAt ≤ now ∧
        t = .fresh { db with idempotencyKeys := db.idempotencyKeys.erase record.id } := by
  rcases key with _ | key
  · obtain ⟨-, rfl⟩ := pure_ok.mp h
    exact .inl ⟨rfl, nofun⟩
  rw [getIdempotentReplay, bind_ok] at h
  obtain ⟨db', s₁, hq, h⟩ := h
  obtain ⟨hu, hdb, rfl⟩ := query_ok.mp hq
  obtain rfl : db = db' := hdb
  rcases hfound : db.idempotencyKeys.find? (isRecordOf scope key) with _ | record
  · rw [hfound] at h
    obtain ⟨-, rfl⟩ := pure_ok.mp h
    refine .inl ⟨rfl, ?_⟩
    rintro k ⟨⟩
    exact hfound
  · rw [hfound] at h
    replace h : answerOf now scope record (.fresh db) = (.ok none, t) := h
    rcases answerOf_cases now scope record db hu with ⟨e, he⟩ | ⟨-, data, hdata⟩ | ⟨hexpired, -⟩
    · rw [he] at h
      cases h
    · rw [hdata] at h
      cases h
    · have hu' : UniqueIndexes { db with idempotencyKeys := db.idempotencyKeys.erase record.id } :=
        @uniqueIndexes_of_records db _ rfl hu
      rw [answerOf, if_pos hexpired, update_bind] at h
      have hcommit := (commitAll_pure (none : Option Order) ⟨db,
        { db with idempotencyKeys := db.idempotencyKeys.erase record.id }⟩).trans (if_pos hu')
      obtain ⟨-, rfl⟩ := Prod.mk.inj (hcommit.symm.trans h)
      exact .inr ⟨key, rfl, record, Table.find?_mem hfound, Table.find?_prop hfound, hexpired, rfl⟩

theorem OneRecord.erase (hone : OneRecord db) (k : ℕ) :
    OneRecord { db with idempotencyKeys := db.idempotencyKeys.erase k } :=
  fun r hr r' hr' => hone r (Table.mem_erase.mp hr).1 r' (Table.mem_erase.mp hr').1

theorem replay_none {now : ℕ} {t : Session Db} (hone : OneRecord db)
    (h : getIdempotentReplay now scope key (.fresh db) = (.ok none, t)) :
    ∃ db₀, t = .fresh db₀ ∧ exceptRecords db₀ = exceptRecords db ∧ OneRecord db₀ ∧
      Unrecorded scope key db₀ := by
  rcases replay_dropped h with ⟨rfl, hnew⟩ | ⟨key, rfl, record, hmem, hrecord, -, rfl⟩
  · exact ⟨db, rfl, rfl, hone, hnew⟩
  · refine ⟨_, rfl, rfl, hone.erase _, ?_⟩
    rintro k ⟨⟩
    refine Table.find?_eq_none.mpr fun r hr => ?_
    obtain ⟨hr, hne⟩ := Table.mem_erase.mp hr
    by_contra hother
    rw [Bool.not_eq_false] at hother
    rw [hone r hr record hmem (sameScope_of_isRecordOf hother hrecord)] at hne
    exact hne rfl

/-- The tables with a new record. -/
def recorded (now : ℕ) (scope : RequestScope) (key : String) (response : Order) (db : Db) : Db :=
  { db with
    idempotencyKeys := db.idempotencyKeys.add fun id =>
      { id, userId := scope.userId, idempotencyKey := key, requestMethod := scope.requestMethod,
        requestPath := scope.requestPath, requestFingerprint := scope.requestFingerprint,
        responsePayload := .order response, expiresAt := now + idempotencyLifetime } }

theorem OneRecord.recorded {key : String} (hone : OneRecord db)
    (hnone : db.idempotencyKeys.find? (isRecordOf scope key) = none) (now : ℕ) (response : Order) :
    OneRecord (recorded now scope key response db) := by
  have hfresh : ∀ r ∈ db.idempotencyKeys, isRecordOf scope key r = false :=
    Table.find?_eq_none.mp hnone
  have hmem : ∀ r ∈ (Records.recorded now scope key response db).idempotencyKeys,
      r ∈ db.idempotencyKeys ∨ (isRecordOf scope key r = true ∧ r =
        ⟨db.idempotencyKeys.freshKey, scope.userId, key, scope.requestMethod,
          scope.requestPath, scope.requestFingerprint, .order response,
          now + idempotencyLifetime⟩) := by
    intro r hr
    rcases Table.mem_add.mp hr with hr | rfl
    · exact .inl hr
    · exact .inr ⟨isRecordOf_iff.mpr ⟨rfl, rfl, rfl, rfl⟩, rfl⟩
  have hold : ∀ r ∈ db.idempotencyKeys, ∀ r', isRecordOf scope key r' = true →
      ¬ sameScope r r' := by
    rintro r hr r' hr' ⟨huser, hkey, hmethod, hpath⟩
    obtain ⟨huser', hkey', hmethod', hpath'⟩ := isRecordOf_iff.mp hr'
    have hrecord := isRecordOf_iff.mpr ⟨huser.trans huser', hkey.trans hkey',
      hmethod.trans hmethod', hpath.trans hpath'⟩
    rw [hfresh r hr] at hrecord
    cases hrecord
  intro r hr r' hr' hsame
  rcases hmem r hr with hr | ⟨hrecord, rfl⟩ <;> rcases hmem r' hr' with hr' | ⟨hrecord', rfl⟩
  · exact hone r hr r' hr' hsame
  · exact absurd hsame (hold r hr _ hrecord')
  · refine absurd ?_ (hold r' hr' _ hrecord)
    exact ⟨hsame.1.symm, hsame.2.1.symm, hsame.2.2.1.symm, hsame.2.2.2.symm⟩
  · rfl

theorem record_ok (now : ℕ) (response : Order)
    {s : Session Db} (hu : UniqueIndexes s.working) (hone : OneRecord s.working)
    (hnew : Unrecorded scope key s.working) :
    ∃ t, recordIdempotentResponse now scope key response s = (.ok (), t) ∧
      t.committed = s.committed ∧ exceptRecords t.working = exceptRecords s.working ∧
      OneRecord t.working := by
  rcases key with _ | key
  · exact ⟨s, rfl, rfl, rfl, hone⟩
  have hnone := hnew key rfl
  have hrecords : exceptRecords (recorded now scope key response s.working) =
    exceptRecords s.working := rfl
  refine ⟨⟨s.committed, recorded now scope key response s.working⟩, ?_, rfl, hrecords,
    hone.recorded hnone now response⟩
  rw [recordIdempotentResponse, bind_of_ok (query_ok.mpr ⟨hu, rfl, rfl⟩), hnone]
  dsimp only
  rw [update_bind]
  exact flush_ok.mpr ⟨uniqueIndexes_of_records hrecords hu, rfl⟩

/-- **Recording a response**: there is a record already, which is left alone, or one is added. -/
theorem record_cases {now : ℕ} {response : Order} {s t : Session Db} {u : Unit}
    (h : recordIdempotentResponse now scope key response s = (.ok u, t)) :
    t = s ∧ (∀ k ∈ key, s.working.idempotencyKeys.find? (isRecordOf scope k) ≠ none) ∨
    ∃ k ∈ key, s.working.idempotencyKeys.find? (isRecordOf scope k) = none ∧
      t = ⟨s.committed, recorded now scope k response s.working⟩ := by
  rcases key with _ | key
  · obtain ⟨-, rfl⟩ := pure_ok.mp h
    exact .inl ⟨rfl, nofun⟩
  rw [recordIdempotentResponse, bind_ok] at h
  obtain ⟨db, s₁, hq, h⟩ := h
  obtain ⟨-, rfl, rfl⟩ := query_ok.mp hq
  rcases hfound : s.working.idempotencyKeys.find? (isRecordOf scope key) with _ | existing
  · rw [hfound] at h
    dsimp only at h
    rw [update_bind] at h
    obtain ⟨-, rfl⟩ := flush_ok.mp h
    exact .inr ⟨key, rfl, hfound, rfl⟩
  · rw [hfound] at h
    obtain ⟨-, rfl⟩ := ensure_ok.mp h
    refine .inl ⟨rfl, ?_⟩
    rintro k ⟨⟩
    rw [hfound]
    nofun

/-! ## Programs that record what they return -/

theorem oneRecord_congr {db db' : Db} (hsame : keyRecords db = keyRecords db') (h : OneRecord db) :
    OneRecord db' := by
  have hrecords : db.idempotencyKeys = db'.idempotencyKeys := hsame
  unfold OneRecord
  rw [← hrecords]
  exact h

/-- A completed `x` has recorded what it returns, and done nothing else to the records. -/
structure Files (now : ℕ) (scope : RequestScope) (key : Option String) (x : FleetTx Order) :
    Prop where
  tentative : Tentative x
  recorded : ∀ {s order t}, x s = (.ok order, t) → ∃ u v,
    (u.committed = s.committed ∧ keyRecords u.working = keyRecords s.working) ∧
      recordIdempotentResponse now scope key order u = (.ok (), v) ∧
      keyRecords t.working = keyRecords v.working

variable {now : ℕ} {α : Type}

theorem files_bind {x : FleetTx α} {y : α → FleetTx Order} (hx : Fixes keyRecords x)
    (hy : ∀ a, Files now scope key (y a)) : Files now scope key (x >>= y) := by
  refine ⟨hx.tentative.bind fun a => (hy a).tentative, fun h => ?_⟩
  obtain ⟨a, s₁, hrun, h⟩ := bind_ok.mp h
  obtain ⟨hcommitted, hsame⟩ := hx.eq hrun
  obtain ⟨u, v, ⟨hcommitted', hsame'⟩, hrecord, htail⟩ := (hy a).recorded h
  exact ⟨u, v, ⟨hcommitted'.trans hcommitted, hsame'.trans hsame⟩, hrecord, htail⟩

theorem files_record (order : Order) {tail : FleetTx Order} (htail : Fixes keyRecords tail)
    (hreturn : ∀ {s r t}, tail s = (.ok r, t) → r = order) :
    Files now scope key (recordIdempotentResponse now scope key order >>= fun _ => tail) := by
  refine ⟨(fixes_recordIdempotentResponse now scope key order).tentative.bind fun _ =>
    htail.tentative, fun {s r t} h => ?_⟩
  obtain ⟨_, v, hrecord, h'⟩ := bind_ok.mp h
  rw [hreturn h']
  exact ⟨s, v, ⟨rfl, rfl⟩, hrecord, (htail.eq h').2⟩

theorem Files.keeps {I : Db → Prop} {x : FleetTx Order} (hx : Files now scope key x)
    (hI : ∀ db db', keyRecords db = keyRecords db' → I db → I db')
    (hrecord : ∀ response, Keeps I (recordIdempotentResponse now scope key response)) :
    Keeps I x := by
  intro s hc hw
  refine ⟨by rwa [hx.tentative s], fun order t h => ?_⟩
  obtain ⟨u, v, ⟨hcommitted, hsame⟩, hrecorded, htail⟩ := hx.recorded h
  have hcu : I u.committed := hcommitted ▸ hc
  exact hI _ _ htail.symm ((hrecord order u hcu (hI _ _ hsame.symm hw)).2 _ _ hrecorded)

/-! ## Requests -/

theorem fixes_emit_keys (now : ℕ) (eventType : String) (order : Order) (actorUserId : Option ℕ)
    (newStatus key : Option String) :
    Fixes keyRecords (emitOrderRealtimeUpdate now eventType order actorUserId newStatus key) :=
  fixes_emit_of (fun _ _ => rfl) _ _ _ _ _ _

theorem fixes_save_keys (order : Order) : Fixes keyRecords (saveOrder order) :=
  fixes_update fun _ => rfl

theorem files_respond (eventType : String) (newStatus : Option String) (order : Order) :
    Files now scope key (respond now scope key eventType newStatus order) := by
  refine files_record order ((fixes_emit_keys _ _ _ _ _ _).bind fun _ => (readOnly_pure _).fixes)
    fun h => ?_
  obtain ⟨_, _, -, h⟩ := bind_ok.mp h
  exact (pure_ok.mp h).1.symm

theorem fixes_takeOver_keys (now driverId : ℕ) (order : Order) :
    Fixes keyRecords (takeOver now driverId order) :=
  fixes_takeOver_of (fun _ _ => rfl) keyRecords_of_drivers _ _ _

theorem files_changeDriver (order : Order) (driverId : ℕ) :
    Files now scope key (changeDriver now scope key order driverId) := by
  have hassert := fun check => (fixes_assertDriverAvailableForOrder driverId (some order.id) false
    check).of keyRecords_of_drivers
  refine files_bind (hassert false) fun _ => ?_
  refine files_bind (fixes_takeOver_keys _ _ _) fun reassignedFrom => ?_
  refine files_bind (hassert true) fun _ => files_bind (fixes_save_keys _) fun _ => ?_
  refine files_bind ((fixes_setDriverStatus _ _ _).of keyRecords_of_drivers) fun _ => ?_
  refine files_bind ((fixes_releasePreviousDriver _ _ _).of keyRecords_of_drivers) fun _ => ?_
  refine files_record _ (Fixes.bind ?_ fun _ =>
    (fixes_emit_keys _ _ _ _ _ _).bind fun _ => (readOnly_pure _).fixes) fun h => ?_
  · rcases reassignedFrom with _ | other
    · exact (readOnly_pure ()).fixes
    · exact fixes_emit_keys _ _ _ _ _ _
  · obtain ⟨_, _, -, h⟩ := bind_ok.mp h
    obtain ⟨_, _, -, h⟩ := bind_ok.mp h
    exact (pure_ok.mp h).1.symm

theorem files_assignTo (orderId driverReference : String) :
    Files now scope key (assignTo now scope key orderId driverReference) := by
  refine files_bind (readOnly_resolveOrder _).fixes fun found => ?_
  refine files_bind (readOnly_demand _ _).fixes fun order => ?_
  refine files_bind (readOnly_ensure _ _).fixes fun _ => ?_
  refine files_bind readOnly_query.fixes fun db => ?_
  refine files_bind (readOnly_demand _ _).fixes fun driver => ?_
  split_ifs
  · exact files_bind (fixes_save_keys _) fun _ => files_respond _ _ _
  · exact files_changeDriver _ _

section

variable [Casing]

theorem fixes_sync_keys (now : ℕ) (order : Order) (newStatus : String)
    (failureReason : Option String) (actorId : Option ℕ) : Fixes keyRecords
      (syncBatteriesForOrderStatus now order newStatus failureReason actorId) :=
  fixes_sync_of keyRecords_of_rows keyRecords_of_moves _ _ _ _ _

theorem fixes_retryOrder_keys (now : ℕ) (order : Order) :
    Fixes keyRecords (retryOrder now order) :=
  fixes_retryOrder_of keyRecords_of_rows keyRecords_of_moves keyRecords_of_drivers _ _

theorem files_updateLoaded (statusUpdate : StatusUpdate) (loaded : Order) :
    Files now scope key (updateLoaded now scope key statusUpdate loaded) := by
  refine files_bind (readOnly_lift _).fixes fun _ => ?_
  refine files_bind ((fixes_beginDispatch _ _ _).of keyRecords_of_drivers) fun _ => ?_
  refine files_bind (readOnly_ensure _ _).fixes fun _ => ?_
  refine files_bind ((fixes_retryOrder_keys _ _).ite (readOnly_pure ()).fixes) fun _ => ?_
  refine files_bind (fixes_update (f := keyRecords) fun _ => rfl) fun _ => ?_
  refine files_bind (fixes_sync_keys _ _ _ _ _) fun _ => ?_
  refine files_bind ((fixes_endDelivery _ _ _).of keyRecords_of_drivers) fun _ => ?_
  exact files_respond _ _ _

/-- What a status update keeps of the records is what recording its response keeps. -/
theorem keeps_updateLoaded_of {I : Db → Prop}
    (hI : ∀ db db', keyRecords db = keyRecords db' → I db → I db') {now : ℕ}
    (hrecord : ∀ response, Keeps I (recordIdempotentResponse now scope key response))
    (statusUpdate : StatusUpdate) (loaded : Order) :
    Keeps I (updateLoaded now scope key statusUpdate loaded) :=
  (files_updateLoaded statusUpdate loaded).keeps hI hrecord

theorem files_proveDelivery (orderId : String) (pod : ProofOfDeliveryCreate) :
    Files now scope key (proveDelivery now scope key orderId pod) := by
  refine files_bind (readOnly_resolveOrderOr404 _ _).fixes fun order => ?_
  refine files_bind (readOnly_ensure _ _).fixes fun _ => ?_
  refine files_bind (readOnly_lift _).fixes fun _ => ?_
  refine files_bind (readOnly_lift _).fixes fun _ => files_bind (fixes_save_keys _) fun _ => ?_
  refine files_bind (fixes_sync_keys _ _ _ _ _) fun _ => ?_
  refine files_bind ((fixes_releaseDriverIfIdle _ _).of keyRecords_of_drivers) fun _ => ?_
  exact files_respond _ _ _

theorem fixes_prepareOrder_keys (now : ℕ) (payload : OrderCreate) :
    Fixes keyRecords (prepareOrder now payload) := by
  refine (readOnly_ensure _ _).fixes.bind fun _ => readOnly_look.fixes.bind fun db => ?_
  refine (readOnly_ensure _ _).fixes.bind fun _ =>
    (readOnly_newOrder _ _ _).fixes.bind fun order => ?_
  refine ((fixes_assertNewDriver _).of keyRecords_of_drivers).bind fun _ => ?_
  refine (readOnly_lift _).fixes.bind fun ids => ?_
  refine ((fixes_reserveOrderBatteries _ _ _ _).of keyRecords_of_moves).bind fun _ => ?_
  refine ((fixes_takeDriver _ _).of keyRecords_of_drivers).bind fun _ => (readOnly_pure _).fixes

omit [Casing] in
theorem fixes_addOrder_keys (order : Order) : Fixes keyRecords (addOrder order) :=
  readOnly_look.fixes.bind fun _ => (readOnly_ensure _ _).fixes.bind fun _ =>
    Fixes.bind (fixes_update fun _ => rfl) fun _ => readOnly_flush.fixes

theorem files_storeOrder (order : Order) (ids : List String) :
    Files now scope key (storeOrder now scope key order ids) := by
  refine files_bind (readOnly_ensure _ _).fixes fun _ => ?_
  refine files_bind (fixes_addOrder_keys _) fun _ => ?_
  refine files_bind ((fixes_persistOrderBatteries _ _).of keyRecords_of_rows) fun _ => ?_
  exact files_respond _ _ _

theorem files_returnDelivered (returnId orderId reason : String) :
    Files now scope key (returnDelivered now scope key returnId orderId reason) := by
  refine files_bind (readOnly_resolveOrderOr404 _ _).fixes fun original => ?_
  refine files_bind (readOnly_ensure _ _).fixes fun _ => ?_
  refine files_bind readOnly_query.fixes fun db => ?_
  refine files_bind (readOnly_ensure _ _).fixes fun _ => ?_
  refine files_bind ((fixes_getOrderBatteryIds _).of keyRecords_of_rows) fun ids => ?_
  refine files_bind (readOnly_fetchAssigned _).fixes fun batteries => ?_
  refine files_bind (fixes_forM (fun battery =>
    (fixes_addLifecycleEvent _ _ _ _ _).of keyRecords_of_moves) batteries) fun _ => ?_
  refine files_bind (fixes_addOrder_keys _) fun _ => ?_
  refine files_bind ((fixes_persistOrderBatteries _ _).of keyRecords_of_rows) fun _ => ?_
  exact files_record _ (readOnly_pure _).fixes fun h => (pure_ok.mp h).1.symm

end

/-! ## Calls -/

/-- A property of the records that a request at the time `now` keeps: to record a response keeps it,
and so does dropping a record that has expired by then. -/
structure Lasting (now : ℕ) (I : Db → Prop) : Prop where
  congr : ∀ db db', keyRecords db = keyRecords db' → I db → I db'
  recorded : ∀ {db} scope key response, db.idempotencyKeys.find? (isRecordOf scope key) = none →
    I db → I (recorded now scope key response db)
  dropped : ∀ {db} {record : IdempotencyKey}, record ∈ db.idempotencyKeys →
    record.expiresAt ≤ now → I db →
    I { db with idempotencyKeys := db.idempotencyKeys.erase record.id }

theorem lasting_oneRecord (now : ℕ) : Lasting now OneRecord where
  congr _ _ := oneRecord_congr
  recorded _ _ response hnone h := h.recorded hnone now response
  dropped _ _ h := h.erase _

theorem lasting_record {record : IdempotencyKey} (h : now < record.expiresAt) :
    Lasting now fun db => record ∈ db.idempotencyKeys where
  congr db db' hsame hmem := by
    have hrecords : db.idempotencyKeys = db'.idempotencyKeys := hsame
    rwa [← hrecords]
  recorded _ _ _ _ hmem := Table.mem_add.mpr (.inl hmem)
  dropped {db other} hother hexpired hmem := by
    refine Table.mem_erase.mpr ⟨hmem, fun hid => ?_⟩
    obtain rfl := Table.eq_of_key hmem hother hid
    omega

variable {I : Db → Prop}

theorem Files.lasting {x : FleetTx Order} (hx : Files now scope key x) (hI : Lasting now I)
    {s t : Session Db} {order : Order} (h : x s = (.ok order, t)) (hs : I s.working) :
    I t.working := by
  obtain ⟨u, v, ⟨-, hsame⟩, hrecord, htail⟩ := hx.recorded h
  have hu : I u.working := hI.congr _ _ hsame.symm hs
  refine hI.congr _ _ htail.symm ?_
  rcases record_cases hrecord with ⟨rfl, -⟩ | ⟨k, -, hnone, rfl⟩
  · exact hu
  · exact hI.recorded scope k order hnone hu

theorem answered_lasting {x request : Option String → FleetTx Order}
    (hx : ∀ key, CommitsLast (request key) (x key)) (hfiles : ∀ key, Files now scope key (x key))
    (hI : Lasting now I) (h : I db) : I ((answered now scope request).call db).2 := by
  rcases hkey : normalizeIdempotencyKey scope.idempotencyKey with e | key
  · rwa [answered, call_eq (lift_bind_error hkey _ _)]
  unfold call answered
  rw [lift_bind hkey]
  rcases getIdempotentReplay_cases now scope key db with ⟨e, hrun⟩ | ⟨-, data, hrun⟩ |
    ⟨-, db₀, -, -, hrun⟩
  · rwa [bind_of_error hrun]
  · rwa [bind_of_ok hrun]
  · have h₀ : I db₀ := by
      rcases replay_dropped hrun with ⟨heq, -⟩ | ⟨-, -, record, hmem, -, hexpired, heq⟩
      · obtain rfl : db₀ = db := congrArg Session.working heq
        exact h
      · obtain rfl : db₀ = _ := congrArg Session.working heq
        exact hI.dropped hmem hexpired h
    rw [bind_of_ok hrun]
    rcases hx key db₀ with ⟨e, hcall⟩ | ⟨order, t, hrun', -, hcall⟩
    · rwa [show (request key (.fresh db₀)).2.committed = db₀ from congrArg Prod.snd hcall]
    · rw [show (request key (.fresh db₀)).2.committed = t.working from congrArg Prod.snd hcall]
      exact (hfiles key).lasting hI hrun' h₀

end WezuBackend.Orders.Records

namespace WezuBackend.Orders.Requests.Request

open Lib.Atomicity Lib.Atomicity.Tx Core.Letters Fleet.Model
open Fleet.Transitions Orders.Service Orders.Effects Orders.Records

section

variable [Casing]

theorem files_body (request : Request) (key : Option String) :
    Files request.now request.scope key (request.body key) := by
  cases request with
  | create now scope payload =>
    exact files_bind (fixes_prepareOrder_keys _ _) fun _ => files_storeOrder _ _
  | update now scope orderId statusUpdate =>
    exact files_bind (readOnly_resolveOrderOr404 _ _).fixes fun _ => files_updateLoaded _ _
  | prove now scope orderId pod => exact files_proveDelivery _ _
  | assign now scope orderId driverReferences =>
    exact files_bind (readOnly_lift _).fixes fun _ => files_assignTo _ _
  | giveBack now scope returnId orderId reason => exact files_returnDelivered _ _ _

theorem step_lasting {I : Db → Prop} {db : Db} (request : Request) (hI : Lasting request.now I)
    (h : I db) : I (request.step db) := by
  unfold step
  rcases request.program_cases with ⟨e, h'⟩ | ⟨f, h', hlast⟩
  · rwa [call_eq (h' _)]
  · rw [h']
    exact answered_lasting hlast request.files_body hI h

end

end WezuBackend.Orders.Requests.Request

namespace WezuBackend.Orders.Records

open Lib.Atomicity Lib.Atomicity.Tx Core.Letters Fleet.Model Orders.Requests

theorem step_oneRecord [Casing] {db : Db} (request : Request) (h : OneRecord db) :
    OneRecord (request.step db) := request.step_lasting (lasting_oneRecord _) h

theorem step_uniqueIndexes [Casing] {db : Db} (request : Request) (h : UniqueIndexes db) :
    UniqueIndexes (request.step db) := by
  have houtcome := request.call_outcome db
  unfold Request.step
  generalize request.program.call db = r at houtcome
  cases houtcome with
  | refused hsame => exact uniqueIndexes_of_records hsame h
  | answered _ => exact h
  | carriedOut _ _ _ hu => exact hu

end WezuBackend.Orders.Records
