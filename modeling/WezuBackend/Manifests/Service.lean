import WezuBackend.Inventory.Operations
import WezuBackend.Orders.Service

/-!
# Manifests

`app/api/v1/manifests.py`: a manifest lists the batteries of a delivery.  It is created with its
items, received in one or several requests that set the status of items and bring the batteries into
a warehouse, and marked as processed at the end.

Responses that are stored under an idempotency key are those of requests to these paths; the other
rows of that table are never looked at here.
-/

namespace WezuBackend.Manifests.Service

open Lib.Tables Lib.Atomicity Lib.Atomicity.Tx
open Core.Base Core.Text Core.Letters Fleet.Model
open Fleet.Consistency Inventory.Operations
open Orders.Service (normalizeIdempotencyKey idempotencyLifetime)

/-! ## Tables -/

/-- Of `ALLOWED_MANIFEST_STATUSES`. -/
inductive ManifestStatus where
  | inTransit
  | inProgress
  | received
  | processed
  deriving DecidableEq, Repr

/-- The text a status is stored as. -/
def ManifestStatus.text : ManifestStatus → String
  | .inTransit => "In Transit"
  | .inProgress => "In Progress"
  | .received => "Received"
  | .processed => "Processed"

/-- Of `ALLOWED_MANIFEST_ITEM_STATUSES`. -/
inductive ItemStatus where
  | pending
  | scanned
  | missing
  | damaged
  | extra
  deriving DecidableEq, Repr

/-- The text a status is stored as. -/
def ItemStatus.text : ItemStatus → String
  | .pending => "pending"
  | .scanned => "scanned"
  | .missing => "missing"
  | .damaged => "damaged"
  | .extra => "extra"

/-- A row of `manifests`. -/
structure Manifest where
  id : String
  source : String
  date : ℕ
  status : String := "In Transit"
  createdAt : ℕ
  deriving DecidableEq, Repr

/-- A row of `manifest_items`. -/
structure ManifestItem where
  id : ℕ
  manifestId : String
  batteryId : String
  batteryTableId : Option ℕ := none
  serialNumber : Option String := none
  type : String
  status : String := "pending"
  deriving DecidableEq, Repr

/-- An item in a response. -/
structure ManifestItemRead where
  id : ℕ
  batteryId : String
  type : String
  status : String
  deriving DecidableEq, Repr

/-- The response of every request. -/
structure ManifestRead where
  id : String
  source : String
  date : ℕ
  status : String
  createdAt : ℕ
  items : List ManifestItemRead
  deriving DecidableEq, Repr

/-- A row of `idempotency_keys`. -/
structure StoredResponse where
  id : ℕ
  userId : ℕ
  idempotencyKey : String
  requestPath : String
  requestFingerprint : String
  /-- `none` if it is no JSON -/
  responsePayload : Option ManifestRead
  expiresAt : ℕ
  deriving DecidableEq, Repr

instance : Row Manifest String := ⟨Manifest.id⟩
instance : Row ManifestItem ℕ := ⟨ManifestItem.id⟩
instance : Row StoredResponse ℕ := ⟨StoredResponse.id⟩

@[simp] theorem key_manifest (m : Manifest) : Row.key m = m.id := rfl
@[simp] theorem key_manifestItem (i : ManifestItem) : Row.key i = i.id := rfl
@[simp] theorem key_storedResponse (r : StoredResponse) : Row.key r = r.id := rfl

/-- The tables the requests read and write. -/
structure Store where
  fleet : Db := {}
  manifests : Table Manifest := .empty
  manifestItems : Table ManifestItem := .empty
  storedResponses : Table StoredResponse := .empty

/-- A request's program, with its transaction. -/
abbrev ManifestTx (α : Type) : Type := Tx Exc Store α

/-- The fleet's tables are replaced. -/
def Store.withFleet (fleet : Db) (s : Store) : Store := { s with fleet }

/-- A program on the tables of the fleet. -/
def onFleet {α : Type} (x : FleetTx α) : ManifestTx α := focus Store.fleet Store.withFleet x

/-- What is staged is written, and a unique index may refuse it. -/
def flush : ManifestTx Unit := do
  let s ← look
  ensure (UniqueIndexes s.fleet) .integrityError

/-- A query flushes first. -/
def query : ManifestTx Store := do
  flush
  look

/-- `session.commit()` -/
def commitAll : ManifestTx Unit := do
  flush
  commit

/-- The row of the manifest is overwritten. -/
def saveManifest (manifest : Manifest) : ManifestTx Unit :=
  update fun s => { s with manifests := s.manifests.set manifest }

/-- The row of the item is overwritten. -/
def saveItem (item : ManifestItem) : ManifestTx Unit :=
  update fun s => { s with manifestItems := s.manifestItems.set item }

/-! ## Requests -/

/-- Who asks, when, and under which key. -/
structure Caller where
  now : ℕ
  userId : ℕ
  /-- the header -/
  idempotencyKey : Option String := none
  /-- `build_request_fingerprint(payload)` -/
  requestFingerprint : String := ""

/-- An item of the body. -/
structure ManifestItemCreate where
  batteryId : String
  type : String
  status : String := "pending"

/-- The body of `create_manifest`. -/
structure ManifestCreate where
  id : String
  source : String
  date : ℕ
  status : String := "In Transit"
  items : List ManifestItemCreate

/-- An item of the body. -/
structure ManifestItemUpdate where
  batteryId : String
  status : String
  damageReport : Option String := none
  damagePhotoPath : Option String := none

/-- The body of `receive_manifest`. -/
structure ManifestReceiveRequest where
  warehouseId : Option ℕ := none
  items : List ManifestItemUpdate

/-! ## Texts -/

/-- `[A-Z0-9]`. -/
def isIdStart (c : Char) : Bool := c.isUpper || c.isDigit

/-- `[A-Z0-9._:-]`. -/
def isIdChar (c : Char) : Bool := isIdStart c || ['.', '_', ':', '-'].contains c

/-- `MANIFEST_ID_PATTERN`. -/
def matchesManifestId (text : String) : Bool :=
  match text.toList with
  | [] => false
  | c :: cs => isIdStart c && decide (cs.length ≤ 127) && cs.all isIdChar

/-- `split()`. -/
def words (text : String) : List String :=
  ((text.toList.splitOnP isSpace).filter (· ≠ [])).map String.ofList

/-- `replace("_", " ").replace("-", " ")`. -/
def blanked (text : String) : String :=
  String.ofList (text.toList.map fun c => if c = '_' ∨ c = '-' then ' ' else c)

/-- `MANIFEST_STATUS_CANONICAL_MAP` -/
def manifestStatusCanonicalMap : List (String × ManifestStatus) :=
  [("IN TRANSIT", .inTransit), ("IN PROGRESS", .inProgress), ("RECEIVED", .received),
    ("PROCESSED", .processed)]

/-- `INITIAL_MANIFEST_STATUSES` -/
def initialManifestStatuses : List ManifestStatus := [.inTransit, .inProgress]

/-- `RECEIVE_ALLOWED_MANIFEST_STATUSES` -/
def receiveAllowedManifestStatuses : List ManifestStatus := [.inTransit, .inProgress, .received]

/-- The item statuses under their texts. -/
def allowedManifestItemStatuses : List (String × ItemStatus) :=
  [("pending", .pending), ("scanned", .scanned), ("missing", .missing), ("damaged", .damaged),
    ("extra", .extra)]

/-- `_normalize_manifest_source` -/
def normalizeManifestSource (rawSource : String) : Except Exc String :=
  if strip rawSource = "" then .error (.http 400 "Manifest source is required")
  else if 255 < (strip rawSource).length then
    .error (.http 400 "Manifest source must be at most 255 characters")
  else .ok (strip rawSource)

/-- `_normalize_manifest_item_status` -/
def normalizeManifestItemStatus (rawStatus fieldName : String) (allowExtra : Bool := true) :
    Except Exc ItemStatus :=
  match allowedManifestItemStatuses.lookup (lower (strip rawStatus)) with
  | none =>
    .error <| .http 400 <| s!"Invalid {fieldName} '{rawStatus}'. " ++
      "Allowed: ['damaged', 'extra', 'missing', 'pending', 'scanned']"
  | some status =>
    if allowExtra = false ∧ status = .extra then
      .error (.http 400 s!"{fieldName} cannot be 'extra' at manifest creation time")
    else .ok status

/-- `_normalize_manifest_item_type` -/
def normalizeManifestItemType (rawType fieldName : String) : Except Exc String :=
  if strip rawType = "" then .error (.http 400 s!"{fieldName} is required")
  else if 120 < (strip rawType).length then
    .error (.http 400 s!"{fieldName} must be at most 120 characters")
  else .ok (strip rawType)

/-- `(text or "").strip() or None`. -/
def cleaned (text : Option String) : Option String := truthy (text.map strip)

/-- The status that follows from those of the items. -/
def computeManifestStatus (items : List ManifestItem) : ManifestStatus :=
  if items = [] then .inTransit
  else if ∃ item ∈ items, item.status = "pending" ∨ item.status = "missing" then .inProgress
  else .received

section

variable [Casing]

/-- `_normalize_manifest_id` -/
def normalizeManifestId (rawManifestId : String) (fieldName : String := "manifest_id") :
    Except Exc String :=
  if normal rawManifestId = "" then
    .error (.http 400 s!"{fieldName} must be a non-empty string")
  else if matchesManifestId (normal rawManifestId) then .ok (normal rawManifestId)
  else
    .error <| .http 400 <| s!"{fieldName} '{normal rawManifestId}' has invalid format. " ++
      "Allowed: uppercase letters, digits, '.', '_', ':', '-'"

/-- `_normalize_manifest_status` -/
def normalizeManifestStatus (rawStatus : String) (fieldName : String := "status") :
    Except Exc ManifestStatus :=
  match manifestStatusCanonicalMap.lookup
      (" ".intercalate (words (upper (blanked (strip rawStatus))))) with
  | some status => .ok status
  | none =>
    .error <| .http 400 <| s!"Invalid {fieldName} '{rawStatus}'. " ++
      "Allowed: ['In Progress', 'In Transit', 'Processed', 'Received']"

/-! ## Idempotency keys -/

/-- The row is under this key, for this user and path. -/
def isResponseTo (c : Caller) (path key : String) (r : StoredResponse) : Bool :=
  r.userId = c.userId ∧ r.idempotencyKey = key ∧ r.requestPath = path

/-- The response stored under the key, if it is of the same body. -/
def getIdempotentReplay (c : Caller) (path : String) (key : Option String) :
    ManifestTx (Option ManifestRead) :=
  match key with
  | none => pure none
  | some key => do
    let s ← query
    match s.storedResponses.find? (isResponseTo c path key) with
    | none => return none
    | some record =>
      if record.expiresAt ≤ c.now then do
        update fun s => { s with storedResponses := s.storedResponses.erase record.id }
        commitAll
        return none
      else do
        ensure (record.requestFingerprint = c.requestFingerprint) <| .http 409
          "Idempotency-Key reuse with different request payload is not allowed"
        match record.responsePayload with
        | none => raise (.http 500 "Stored idempotent response is corrupted")
        | some data => return some data

/-- The response is stored under the key. -/
def recordIdempotentResponse (c : Caller) (path : String) (key : Option String)
    (response : ManifestRead) : ManifestTx Unit :=
  match key with
  | none => pure ()
  | some key => do
    let s ← query
    match s.storedResponses.find? (isResponseTo c path key) with
    | some existing =>
      ensure (existing.requestFingerprint = c.requestFingerprint) <| .http 409
        "Idempotency-Key reuse with different request payload is not allowed"
    | none =>
      update fun s =>
        { s with
          storedResponses := s.storedResponses.add fun id =>
            { id, userId := c.userId, idempotencyKey := key, requestPath := path,
              requestFingerprint := c.requestFingerprint, responsePayload := some response,
              expiresAt := c.now + idempotencyLifetime } }
      flush

/-- A request is answered from its idempotency key, or carried out; its response is recorded with
what it has written. -/
def answered (c : Caller) (path : String) (request : ManifestTx ManifestRead) :
    ManifestTx ManifestRead := do
  let key ← lift (normalizeIdempotencyKey c.idempotencyKey)
  match ← getIdempotentReplay c path key with
  | some data => return data
  | none =>
    let response ← request
    recordIdempotentResponse c path key response
    commitAll
    return response

/-! ## Rows -/

/-- The manifests of that id, in any case. -/
def findManifestsByNormalizedId (s : Store) (normalizedManifestId : String) : List Manifest :=
  s.manifests.filter fun m => sqlUpper m.id = normalizedManifestId

/-- The one manifest of that id. -/
def loadManifestById (normalizedManifestId : String) : ManifestTx Manifest := do
  let s ← query
  match findManifestsByNormalizedId s normalizedManifestId with
  | [] => raise (.http 404 s!"Manifest '{normalizedManifestId}' not found")
  | [manifest] => return manifest
  | _ =>
    raise <| .http 409 <| "Data integrity violation: multiple manifests found for id " ++
      s!"'{normalizedManifestId}' (case-insensitive match)"

end

/-- `manifest.items`. -/
def itemsOf (s : Store) (manifestId : String) : List ManifestItem :=
  s.manifestItems.filter fun i => i.manifestId = manifestId

/-- The response about a manifest with the items that the request has loaded. -/
def readManifest (manifest : Manifest) (items : List ManifestItem) : ManifestRead where
  id := manifest.id
  source := manifest.source
  date := manifest.date
  status := manifest.status
  createdAt := manifest.createdAt
  items := items.map fun i => ⟨i.id, i.batteryId, i.type, i.status⟩

section

variable [Casing]

/-- The items by serial number, in a dictionary's order. -/
def buildManifestItemMap (items : List ManifestItem) :
    Except Exc (List (String × ManifestItem)) :=
  items.foldlM (fun itemMap item => do
    let serial ← normalizeBatterySerial item.batteryId "manifest.items[].battery_id"
    if ∃ existing ∈ itemMap.lookup serial, existing.id ≠ item.id then
      throw <| .http 409 <| "Data integrity violation: manifest contains duplicate item rows " ++
        s!"for battery '{serial}'"
    return itemMap ++ [(serial, item)]) []

/-! ## Creation -/

/-- An item of the body, normalised. -/
structure ItemPayload where
  batteryId : String
  type : String
  status : ItemStatus

/-- The items of a creation, under their normalised serials. -/
def itemPayloads : ℕ → List (String × ManifestItemCreate) → Except Exc (List ItemPayload)
  | _, [] => .ok []
  | index, (serial, item) :: items => do
    let status ← normalizeManifestItemStatus item.status s!"items[{index}].status" false
    let type ← normalizeManifestItemType item.type s!"items[{index}].type"
    let payloads ← itemPayloads (index + 1) items
    return ⟨serial, type, status⟩ :: payloads

/-- The manifests with a new one, unless its id is taken. -/
def insertManifest (manifests : Table Manifest) (manifest : Manifest) : Table Manifest :=
  match h : manifests.get? manifest.id with
  | some _ => manifests
  | none => manifests.insert manifest (Table.get?_eq_none.mp h)

/-- The new row of an item. -/
def createdItem (manifestId : String) (item : ItemPayload) (batteryTableId : Option ℕ) (id : ℕ) :
    ManifestItem where
  id := id
  manifestId := manifestId
  batteryId := item.batteryId
  batteryTableId := batteryTableId
  serialNumber := some item.batteryId
  type := item.type
  status := item.status.text

/-- One item is added, with the battery of its serial if there is one. -/
def createItem (manifestId : String) (item : ItemPayload) : ManifestTx Unit := do
  let knownBattery ← onFleet (getBatteryBySerial item.batteryId)
  update fun s =>
    { s with
      manifestItems := s.manifestItems.add
        (createdItem manifestId item (knownBattery.map Battery.id)) }

/-- `create_manifest`, past the checks of the body. -/
def createRows (manifest : Manifest) (payloads : List ItemPayload) : ManifestTx ManifestRead := do
  let s ← query
  ensure (findManifestsByNormalizedId s manifest.id = []) <| .http 409
    s!"Manifest ID '{manifest.id}' already exists (case-insensitive match)"
  update fun s => { s with manifests := insertManifest s.manifests manifest }
  payloads.forM (createItem manifest.id)
  flush
  let manifest ← loadManifestById manifest.id
  let s ← look
  return readManifest manifest (itemsOf s manifest.id)

/-- `create_manifest` -/
def createManifest (c : Caller) (manifestData : ManifestCreate) : ManifestTx ManifestRead := do
  let id ← lift (normalizeManifestId manifestData.id "id")
  let source ← lift (normalizeManifestSource manifestData.source)
  let manifestStatus ← lift (normalizeManifestStatus manifestData.status)
  ensure (manifestStatus ∈ initialManifestStatuses) <| .http 400 <|
    "Manifest can only be created as one of ['In Progress', 'In Transit']. " ++
      s!"Received '{manifestStatus.text}'"
  ensure (manifestData.items ≠ []) (.http 400 "Manifest must include at least one item")
  let serials ← lift (normalizeBatterySerials
    (manifestData.items.map ManifestItemCreate.batteryId) "items.battery_id")
  let payloads ← lift (itemPayloads 0 (serials.zip manifestData.items))
  let manifestStatus :=
    if manifestStatus = .inTransit ∧ ∃ p ∈ payloads, p.status ≠ .pending then .inProgress
    else manifestStatus
  answered c "/manifests" <| createRows
    { id, source, date := manifestData.date, status := manifestStatus.text, createdAt := c.now }
    payloads

/-! ## Receipt -/

/-- An item of the body, normalised. -/
structure ItemUpdate where
  batteryId : String
  status : ItemStatus
  damageReport : Option String
  damagePhotoPath : Option String
  deriving DecidableEq

/-- The updates of a request, under their normalised serials. -/
def normalizeUpdates : ℕ → List (String × ManifestItemUpdate) → Except Exc (List ItemUpdate)
  | _, [] => .ok []
  | index, (serial, item) :: items => do
    let status ← normalizeManifestItemStatus item.status s!"items[{index}].status"
    let updates ← normalizeUpdates (index + 1) items
    return ⟨serial, status, cleaned item.damageReport, cleaned item.damagePhotoPath⟩ :: updates

/-- The serial numbers of the body, no two the same. -/
def assertUniqueManifestItemUpdates (receiveData : ManifestReceiveRequest) :
    Except Exc (List String) := do
  if receiveData.items = [] then
    throw (.http 400 "At least one manifest item update is required")
  normalizeBatterySerials (receiveData.items.map ManifestItemUpdate.batteryId) "items.battery_id"

/-- `_assert_manifest_receivable`; the status is written as it is normalised. -/
def assertManifestReceivable (manifest : Manifest) : ManifestTx Manifest := do
  let currentStatus ← lift (normalizeManifestStatus manifest.status "manifest.status")
  let manifest := { manifest with status := currentStatus.text }
  saveManifest manifest
  ensure (currentStatus ≠ .processed) <| .http 409
    s!"Manifest '{manifest.id}' is Processed and cannot be modified via receive flow"
  ensure (currentStatus ∈ receiveAllowedManifestStatuses) <| .http 409 <|
    s!"Manifest '{manifest.id}' status '{currentStatus.text}' cannot enter receive flow. " ++
      "Allowed: ['In Progress', 'In Transit', 'Received']"
  return manifest

/-- The battery of that serial, added when there is none. -/
def getOrCreateBattery (now : ℕ) (serial : String) (warehouseId actorId : ℕ) : FleetTx Battery := do
  let normalized ← lift (normalizeBatterySerial serial)
  match ← getBatteryBySerial normalized with
  | some battery =>
    saveBattery (renamed now normalized battery)
    return renamed now normalized battery
  | none =>
    let db ← look
    let battery := intakeBattery now normalized warehouseId db.batteries.freshKey
    update fun db =>
      { db with batteries := db.batteries.add (intakeBattery now normalized warehouseId) }
    Fleet.Model.flush
    addLifecycleEvent now battery.id "created"
      (some s!"Created from manifest processing at warehouse #{warehouseId}") (some actorId)
    return battery

/-- What every step of a receipt shares. -/
structure Receipt where
  now : ℕ
  actorId : ℕ
  manifestId : String
  warehouseId : ℕ

/-- Where an item's status sends its battery. -/
def intake (r : Receipt) (u : ItemUpdate) : Option Transition :=
  let moved (status : BatteryStatus) (eventType eventDescription : String) : Transition :=
    { eventType, eventDescription, actorId := some r.actorId, toStatus := some status
      toLocationType := some .warehouse, toLocationId := some (some r.warehouseId) }
  match u.status with
  | .scanned =>
    some (moved .available "manifest_scanned" s!"Received via manifest {r.manifestId}")
  | .damaged =>
    let report := u.damageReport.getD "Not provided"
    let photo := u.damagePhotoPath.getD "None"
    some <| moved .maintenance "damage_report" <|
      s!"Damage report via manifest {r.manifestId}: {report} | Photo: {photo}"
  | .extra =>
    some <| moved .available "manifest_extra"
      s!"Extra battery found during manifest {r.manifestId} receipt"
  | .missing => none
  | .pending => none

/-- What is noted about a battery that an update does not bring in. -/
def remark (r : Receipt) (u : ItemUpdate) : String × String :=
  if u.status = .missing then
    ("manifest_missing", s!"Marked missing during manifest {r.manifestId} receipt")
  else ("manifest_pending", s!"Marked pending in manifest {r.manifestId} receipt")

/-- The new row of a battery that the manifest does not list. -/
def extraItem (r : Receipt) (u : ItemUpdate) (id : ℕ) : ManifestItem where
  id := id
  manifestId := r.manifestId
  batteryId := u.batteryId
  serialNumber := some u.batteryId
  type := "Unknown"
  status := u.status.text

/-- The item that an update is about; an unlisted battery gets one if it is an extra. -/
def findItem (r : Receipt) (knownAtStart : List String) (itemMap : List (String × ManifestItem))
    (u : ItemUpdate) : ManifestTx ManifestItem :=
  match itemMap.lookup u.batteryId with
  | none => do
    ensure (u.status = .extra) <| .http 400 <|
      s!"Battery '{u.batteryId}' is not part of manifest '{r.manifestId}'. " ++
        "Unknown items can only be submitted as status 'extra'."
    let s ← look
    update fun s => { s with manifestItems := s.manifestItems.add (extraItem r u) }
    flush
    return extraItem r u s.manifestItems.freshKey
  | some item => do
    ensure (¬ (u.status = .extra ∧ u.batteryId ∈ knownAtStart ∧ item.status ≠ "extra")) <|
      .http 400 <| s!"Battery '{u.batteryId}' already exists in manifest '{r.manifestId}'. " ++
        "Use statuses scanned/damaged/missing/pending for listed items."
    return { item with batteryId := u.batteryId, serialNumber := some u.batteryId }

/-- The battery of an update, and the id that its item refers to from then on. -/
def receiveBattery (r : Receipt) (item : ManifestItem) (u : ItemUpdate) :
    FleetTx (Option ℕ) :=
  match intake r u with
  | some args => do
    let battery ← getOrCreateBattery r.now u.batteryId r.warehouseId r.actorId
    let _ ← applyBatteryTransition r.now battery args
    return some battery.id
  | none => do
    let db ← look
    match item.batteryTableId.bind db.batteries.get? with
    | some battery =>
      addLifecycleEvent r.now battery.id (remark r u).1 (some (remark r u).2) (some r.actorId)
    | none => pure ()
    return item.batteryTableId

/-- `item_map[serial] = item`. -/
def assign (itemMap : List (String × ManifestItem)) (serial : String) (item : ManifestItem) :
    List (String × ManifestItem) :=
  (serial, item) :: itemMap.filter fun entry => entry.1 ≠ serial

/-- A round of the loop over the updates. -/
def receiveItem (r : Receipt) (knownAtStart : List String)
    (itemMap : List (String × ManifestItem)) (u : ItemUpdate) :
    ManifestTx (List (String × ManifestItem)) := do
  let item ← findItem r knownAtStart itemMap u
  let batteryTableId ← onFleet (receiveBattery r item u)
  let item := { item with batteryTableId, status := u.status.text }
  saveItem item
  return assign itemMap u.batteryId item

/-- `receive_manifest`, past the checks of the body. -/
def receiveRows (now actorId warehouseId : ℕ) (normalizedManifestId : String)
    (updates : List ItemUpdate) : ManifestTx ManifestRead := do
  let manifest ← loadManifestById normalizedManifestId
  let manifest ← assertManifestReceivable manifest
  let s ← look
  let itemMap ← lift (buildManifestItemMap (itemsOf s manifest.id))
  let received ← updates.foldlM
    (receiveItem ⟨now, actorId, manifest.id, warehouseId⟩ (itemMap.map Prod.fst)) itemMap
  saveManifest
    { manifest with status := (computeManifestStatus (received.map Prod.snd)).text }
  let manifest ← loadManifestById normalizedManifestId
  -- the items loaded with the manifest, not those added since
  let listed := itemMap.filterMap fun entry => received.lookup entry.1
  return readManifest manifest listed

/-- The path a response is stored under. -/
def receivePath (normalizedManifestId : String) : String :=
  s!"/manifests/{normalizedManifestId}/receive"

/-- `receive_manifest` -/
def receiveManifest (c : Caller) (manifestId : String) (receiveData : ManifestReceiveRequest) :
    ManifestTx ManifestRead := do
  let normalizedManifestId ← lift (normalizeManifestId manifestId)
  let serials ← lift (assertUniqueManifestItemUpdates receiveData)
  let warehouseId ← onFleet (resolveIntakeWarehouseId receiveData.warehouseId)
  let updates ← lift (normalizeUpdates 0 (serials.zip receiveData.items))
  answered c (receivePath normalizedManifestId) <|
    receiveRows c.now c.userId warehouseId normalizedManifestId updates

/-- `process_manifest`, past the check of the id. -/
def processRows (normalizedManifestId : String) : ManifestTx ManifestRead := do
  let manifest ← loadManifestById normalizedManifestId
  let currentStatus ← lift (normalizeManifestStatus manifest.status "manifest.status")
  let manifest := { manifest with status := currentStatus.text }
  saveManifest manifest
  let s ← look
  let items := itemsOf s manifest.id
  if currentStatus = .processed then return readManifest manifest items
  ensure (currentStatus = .received) <| .http 409 <|
    s!"Manifest '{manifest.id}' must be 'Received' before processing. " ++
      s!"Current status: '{currentStatus.text}'."
  ensure (¬ ∃ item ∈ items, item.status = "pending" ∨ item.status = "missing") <| .http 409 <|
    s!"Manifest '{manifest.id}' still has pending or missing items. " ++
      "Resolve receipt discrepancies before marking as Processed."
  let manifest := { manifest with status := ManifestStatus.processed.text }
  saveManifest manifest
  let manifest ← loadManifestById normalizedManifestId
  return readManifest manifest items

/-- `process_manifest` -/
def processManifest (c : Caller) (manifestId : String) : ManifestTx ManifestRead := do
  let normalizedManifestId ← lift (normalizeManifestId manifestId)
  answered c s!"/manifests/{normalizedManifestId}/process" (processRows normalizedManifestId)

end

end WezuBackend.Manifests.Service
