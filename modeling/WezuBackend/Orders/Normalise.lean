import WezuBackend.Fleet.Consistency

/-!
# What the order endpoints make of their input

Statuses come in many spellings, and every decision is taken on the canonical one
(`canonicalOrderStatus`).  The other definitions check and normalise the columns of a new order, in
the order of `app/api/v1/orders.py`.
-/

namespace WezuBackend.Orders.Normalise

open Core.Base Core.Text Core.Letters Fleet.Model Fleet.Consistency

/-! ## Statuses -/

def validOrderStatuses : List String :=
  ["cancelled", "delivered", "failed", "in_transit", "pending"]

/-- The canonical status of a spelling without separators. -/
def statusMapping : List (String × String) :=
  [("pending", "pending"), ("assigned", "pending"), ("new", "pending"),
    ("intransit", "in_transit"), ("inprogress", "in_transit"), ("outfordelivery", "in_transit"),
    ("dispatched", "in_transit"), ("delivered", "delivered"), ("completed", "delivered"),
    ("complete", "delivered"), ("done", "delivered"), ("failed", "failed"), ("failure", "failed"),
    ("deliveryfailed", "failed"), ("cancelled", "cancelled"), ("canceled", "cancelled"),
    ("cancelledorder", "cancelled"), ("canceledorder", "cancelled")]

/-- `replace("_", "")`. -/
def compacted (text : String) : String := String.ofList (text.toList.filter (· ≠ '_'))

@[irreducible] def canonicalOrderStatus (rawStatus : String) : String :=
  let normalized := lower (underscored (strip rawStatus))
  (statusMapping.lookup (compacted normalized)).getD normalized

/-- `c` in lower case, a separator as an underscore. -/
def plain (c : Char) : Char := (if c = '-' ∨ c = ' ' then '_' else c).toLower

theorem lower_underscored (text : String) :
    lower (underscored text) = String.ofList (text.toList.map plain) := by
  unfold lower underscored
  rw [String.toList_ofList, List.map_map]
  rfl

theorem plain_plain (c : Char) : plain (plain c) = plain c := by
  have hdash : plain c ≠ '-' := by
    intro h
    have hc := eq_of_toLower h (by decide)
    split_ifs at hc with hsep
    · exact absurd hc (by decide)
    · exact hsep (.inl hc)
  have hblank : plain c ≠ ' ' := by
    intro h
    have hc := eq_of_toLower h (by decide)
    split_ifs at hc with hsep
    · exact absurd hc (by decide)
    · exact hsep (.inr hc)
  show (if plain c = '-' ∨ plain c = ' ' then '_' else plain c).toLower = plain c
  rw [if_neg (by tauto)]
  exact toLower_toLower _

theorem isSpace_plain {c : Char} (h : isSpace c = false) : isSpace (plain c) = false := by
  unfold plain
  rw [isSpace_toLower]
  split_ifs
  · decide
  · exact h

theorem lower_underscored_strip (raw : String) :
    lower (underscored (strip (lower (underscored (strip raw))))) =
      lower (underscored (strip raw)) := by
  rw [lower_underscored (strip raw)]
  have hdrop : (strip raw).toList.dropWhile isSpace = (strip raw).toList := by
    unfold strip
    rw [String.toList_ofList]
    exact dropWhile_rstrip _
  have hstrip : rstrip (strip raw).toList = (strip raw).toList := by
    unfold strip
    rw [String.toList_ofList]
    exact List.rdropWhile_idempotent isSpace _
  generalize (strip raw).toList = cs at hdrop hstrip
  have hfixed : strip (String.ofList (cs.map plain)) = String.ofList (cs.map plain) := by
    unfold strip
    rw [String.toList_ofList, dropWhile_map_of_fixed (fun c h => isSpace_plain h) hdrop,
      rstrip_map_of_fixed (fun c h => isSpace_plain h) hstrip]
  rw [hfixed, lower_underscored, String.toList_ofList, List.map_map]
  refine congrArg String.ofList (List.map_congr_left fun c _ => ?_)
  exact plain_plain c

theorem canonical_canonical (raw : String) :
    canonicalOrderStatus (canonicalOrderStatus raw) = canonicalOrderStatus raw := by
  have hmapped : ∀ p ∈ statusMapping, canonicalOrderStatus p.2 = p.2 := by decide +kernel
  have heq : ∀ text, canonicalOrderStatus text =
      (statusMapping.lookup (compacted (lower (underscored (strip text))))).getD
        (lower (underscored (strip text))) := fun text => by
    unfold canonicalOrderStatus
    rfl
  rw [heq raw]
  rcases hlookup :
    statusMapping.lookup (compacted (lower (underscored (strip raw)))) with _ | status
  · rw [Option.getD_none, heq, lower_underscored_strip, hlookup, Option.getD_none]
  · rw [Option.getD_some]
    obtain ⟨p, hp, rfl⟩ : ∃ p ∈ statusMapping, p.2 = status := by
      rw [List.lookup_eq_some_iff] at hlookup
      obtain ⟨l, l', hl, -⟩ := hlookup
      refine ⟨_, hl ▸ List.mem_append_right l List.mem_cons_self, rfl⟩
    exact hmapped p hp

/-- `VALID_TRANSITIONS`, each set sorted. -/
def validTransitions (status : String) : List String :=
  if status = "pending" then ["cancelled", "in_transit"]
  else if status = "in_transit" then ["cancelled", "delivered", "failed"]
  else if status = "failed" then ["pending"]
  else []

def activeDriverOrderStatusesDb : List String :=
  ["pending", "assigned", "new", "in_transit", "in-transit", "in transit", "in_progress",
    "in-progress", "in progress", "out_for_delivery", "out-for-delivery", "out for delivery",
    "intransit", "inprogress", "outfordelivery", "dispatched"]

def terminalStatuses : List String := ["delivered", "failed", "cancelled"]

def validateStatusTransition (order : Order) (newStatus : String) : Except Exc Unit :=
  let currentStatus := canonicalOrderStatus order.status
  let targetStatus := canonicalOrderStatus newStatus
  let allowed := validTransitions currentStatus
  if targetStatus ∉ validOrderStatuses then
    .error (.http 400 s!"Invalid status. Must be one of: {listText validOrderStatuses}")
  else if targetStatus ∉ allowed then
    .error (.http 400 (s!"Cannot transition from '{currentStatus}' to '{targetStatus}'. " ++
      s!"Allowed: {listText allowed}"))
  else .ok ()

/-! ## Drivers -/

def canonicalDriverStatus (rawStatus : Option String) : String :=
  let status := strip (rawStatus.getD "")
  let statusMap := [("available", "available"), ("onroute", "onRoute"), ("busy", "busy"),
    ("offline", "offline"), ("breaktime", "break_time")]
  (statusMap.lookup (lower (compacted (underscored status)))).getD status

/-- A driver reference as it comes in a query or a body. -/
inductive DriverToken where
  | bool
  | text (value : String)

def normalizeDriverLookupToken (raw : DriverToken) : Except Exc String :=
  match raw with
  | .bool => .error (.http 422 "driver_id must be a string or number")
  | .text value =>
    if strip value = "" then .error (.http 422 "driver_id must not be empty") else .ok (strip value)

/-- `_extract_driver_reference`, of the references that the query and the body give, in order. -/
def extractDriverReference (candidates : List DriverToken) : Except Exc String := do
  let values ← candidates.mapM normalizeDriverLookupToken
  match values with
  | [] => throw (.http 422
      "driver_id is required in query or JSON body (driver_id / assigned_driver_id)")
  | value :: rest =>
    if ∃ other ∈ rest, other ≠ value then
      throw (.http 422 "Conflicting driver_id values provided in query/body")
    return value

def int32Max : ℕ := 2147483647

/-- The number that a text of digits spells. -/
def digitsValue (digits : List Char) : ℕ :=
  digits.foldl (fun n c => 10 * n + (c.toNat - '0'.toNat)) 0

def parseInt32IdCandidate (rawDriverId : String) : Option ℕ :=
  let cs := (strip rawDriverId).toList
  let cs :=
    if (cs.take 2).map Char.toUpper = ['D', '-'] then (strip (String.ofList (cs.drop 2))).toList
    else cs
  if cs ≠ [] ∧ cs.all Char.isDigit ∧ 1 ≤ digitsValue cs ∧ digitsValue cs ≤ int32Max then
    some (digitsValue cs)
  else none

def phoneCandidates (rawPhone : Option String) : List String :=
  match truthy rawPhone with
  | none => []
  | some raw =>
    let stripped := strip raw
    let digits := stripped.toList.filter Char.isDigit
    let lastTen := digits.drop (digits.length - 10)
    let candidates := [stripped, String.ofList digits] ++
      (if digits ≠ [] then [String.ofList ('+' :: digits)] else []) ++
      (if 10 ≤ digits.length then [String.ofList lastTen, "+91" ++ String.ofList lastTen] else [])
    candidates.filter (· ≠ "")

/-! ## The columns of a new order -/

def normalizeCustomerPhone (rawPhone : Option String) : Except Exc (Option String) :=
  match rawPhone with
  | none => .ok none
  | some raw =>
    let cleaned := raw.toList.filter Char.isDigit
    if cleaned = [] then .error (.http 400 "customer_phone must contain digits")
    else if cleaned.length < 10 ∨ 15 < cleaned.length then
      .error (.http 400 "customer_phone must have between 10 and 15 digits")
    else .ok (some (String.ofList cleaned))

def normalizeDestination (rawDestination : String) : Except Exc String :=
  let destination := strip rawDestination
  if destination = "" then .error (.http 400 "destination is required")
  else if 255 < destination.length then
    .error (.http 400 "destination must be 255 characters or fewer")
  else .ok destination

def normalizeCustomerName (rawCustomerName : Option String) : Except Exc String :=
  let customerName := strip ((truthy rawCustomerName).getD "Walk-in Customer")
  if customerName = "" then .error (.http 400 "customer_name is required")
  else if 120 < customerName.length then
    .error (.http 400 "customer_name must be 120 characters or fewer")
  else .ok customerName

def normalizeOrderNotes (rawNotes : Option String) : Except Exc (Option String) :=
  let notes := strip (rawNotes.getD "")
  if notes = "" then .ok none
  else if 2000 < notes.length then .error (.http 400 "notes must be 2000 characters or fewer")
  else .ok (some notes)

def startsWithAny (prefixes : List String) (text : String) : Bool :=
  prefixes.any fun p => p.toList.isPrefixOf text.toList

def normalizePodMediaUrl (rawUrl : Option String) (fieldName : String) (required : Bool := false) :
    Except Exc (Option String) :=
  let value := strip (rawUrl.getD "")
  let lowered := lower value
  if value = "" then
    if required then .error (.http 400 s!"{fieldName} is required for proof of delivery")
    else .ok none
  else if startsWithAny ["file://", "content://", "blob:", "data:"] lowered then
    .error (.http 400 (s!"{fieldName} must be a backend-hosted or HTTPS URL. " ++
      "Local/device URIs are not allowed."))
  else if startsWithAny ["uploads/"] value then .ok (some ("/" ++ value))
  else if startsWithAny ["/"] value then .ok (some value)
  else if startsWithAny ["http://", "https://"] lowered then .ok (some value)
  else .error (.http 400 (s!"{fieldName} must be an absolute path (e.g., /uploads/...) " ++
    "or a full HTTPS URL."))

def normalizeOrderPriority (rawPriority : Option String) : Except Exc String :=
  let priority := lower (strip ((truthy rawPriority).getD "normal"))
  if priority ∈ ["low", "normal", "urgent"] then .ok priority
  else .error (.http 400 ("Invalid priority '" ++ rawPriority.getD "None" ++ "'. " ++
    "Allowed: ['low', 'normal', 'urgent']"))

/-- A `Numeric(12, 2)` column, in hundredths: rounded half up. -/
def numeric122 (value : ℚ) : ℤ := (value * 100 + 1 / 2).num / (value * 100 + 1 / 2).den

def normalizeTotalValue (rawTotalValue : Option ℚ) : Except Exc ℚ :=
  let normalized := rawTotalValue.getD 0
  if normalized < 0 then .error (.http 400 "total_value cannot be negative") else .ok normalized

def normalizeOrderCoordinates (latitude longitude : Option ℚ) :
    Except Exc (Option ℚ × Option ℚ) :=
  if latitude.isNone ≠ longitude.isNone then
    .error (.http 400 "latitude and longitude must be provided together")
  else if ∃ x ∈ latitude, ¬ (-90 ≤ x ∧ x ≤ 90) then
    .error (.http 400 "latitude must be between -90 and 90")
  else if ∃ x ∈ longitude, ¬ (-180 ≤ x ∧ x ≤ 180) then
    .error (.http 400 "longitude must be between -180 and 180")
  else .ok (latitude, longitude)

def normalizeTrackingNumber [Casing] (rawTrackingNumber : Option String) (orderId : String) :
    Except Exc String :=
  let trackingNumber := normal (rawTrackingNumber.getD "")
  if trackingNumber = "" then .ok s!"TRK-{orderId}"
  else if 64 < trackingNumber.length then
    .error (.http 400 "tracking_number must be 64 characters or fewer")
  else .ok trackingNumber

example : canonicalOrderStatus " Out-for Delivery" = "in_transit" := by decide +kernel

example : canonicalOrderStatus "On Hold" = "on_hold" := by decide +kernel

example : parseInt32IdCandidate "d-17" = some 17 := by decide

end WezuBackend.Orders.Normalise
