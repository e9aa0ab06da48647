import WezuBackend.Core.Unicode
import WezuBackend.Fleet.Serials
import WezuBackend.Streams.Events
import Mathlib.Data.Bool.AllAny

/-!
# QR codes of batteries

`app/services/qr_service.py`: the two values that a battery's code can hold, and what a scanned
value is taken for: a signed token, a deep link, a stored code, a reference (an id or a serial), in
this order.
-/

namespace WezuBackend.Fleet.QrCodes

open Lib.Tables Lib.Results Core.Base Core.Text
open Core.Letters Core.Unicode Fleet.Consistency
open Fleet.Transitions (normalizeBatterySerial_ok)
open Streams.Events (Json)

/-! ## The inventory -/

/-- A row of `batteries`: what its code is made of. -/
structure Battery where
  id : ℕ
  serialNumber : String
  qrCodeData : Option String
  deriving DecidableEq, Repr

instance : Row Battery ℕ := ⟨Battery.id⟩

/-- The batteries; no two have one serial, up to letter case, or one stored code. -/
structure Inventory [Casing] where
  batteries : Table Battery
  ids_pos : ∀ b ∈ batteries, 0 < b.id
  serials_unique : ∀ b ∈ batteries, ∀ b' ∈ batteries,
    sqlUpper b.serialNumber = sqlUpper b'.serialNumber → b = b'
  codes_unique : ∀ b ∈ batteries, ∀ b' ∈ batteries,
    b.qrCodeData ≠ none → b.qrCodeData = b'.qrCodeData → b = b'

/-! ## Libraries -/

/-- What the service relies on: `json` and `base64`, `hmac` with the signing key, `int` of a JSON
value, what `urlparse` accepts as a host, and the images of `qrcode`. -/
class Codes where
  /-- the payload of a battery's id and serial, encoded -/
  encode : ℕ → String → String
  /-- the payload of an encoded text, or `None` -/
  decode : String → Except Exc (Option Json)
  /-- the encoded signature -/
  signature : String → String
  /-- `int(value)`, unless it raises -/
  int : Json → Option ℤ
  refusesNetloc : String → Bool
  image : String → Except Exc String
  encode_alphabet : ∀ id serial, ∀ c ∈ (encode id serial).toList,
    c ≠ '.' ∧ isSpace c = false
  signature_alphabet : ∀ text, ∀ c ∈ (signature text).toList,
    c ≠ '.' ∧ isSpace c = false ∧ c.toNat < 128
  int_int : ∀ n, int (.int n) = some n

def payload (id : ℕ) (serial : String) : Json :=
  .dict [("bid", .int id), ("sn", .str serial), ("t", .str "battery"), ("v", .int 1)]

def ReadBack [Codes] (id : ℕ) (serial : String) : Prop :=
  Codes.decode (Codes.encode id serial) = .ok (some (payload id serial))

section

variable [Casing] [Characters] [Numerals] [Codes]

/-! ## The values of a code -/

def buildAppScanValue (serialNumber : String) : Except Exc String :=
  normalizeBatterySerial serialNumber "serial_number"

def tokenText (encoded : String) : String :=
  "WZB1" ++ "." ++ encoded ++ "." ++ Codes.signature encoded

def buildSignedScanValue (batteryId : ℕ) (serialNumber : String) : Except Exc String := do
  let serial ← normalizeBatterySerial serialNumber "serial_number"
  return tokenText (Codes.encode batteryId serial)

/-- The code, and the battery as it is left. -/
def ensureBatteryQrIdentity (battery : Battery) (force : Bool) : Except Exc (String × Battery) := do
  let serial ← normalizeBatterySerial battery.serialNumber "serial_number"
  match if force then none else truthy battery.qrCodeData with
  | some code => return (code, { battery with serialNumber := serial })
  | none =>
    let token ← buildSignedScanValue battery.id serial
    return (token, { battery with serialNumber := serial, qrCodeData := some token })

structure Bundle where
  batteryId : ℕ
  serialNumber : String
  mode : String
  scanValue : String
  appScanValue : String
  secureScanValue : String
  qrCodeBase64 : String
  qrCodeDataUri : String
  contentType : String

def buildQrBundle (battery : Battery) (mode : String) : Except Exc (Bundle × Battery) := do
  let serial ← normalizeBatterySerial battery.serialNumber "serial_number"
  let app ← buildAppScanValue serial
  let (secure, saved) ← ensureBatteryQrIdentity battery false
  let mode := lowered (strip mode)
  let selectedMode := if mode ∈ ["app", "secure"] then mode else "app"
  let selected := if selectedMode = "app" then app else secure
  let image ← Codes.image selected
  return (⟨battery.id, serial, selectedMode, selected, app, secure, image,
    "data:image/png;base64," ++ image, "image/png"⟩, saved)

/-! ## Signed tokens -/

structure SignedPayload where
  batteryId : ℤ
  serialNumber : String

/-- The checks of a payload; whatever they raise is caught. -/
def readPayload : Json → Option SignedPayload
  | .dict entries =>
    let get (key : String) : Json := (entries.lookup key).getD .null
    match Codes.int (get "v"), get "t", Codes.int (get "bid"), get "sn" with
    | some 1, .str "battery", some batteryId, .str sn =>
      if batteryId ≤ 0 then none
      else
        match normalizeBatterySerial sn "sn" with
        | .ok serial => some ⟨batteryId, serial⟩
        | .error _ => none
    | _, _, _, _ => none
  | _ => none

/-- `hmac.compare_digest` of texts. -/
def compareDigest (a b : String) : Except Exc Bool :=
  if (a.toList ++ b.toList).all (fun c => c.toNat < 128) then .ok (a = b) else .error .typeError

def parseSignedScanValue (token : String) : Except Exc (Option SignedPayload) :=
  match (token.toList.splitOn '.').map String.ofList with
  | ["WZB1", encoded, signature] => do
    if ← compareDigest signature (Codes.signature encoded) then
      return (← Codes.decode encoded).bind readPayload
    else return none
  | _ => return none

/-! ## Deep links -/

def isSchemeChar (c : Char) : Bool := c.isAlphanum ∨ c = '+' ∨ c = '-' ∨ c = '.'

/-- The scheme of a URL, in lower case, and the rest. -/
def splitScheme (cs : List Char) : String × List Char :=
  let scheme := cs.takeWhile (· ≠ ':')
  if ':' ∈ cs ∧ (scheme.head?.any Char.isAlpha) ∧ scheme.all isSchemeChar then
    (lower (String.ofList scheme), (cs.dropWhile (· ≠ ':')).tail)
  else ("", cs)

structure ParsedUrl where
  scheme : String
  netloc : String
  path : String

/-- `urllib.parse.urlparse`, as far as it is looked at. -/
def urlparse (url : String) : Except Exc ParsedUrl :=
  let cs := (url.toList.dropWhile (·.toNat ≤ 32)).filter (· ∉ ['\t', '\r', '\n'])
  let (scheme, rest) := splitScheme cs
  let inPath (c : Char) : Bool := c ≠ '#' ∧ c ≠ '?'
  match rest with
  | '/' :: '/' :: rest =>
    let netloc := String.ofList (rest.takeWhile fun c => c ≠ '/' ∧ inPath c)
    let rest := rest.dropWhile fun c => c ≠ '/' ∧ inPath c
    if Codes.refusesNetloc netloc then .error (.valueError "Invalid IPv6 URL")
    else .ok ⟨scheme, netloc, String.ofList (rest.takeWhile inPath)⟩
  | rest => .ok ⟨scheme, "", String.ofList (rest.takeWhile inPath)⟩

/-- `path.strip("/")` -/
def stripSlashes (path : String) : String :=
  String.ofList ((path.toList.dropWhile (· = '/')).rdropWhile (· = '/'))

def parseBatteryDeepLink (value : String) : Except Exc (Option String) := do
  let parsed ← urlparse value
  if lowered parsed.scheme ≠ "wezu" then return none
  if lowered parsed.netloc ≠ "battery" then return none
  return truthy (some (stripSlashes parsed.path))

/-! ## Resolution -/

/-- `session.get(Battery, n)` -/
def getBattery (inv : Inventory) (n : ℤ) : Option Battery :=
  inv.batteries.find? fun b => (b.id : ℤ) = n

/-- `value.isdigit()` -/
def isDigits (value : String) : Bool := value ≠ "" ∧ value.toList.all isdigit

/-- The battery of a numeric reference. -/
def byNumber (inv : Inventory) (value : String) : Except Exc (Option Battery) :=
  if isDigits value then do
    let n ← intOf value
    return getBattery inv n
  else return none

def bySerial (inv : Inventory) (value : String) : Option Battery :=
  match normalizeBatterySerial value "reference" with
  | .error _ => none
  | .ok serial =>
    match inv.batteries.filter fun b => sqlUpper b.serialNumber = serial with
    | [b] => some b
    | _ => none

def resolveByReference (inv : Inventory) (reference : String) : Except Exc (Option Battery) :=
  let value := strip reference
  if value = "" then return none
  else do
    match ← byNumber inv value with
    | some b => return some b
    | none => return bySerial inv value

def ofPayload (inv : Inventory) (signed : SignedPayload) : Except Exc (Option Battery) :=
  match getBattery inv signed.batteryId with
  | none => return none
  | some b => do
    let serial ← normalizeBatterySerial b.serialNumber "serial_number"
    return if serial = signed.serialNumber then some b else none

def ifParsed {α β : Type} (parsed : Except Exc (Option α)) (look : α → Except Exc (Option β)) :
    Except Exc (Option β) := do
  match ← parsed with
  | none => return none
  | some a => look a

def bySignedToken (inv : Inventory) (value : String) : Except Exc (Option Battery) :=
  ifParsed (parseSignedScanValue value) (ofPayload inv)

def byDeepLink (inv : Inventory) (value : String) : Except Exc (Option Battery) :=
  ifParsed (parseBatteryDeepLink value) (resolveByReference inv)

structure ResolvedBatteryQR where
  battery : Battery
  source : String
  rawValue : String

/-- What a look-up finds is returned with its source, else the next one is made. -/
def foundBy (source raw : String) (look : Except Exc (Option Battery))
    (next : Except Exc (Option ResolvedBatteryQR)) : Except Exc (Option ResolvedBatteryQR) := do
  match ← look with
  | some battery => return some ⟨battery, source, raw⟩
  | none => next

def resolveScannedValue (inv : Inventory) (scannedValue : String) :
    Except Exc (Option ResolvedBatteryQR) :=
  let raw := strip scannedValue
  if raw = "" then .ok none
  else
    foundBy "signed_token" raw (bySignedToken inv raw) <|
    foundBy "deep_link" raw (byDeepLink inv raw) <|
    foundBy "stored_qr" raw (.ok (inv.batteries.find? fun b => b.qrCodeData = some raw)) <|
    foundBy "reference" raw (resolveByReference inv raw) (.ok none)

/-! ## What a value is taken for -/

/-- A reference can be read as a number if it consists of digits. -/
def Readable (value : String) : Prop := isDigits value → ∃ n, intOf value = .ok n

def Numbers (value : String) (b : Battery) : Prop := isDigits value ∧ intOf value = .ok (b.id : ℤ)

/-- The reference is to the battery: ids come before serials. -/
def RefersTo (inv : Inventory) (value : String) (b : Battery) : Prop :=
  b ∈ inv.batteries ∧ value ≠ "" ∧ (Numbers value b ∨
    (∀ b' ∈ inv.batteries, ¬ Numbers value b') ∧ normal value ≠ "" ∧
      sqlUpper b.serialNumber = normal value)

/-- The token is that of the battery's id and serial. -/
def SignedFor (inv : Inventory) (value : String) (b : Battery) : Prop :=
  b ∈ inv.batteries ∧ ∃ signed, parseSignedScanValue value = .ok (some signed) ∧
    (b.id : ℤ) = signed.batteryId ∧ normal b.serialNumber = signed.serialNumber

/-- The token can be checked: its signature is ASCII, and its battery, if there is one, has a
serial. -/
def Checkable (inv : Inventory) (value : String) : Prop :=
  ∃ signed, parseSignedScanValue value = .ok signed ∧ ∀ p ∈ signed, ∀ b ∈ inv.batteries,
    (b.id : ℤ) = p.batteryId → normal b.serialNumber ≠ ""

def LinksTo (inv : Inventory) (value : String) (b : Battery) : Prop :=
  ∃ reference, parseBatteryDeepLink value = .ok (some reference) ∧ RefersTo inv (strip reference) b

/-- The value can be read as a URL, and if it is a deep link, what it links to can be read. -/
def Followable (value : String) : Prop :=
  ∃ link, parseBatteryDeepLink value = .ok link ∧ ∀ reference ∈ link, Readable (strip reference)

def StoredFor (inv : Inventory) (value : String) (b : Battery) : Prop :=
  b ∈ inv.batteries ∧ b.qrCodeData = some value

/-- Nothing that comes before the first meaning that leads to the battery leads to another one. -/
structure Uncaught (inv : Inventory) (b : Battery) (value : String) : Prop where
  signed : Checkable inv value ∧ ∀ other, SignedFor inv value other → other = b
  linked : ¬ SignedFor inv value b →
    Followable value ∧ ∀ other, LinksTo inv value other → other = b
  stored : ¬ SignedFor inv value b → ¬ LinksTo inv value b →
    ∀ other, StoredFor inv value other → other = b
  referred : ¬ SignedFor inv value b → ¬ LinksTo inv value b → ¬ StoredFor inv value b →
    Readable value ∧ RefersTo inv value b

def IsBattery (b : Battery) (outcome : Except Exc (Option ResolvedBatteryQR)) : Prop :=
  ∃ resolved, outcome = .ok (some resolved) ∧ resolved.battery = b

def ResolvesTo (inv : Inventory) (value : String) (b : Battery) : Prop :=
  IsBattery b (resolveScannedValue inv value)

/-- Both values that the battery's code can hold do. -/
def ScanValuesResolve (inv : Inventory) (b : Battery) : Prop :=
  ∀ app secure saved, buildAppScanValue b.serialNumber = .ok app →
    ensureBatteryQrIdentity b false = .ok (secure, saved) →
    ResolvesTo inv app b ∧ ResolvesTo inv secure b

/-! ## One meaning after the other -/

/-- A look-up that may raise: it returns if `C`, and then whatever `R` holds of. -/
structure Reads {β : Type} (x : Except Exc (Option β)) (C : Prop) (R : β → Prop) : Prop where
  ok : ∀ o, x = .ok o → C ∧ ∀ b, o = some b ↔ R b
  returns : C → ∃ o, x = .ok o

omit [Casing] [Characters] [Numerals] [Codes] in
theorem isBattery_foundBy {look : Except Exc (Option Battery)} {C : Prop} {R : Battery → Prop}
    (h : Reads look C R) (b : Battery) (source raw : String)
    (next : Except Exc (Option ResolvedBatteryQR)) :
    IsBattery b (foundBy source raw look next) ↔
      C ∧ (∀ other, R other → other = b) ∧ (¬ R b → IsBattery b next) := by
  constructor
  · rintro ⟨resolved, hresolved, rfl⟩
    obtain ⟨o, hlook, ho⟩ := except_bind_ok.mp hresolved
    obtain ⟨hC, hR⟩ := h.ok o hlook
    cases o with
    | some hit =>
      obtain rfl : ⟨hit, source, raw⟩ = resolved := Option.some.inj (Except.ok.inj ho)
      have hhit := (hR hit).mp rfl
      exact ⟨hC, fun other hother => (Option.some.inj ((hR other).mpr hother)).symm,
        fun hnot => absurd hhit hnot⟩
    | none =>
      exact ⟨hC, fun other hother => absurd ((hR other).mpr hother) nofun,
        fun _ => ⟨resolved, ho, rfl⟩⟩
  · rintro ⟨hC, hother, hnext⟩
    obtain ⟨o, hlook⟩ := h.returns hC
    obtain ⟨-, hR⟩ := h.ok o hlook
    cases o with
    | some hit =>
      refine ⟨⟨hit, source, raw⟩, ?_, hother hit ((hR hit).mp rfl)⟩
      rw [hlook, foundBy]
      rfl
    | none =>
      have hb : ¬ R b := fun hb => absurd ((hR b).mpr hb) nofun
      rw [hlook]
      exact hnext hb

variable {b : Battery} {inv : Inventory}

omit [Characters] [Numerals] [Codes] in
theorem getBattery_eq_some {n : ℤ} :
    getBattery inv n = some b ↔ b ∈ inv.batteries ∧ (b.id : ℤ) = n := by
  constructor
  · intro h
    exact ⟨Table.find?_mem h, by simpa using Table.find?_prop h⟩
  · rintro ⟨hb, hid⟩
    cases hget : getBattery inv n with
    | none =>
      have hne := Table.find?_eq_none.mp hget b hb
      simp [hid] at hne
    | some b' =>
      have hid' : (b'.id : ℤ) = n := by simpa using Table.find?_prop hget
      have hkey : b'.id = b.id := by omega
      rw [Table.eq_of_key (Table.find?_mem hget) hb hkey]

omit [Codes] in
theorem reads_byNumber (inv : Inventory) (value : String) :
    Reads (byNumber inv value) (Readable value)
      fun b => b ∈ inv.batteries ∧ Numbers value b := by
  unfold byNumber Readable Numbers
  by_cases hdigits : isDigits value = true
  · simp only [hdigits, if_true]
    cases hint : intOf value with
    | error e => exact ⟨fun o ho => absurd ho nofun, fun hC => by simp at hC⟩
    | ok n =>
      refine ⟨fun o ho => ⟨fun _ => ⟨n, rfl⟩, fun b => ?_⟩, fun _ => ⟨_, rfl⟩⟩
      have ho' : getBattery inv n = o := Except.ok.inj ho
      rw [← ho', getBattery_eq_some]
      simp [eq_comm]
  · simp only [hdigits]
    refine ⟨fun o ho => ⟨nofun, fun b => ?_⟩, fun _ => ⟨none, rfl⟩⟩
    have ho' : none = o := Except.ok.inj ho
    simp [← ho']

variable {value : String}

omit [Characters] [Numerals] [Codes] in
theorem bySerial_eq_some :
    bySerial inv value = some b ↔
      b ∈ inv.batteries ∧ normal value ≠ "" ∧ sqlUpper b.serialNumber = normal value := by
  unfold bySerial
  by_cases hempty : normal value = ""
  · rw [normalizeBatterySerial, if_pos hempty]
    simp [hempty]
  · rw [normalizeBatterySerial, if_neg hempty]
    have hmem : ∀ x, x ∈ inv.batteries.filter
        (fun b => decide (sqlUpper b.serialNumber = normal value)) ↔
          x ∈ inv.batteries ∧ sqlUpper x.serialNumber = normal value := fun x => by
      rw [Table.mem_filter, decide_eq_true_eq]
    have hone := Table.length_filter_le_one (t := inv.batteries)
      (p := fun b => decide (sqlUpper b.serialNumber = normal value)) fun x hx y hy hpx hpy =>
        inv.serials_unique x hx y hy
          ((of_decide_eq_true hpx).trans (of_decide_eq_true hpy).symm)
    obtain ⟨rows, hrows⟩ : ∃ rows, inv.batteries.filter
      (fun b => decide (sqlUpper b.serialNumber = normal value)) = rows := ⟨_, rfl⟩
    rw [hrows] at hmem hone
    simp only [hrows]
    rcases rows with _ | ⟨found, _ | ⟨other, rest⟩⟩
    · refine ⟨nofun, fun ⟨hb, _, hserial⟩ => ?_⟩
      exact absurd ((hmem b).mpr ⟨hb, hserial⟩) List.not_mem_nil
    · constructor
      · intro h
        obtain rfl := Option.some.inj h
        obtain ⟨hb, hserial⟩ := (hmem found).mp (List.mem_singleton.mpr rfl)
        exact ⟨hb, hempty, hserial⟩
      · rintro ⟨hb, -, hserial⟩
        have hbf : b = found := List.mem_singleton.mp ((hmem b).mpr ⟨hb, hserial⟩)
        exact congrArg some hbf.symm
    · simp at hone

omit [Codes] in
theorem reads_resolveByReference (inv : Inventory) (reference : String) :
    Reads (resolveByReference inv reference) (Readable (strip reference))
      (RefersTo inv (strip reference)) := by
  unfold resolveByReference
  dsimp only
  by_cases hempty : strip reference = ""
  · rw [if_pos hempty]
    refine ⟨fun o ho => ⟨fun hdigits => ?_, fun b => ?_⟩, fun _ => ⟨none, rfl⟩⟩
    · simp [hempty, isDigits] at hdigits
    · have ho' : none = o := Except.ok.inj ho
      simp [← ho', RefersTo, hempty]
  · rw [if_neg hempty]
    have hnumber := reads_byNumber inv (strip reference)
    refine ⟨fun o ho => ?_, fun hread => ?_⟩
    · obtain ⟨found, hfound, ho⟩ := except_bind_ok.mp ho
      obtain ⟨hread, hR⟩ := hnumber.ok found hfound
      refine ⟨hread, fun b => ?_⟩
      cases found with
      | some n =>
        obtain ⟨hn, hnn⟩ := (hR n).mp rfl
        have ho' : some n = o := Except.ok.inj ho
        rw [← ho', Option.some.injEq]
        constructor
        · rintro rfl
          exact ⟨hn, hempty, .inl hnn⟩
        · rintro ⟨hb, -, hnb | ⟨hnone, -⟩⟩
          · exact Option.some.inj ((hR b).mpr ⟨hb, hnb⟩)
          · exact absurd hnn (hnone n hn)
      | none =>
        have hnone : ∀ b' ∈ inv.batteries, ¬ Numbers (strip reference) b' := fun b' hb' hn =>
          absurd ((hR b').mpr ⟨hb', hn⟩) nofun
        have ho' : bySerial inv (strip reference) = o := Except.ok.inj ho
        rw [← ho', bySerial_eq_some]
        constructor
        · rintro ⟨hb, hne, hserial⟩
          exact ⟨hb, hempty, .inr ⟨hnone, hne, hserial⟩⟩
        · rintro ⟨hb, -, hn | ⟨-, hne, hserial⟩⟩
          · exact absurd hn (hnone b hb)
          · exact ⟨hb, hne, hserial⟩
    · obtain ⟨found, hfound⟩ := hnumber.returns hread
      cases found with
      | some n => exact ⟨some n, by rw [hfound]; rfl⟩
      | none => exact ⟨_, by rw [hfound]; rfl⟩

omit [Characters] [Numerals] [Codes] in
theorem reads_ofPayload (inv : Inventory) (signed : SignedPayload) :
    Reads (ofPayload inv signed)
      (∀ b ∈ inv.batteries, (b.id : ℤ) = signed.batteryId → normal b.serialNumber ≠ "")
      (fun b => b ∈ inv.batteries ∧ (b.id : ℤ) = signed.batteryId ∧
        normal b.serialNumber = signed.serialNumber) := by
  unfold ofPayload
  cases hget : getBattery inv signed.batteryId with
  | none =>
    have hnone : ∀ b ∈ inv.batteries, (b.id : ℤ) ≠ signed.batteryId := fun b hb hid =>
      absurd (getBattery_eq_some.mpr ⟨hb, hid⟩) (by rw [hget]; nofun)
    refine ⟨fun o ho => ⟨fun b hb hid => absurd hid (hnone b hb), fun b => ?_⟩,
      fun _ => ⟨none, rfl⟩⟩
    obtain rfl : none = o := Except.ok.inj ho
    exact ⟨nofun, fun h => absurd h.2.1 (hnone b h.1)⟩
  | some found =>
    obtain ⟨hfound, hid⟩ := getBattery_eq_some.mp hget
    have hunique : ∀ b ∈ inv.batteries, (b.id : ℤ) = signed.batteryId → b = found := by
      intro b hb hb'
      have hkey : b.id = found.id := by omega
      exact Table.eq_of_key hb hfound hkey
    dsimp only
    refine ⟨fun o ho => ?_, fun hall => ?_⟩
    · obtain ⟨serial, hserial, ho⟩ := except_bind_ok.mp ho
      obtain ⟨hne, hnormal⟩ := normalizeBatterySerial_ok.mp hserial
      have ho' : (if serial = signed.serialNumber then some found else none) = o :=
        Except.ok.inj ho
      refine ⟨fun b hb hb' => hunique b hb hb' ▸ hne, fun b => ?_⟩
      rw [← ho', ← hnormal]
      constructor
      · intro h
        split_ifs at h with hs
        obtain rfl := Option.some.inj h
        exact ⟨hfound, hid, hs⟩
      · rintro ⟨hb, hb', hs⟩
        obtain rfl := hunique b hb hb'
        exact if_pos hs
    · have hserial : normalizeBatterySerial found.serialNumber "serial_number" =
          .ok (normal found.serialNumber) :=
        normalizeBatterySerial_ok.mpr ⟨hall found hfound hid, rfl⟩
      exact ⟨_, by rw [hserial]; rfl⟩

omit [Casing] [Characters] [Numerals] [Codes] in
/-- A look-up for what was parsed before, if anything was. -/
theorem Reads.after {α β : Type} {x : Except Exc (Option α)} {f : α → Except Exc (Option β)}
    {C : α → Prop} {R : α → β → Prop} (h : ∀ a, Reads (f a) (C a) (R a)) :
    Reads (ifParsed x f) (∃ parsed, x = .ok parsed ∧ ∀ a ∈ parsed, C a)
      (fun b => ∃ a, x = .ok (some a) ∧ R a b) := by
  cases x with
  | error e => exact ⟨fun o ho => absurd ho nofun, fun ⟨_, hp, _⟩ => absurd hp nofun⟩
  | ok parsed =>
    cases parsed with
    | none =>
      refine ⟨fun o ho => ⟨⟨none, rfl, nofun⟩, fun b => ?_⟩, fun _ => ⟨none, rfl⟩⟩
      obtain rfl : none = o := Except.ok.inj ho
      exact ⟨nofun, fun ⟨_, ha, _⟩ => absurd (Except.ok.inj ha) nofun⟩
    | some a =>
      refine ⟨fun o ho => ?_, fun ⟨parsed, hparsed, hall⟩ => ?_⟩
      · obtain ⟨hC, hR⟩ := (h a).ok o ho
        refine ⟨⟨some a, rfl, fun a' ha' => Option.some.inj ha' ▸ hC⟩, fun b => ?_⟩
        rw [hR b]
        constructor
        · exact fun hb => ⟨a, rfl, hb⟩
        · rintro ⟨a', ha', hb⟩
          obtain rfl := Option.some.inj (Except.ok.inj ha')
          exact hb
      · obtain rfl := Except.ok.inj hparsed
        exact (h a).returns (hall a rfl)

omit [Characters] [Numerals] in
theorem reads_bySignedToken (inv : Inventory) (value : String) :
    Reads (bySignedToken inv value) (Checkable inv value) (SignedFor inv value) := by
  have h := Reads.after (x := parseSignedScanValue value) (reads_ofPayload inv)
  refine ⟨fun o ho => ?_, h.returns⟩
  obtain ⟨hC, hR⟩ := h.ok o ho
  refine ⟨hC, fun b => (hR b).trans ?_⟩
  constructor
  · rintro ⟨signed, hsigned, hb, hid, hserial⟩
    exact ⟨hb, signed, hsigned, hid, hserial⟩
  · rintro ⟨hb, signed, hsigned, hid, hserial⟩
    exact ⟨signed, hsigned, hb, hid, hserial⟩

theorem reads_byDeepLink (inv : Inventory) (value : String) :
    Reads (byDeepLink inv value) (Followable value) (LinksTo inv value) :=
  Reads.after (x := parseBatteryDeepLink value) (reads_resolveByReference inv)

omit [Characters] [Numerals] [Codes] in
theorem stored_eq_some :
    inv.batteries.find? (fun b => b.qrCodeData = some value) = some b ↔ StoredFor inv value b := by
  constructor
  · intro h
    exact ⟨Table.find?_mem h, by simpa using Table.find?_prop h⟩
  · rintro ⟨hb, hcode⟩
    cases hfind : inv.batteries.find? fun b => b.qrCodeData = some value with
    | none =>
      have hne := Table.find?_eq_none.mp hfind b hb
      simp [hcode] at hne
    | some found =>
      have hfound : found.qrCodeData = some value := by simpa using Table.find?_prop hfind
      rw [inv.codes_unique b hb found (Table.find?_mem hfind) (by rw [hcode]; nofun)
        (hcode.trans hfound.symm)]

theorem resolvesTo_iff :
    ResolvesTo inv value b ↔ strip value ≠ "" ∧ Uncaught inv b (strip value) := by
  unfold ResolvesTo resolveScannedValue
  dsimp only
  by_cases hempty : strip value = ""
  · rw [if_pos hempty]
    exact ⟨fun ⟨_, h, _⟩ => absurd (Except.ok.inj h) nofun, fun h => absurd hempty h.1⟩
  have hstored : Reads (.ok (inv.batteries.find? fun b => b.qrCodeData = some (strip value))) True
      (StoredFor inv (strip value)) :=
    ⟨fun o ho => ⟨trivial, fun b => by rw [← Except.ok.inj ho]; exact stored_eq_some⟩,
      fun _ => ⟨_, rfl⟩⟩
  have hreference := reads_resolveByReference inv (strip value)
  rw [strip_strip] at hreference
  have hlast : ¬ IsBattery b (.ok none) := fun ⟨_, h, _⟩ => absurd (Except.ok.inj h) nofun
  rw [if_neg hempty, isBattery_foundBy (reads_bySignedToken inv _),
    isBattery_foundBy (reads_byDeepLink inv _), isBattery_foundBy hstored,
    isBattery_foundBy hreference]
  constructor
  · rintro ⟨hC, hsigned, h⟩
    refine ⟨hempty, ⟨hC, hsigned⟩, fun hns => ⟨(h hns).1, (h hns).2.1⟩,
      fun hns hnl => ((h hns).2.2 hnl).2.1, fun hns hnl hnc => ?_⟩
    obtain ⟨hread, hother, hlast'⟩ := ((h hns).2.2 hnl).2.2 hnc
    refine ⟨hread, ?_⟩
    by_contra hb
    exact hlast (hlast' hb)
  · rintro ⟨-, h⟩
    refine ⟨h.signed.1, h.signed.2, fun hns => ⟨(h.linked hns).1, (h.linked hns).2, fun hnl =>
      ⟨trivial, h.stored hns hnl, fun hnc => ?_⟩⟩⟩
    obtain ⟨hread, hrefers⟩ := h.referred hns hnl hnc
    obtain ⟨o, ho⟩ := hreference.returns hread
    obtain ⟨-, hR⟩ := hreference.ok o ho
    exact ⟨hread, fun other hother =>
      Option.some.inj (((hR other).mpr hother).symm.trans ((hR b).mpr hrefers)),
      fun hb => absurd hrefers hb⟩

/-! ## The values of a code -/

omit [Characters] [Numerals] [Codes] in
theorem strip_normal (s : String) : strip (normal s) = normal s := Casing.strip_upper s

omit [Casing] [Characters] [Numerals] in
theorem splitOn_tokenText {encoded : String} (h : '.' ∉ encoded.toList) :
    ((tokenText encoded).toList.splitOn '.').map String.ofList =
      ["WZB1", encoded, Codes.signature encoded] := by
  have hsignature := Codes.signature_alphabet encoded
  have hlist : (tokenText encoded).toList = ['.'].intercalate
      ["WZB1".toList, encoded.toList, (Codes.signature encoded).toList] := by
    simp [tokenText, List.intercalate]
  rw [hlist, List.splitOn_intercalate]
  · simp [String.ofList_toList]
  · simp only [List.forall_mem_cons]
    exact ⟨by decide, h, fun hdot => (hsignature _ hdot).1 rfl, nofun⟩
  · exact List.cons_ne_nil _ _

omit [Casing] [Characters] [Numerals] in
theorem tokenText_parts (id : ℕ) (serial : String) :
    strip (tokenText (Codes.encode id serial)) = tokenText (Codes.encode id serial) ∧
      ((tokenText (Codes.encode id serial)).toList.splitOn '.').map String.ofList =
        ["WZB1", Codes.encode id serial, Codes.signature (Codes.encode id serial)] := by
  have hencode := Codes.encode_alphabet id serial
  have hsignature := Codes.signature_alphabet (Codes.encode id serial)
  refine ⟨?_, splitOn_tokenText fun hdot => (hencode _ hdot).1 rfl⟩
  have hstart : ∀ c ∈ "WZB1".toList, isSpace c = false :=
    List.all_iff_forall_prop.mp (by decide +kernel)
  have hdot : ∀ c ∈ ".".toList, isSpace c = false :=
    List.all_iff_forall_prop.mp (by decide +kernel)
  refine strip_of_not_space fun c hc => ?_
  simp only [tokenText, String.toList_append, List.mem_append] at hc
  rcases hc with (((hc | hc) | hc) | hc) | hc
  · exact hstart c hc
  · exact hdot c hc
  · exact (hencode c hc).2
  · exact hdot c hc
  · exact (hsignature c hc).2.1

omit [Characters] [Numerals] in
theorem parse_tokenText {id : ℕ} {serial : String} (hid : 0 < id) (hserial : normal serial = serial)
    (hne : serial ≠ "") (hread : ReadBack id serial) :
    parseSignedScanValue (tokenText (Codes.encode id serial)) = .ok (some ⟨id, serial⟩) := by
  have hascii : ∀ c ∈ (Codes.signature (Codes.encode id serial)).toList ++
      (Codes.signature (Codes.encode id serial)).toList, c.toNat < 128 := by
    intro c hc
    rw [List.mem_append, or_self] at hc
    exact (Codes.signature_alphabet _ c hc).2.2
  have hsame : compareDigest (Codes.signature (Codes.encode id serial))
      (Codes.signature (Codes.encode id serial)) = .ok true := by
    rw [compareDigest, if_pos (List.all_iff_forall_prop.mpr hascii), decide_eq_true rfl]
  have hsn : normalizeBatterySerial serial "sn" = .ok serial :=
    normalizeBatterySerial_ok.mpr ⟨by rwa [hserial], hserial⟩
  have hpayload : readPayload (payload id serial) = some ⟨id, serial⟩ := by
    have hpos : id ≠ 0 := by omega
    simp [readPayload, payload, List.lookup_cons, Codes.int_int, hsn, hpos]
  unfold parseSignedScanValue
  rw [(tokenText_parts id serial).2]
  simp only [hsame]
  rw [hread]
  show Except.ok ((some (payload id serial)).bind readPayload) = _
  rw [Option.bind_some, hpayload]

/-- **A signed token resolves to its battery**, whatever the other batteries are. -/
theorem resolvesTo_tokenText (hb : b ∈ inv.batteries)
    (hne : normal b.serialNumber ≠ "") (hread : ReadBack b.id (normal b.serialNumber)) :
    ResolvesTo inv (tokenText (Codes.encode b.id (normal b.serialNumber))) b := by
  have hparse := parse_tokenText (inv.ids_pos b hb) (normal_normal _) hne hread
  have hself : ∀ other ∈ inv.batteries, (other.id : ℤ) = b.id → other = b := fun other ho hid =>
    Table.eq_of_key ho hb (Int.ofNat_inj.mp hid)
  have hsigned : SignedFor inv (tokenText (Codes.encode b.id (normal b.serialNumber))) b :=
    ⟨hb, _, hparse, rfl, rfl⟩
  rw [resolvesTo_iff, (tokenText_parts _ _).1]
  refine ⟨?_, ⟨⟨_, hparse, fun p hp other ho hid => ?_⟩, fun other ho => ?_⟩,
    fun h => absurd hsigned h, fun h => absurd hsigned h, fun h => absurd hsigned h⟩
  · simp [tokenText]
  · obtain rfl := Option.some.inj hp
    rwa [hself other ho hid]
  · obtain ⟨ho, p, hp, hid, -⟩ := ho
    obtain rfl := Option.some.inj (Except.ok.inj (hparse.symm.trans hp))
    exact hself other ho hid

/-- The code that the battery has stored, or a new token. -/
def secureValue (b : Battery) : String :=
  (truthy b.qrCodeData).getD (tokenText (Codes.encode b.id (normal b.serialNumber)))

omit [Characters] [Numerals] in
theorem ensureBatteryQrIdentity_eq (hne : normal b.serialNumber ≠ "") :
    ensureBatteryQrIdentity b false = .ok (secureValue b,
      { b with serialNumber := normal b.serialNumber, qrCodeData := some (secureValue b) }) := by
  have hserial : normalizeBatterySerial b.serialNumber "serial_number" =
      .ok (normal b.serialNumber) := normalizeBatterySerial_ok.mpr ⟨hne, rfl⟩
  have htoken : buildSignedScanValue b.id (normal b.serialNumber) =
      .ok (tokenText (Codes.encode b.id (normal b.serialNumber))) := by
    have hagain : normalizeBatterySerial (normal b.serialNumber) "serial_number" =
        .ok (normal b.serialNumber) :=
      normalizeBatterySerial_ok.mpr ⟨by rwa [normal_normal], normal_normal _⟩
    rw [buildSignedScanValue, hagain]
    rfl
  unfold ensureBatteryQrIdentity secureValue
  rw [hserial]
  cases hcode : truthy b.qrCodeData with
  | none =>
    show (do
      let token ← buildSignedScanValue b.id (normal b.serialNumber)
      return (token, { b with
        serialNumber := normal b.serialNumber, qrCodeData := some token })) = _
    rw [htoken]
    rfl
  | some code =>
    have hstored := (truthy_eq_some.mp hcode).1
    simp [hstored]

omit [Characters] [Numerals] in
theorem ensureBatteryQrIdentity_again {b saved : Battery} {secure : String}
    (h : ensureBatteryQrIdentity b false = .ok (secure, saved)) :
    ensureBatteryQrIdentity saved false = .ok (secure, saved) := by
  by_cases hne : normal b.serialNumber = ""
  · rw [ensureBatteryQrIdentity, normalizeBatterySerial, if_pos hne] at h
    cases h
  rw [ensureBatteryQrIdentity_eq hne] at h
  obtain ⟨rfl, rfl⟩ := Prod.ext_iff.mp (Except.ok.inj h)
  have hcode : secureValue b ≠ "" := by
    unfold secureValue
    cases hstored : truthy b.qrCodeData with
    | none => simp [tokenText]
    | some code => exact (truthy_eq_some.mp hstored).2
  have hsame : secureValue { b with
      serialNumber := normal b.serialNumber, qrCodeData := some (secureValue b) } =
        secureValue b := by
    rw [secureValue, truthy_eq_some.mpr ⟨rfl, hcode⟩, Option.getD_some]
  rw [ensureBatteryQrIdentity_eq (by rwa [normal_normal]), hsame]
  simp only [normal_normal]

omit [Numerals] in
/-- **A bundle that is built again** is the same, and leaves the battery as it is. -/
theorem buildQrBundle_again {b saved : Battery} {mode : String} {bundle : Bundle}
    (h : buildQrBundle b mode = .ok (bundle, saved)) :
    buildQrBundle saved mode = .ok (bundle, saved) := by
  obtain ⟨serial, hserial, h⟩ := except_bind_ok.mp h
  obtain ⟨app, happ, h⟩ := except_bind_ok.mp h
  obtain ⟨⟨secure, saved'⟩, hensure, h⟩ := except_bind_ok.mp h
  obtain ⟨image, himage, h⟩ := except_bind_ok.mp h
  obtain ⟨rfl, rfl⟩ := Prod.ext_iff.mp (Except.ok.inj h)
  obtain ⟨hne, rfl⟩ := normalizeBatterySerial_ok.mp hserial
  have hsaved := hensure
  rw [ensureBatteryQrIdentity_eq hne] at hsaved
  obtain ⟨rfl, rfl⟩ := Prod.ext_iff.mp (Except.ok.inj hsaved)
  refine except_bind_ok.mpr ⟨_, ?_, except_bind_ok.mpr ⟨app, happ, except_bind_ok.mpr
    ⟨_, ensureBatteryQrIdentity_again hensure, except_bind_ok.mpr ⟨image, himage, rfl⟩⟩⟩⟩
  exact normalizeBatterySerial_ok.mpr ⟨by rwa [normal_normal], normal_normal _⟩

/-- Both values of a battery's code resolve to it exactly if its serial is blank (there is no code
then), or neither its serial nor the code stored for it is caught. -/
theorem scan_values_resolve_iff {inv : Inventory} {b : Battery} (hb : b ∈ inv.batteries)
    (hread : ReadBack b.id (normal b.serialNumber)) :
    ScanValuesResolve inv b ↔ (normal b.serialNumber ≠ "" →
      Uncaught inv b (normal b.serialNumber) ∧
        ∀ code ∈ truthy b.qrCodeData, strip code ≠ "" ∧ Uncaught inv b (strip code)) := by
  have hsecure : normal b.serialNumber ≠ "" → (ResolvesTo inv (secureValue b) b ↔
      ∀ code ∈ truthy b.qrCodeData, strip code ≠ "" ∧ Uncaught inv b (strip code)) := by
    intro hne
    unfold secureValue
    cases truthy b.qrCodeData with
    | none => exact ⟨fun _ => nofun, fun _ => resolvesTo_tokenText hb hne hread⟩
    | some code =>
      rw [Option.getD_some, resolvesTo_iff]
      exact ⟨fun h code' hcode' => Option.some.inj hcode' ▸ h, fun h => h code rfl⟩
  constructor
  · intro h hne
    have happ : buildAppScanValue b.serialNumber = .ok (normal b.serialNumber) :=
      normalizeBatterySerial_ok.mpr ⟨hne, rfl⟩
    obtain ⟨hA, hS⟩ := h _ _ _ happ (ensureBatteryQrIdentity_eq hne)
    rw [resolvesTo_iff, strip_normal] at hA
    exact ⟨hA.2, (hsecure hne).mp hS⟩
  · intro h app secure saved happ hensure
    obtain ⟨hne, rfl⟩ := normalizeBatterySerial_ok.mp happ
    obtain ⟨hA, hS⟩ := h hne
    have hvalue : secureValue b = secure := by
      rw [ensureBatteryQrIdentity_eq hne] at hensure
      exact (Prod.ext_iff.mp (Except.ok.inj hensure)).1
    refine ⟨?_, hvalue ▸ (hsecure hne).mpr hS⟩
    rw [resolvesTo_iff, strip_normal]
    exact ⟨hne, hA⟩

end

/-! ## Two inventories -/

def tokenB07 : String := "eyJiaWQiOjcsInNuIjoiQi0wNyIsInQiOiJiYXR0ZXJ5IiwidiI6MX0"

def signatureB07 : String := "YvSNF6lWO95OkkOKp-hUvMjS_TDebq-f_icbWxkCHHk"

/-- The libraries on the token of battery 7 with the serial `B-07`. -/
instance codesB07 : Codes where
  encode _ _ := tokenB07
  decode text := .ok (if text = tokenB07 then some (payload 7 "B-07") else none)
  signature _ := signatureB07
  int
    | .int n => some n
    | .bool b => some (if b then 1 else 0)
    | .str s => (intOfText s).toOption
    | _ => none
  refusesNetloc netloc := netloc.any fun c => c = '[' ∨ c = ']'
  image text := .ok text
  encode_alphabet _ _ := List.all_iff_forall_prop.mp (by decide +kernel)
  signature_alphabet _ := List.all_iff_forall_prop.mp (by decide +kernel)
  int_int _ := rfl

def batteryB07 : Battery := ⟨7, "b-07", none⟩

def depot : Inventory where
  batteries := ⟨[batteryB07, ⟨12, "B-12", some "wezu://battery/12"⟩], by decide⟩
  ids_pos := by decide
  serials_unique := by decide
  codes_unique := by decide

theorem scan_values_resolve_sample : ScanValuesResolve depot batteryB07 := by
  have hmem : batteryB07 ∈ depot.batteries := List.mem_cons_self
  have hread : ReadBack 7 "B-07" := rfl
  have hnormal : normal "b-07" = "B-07" := by decide
  have hparse : parseSignedScanValue "B-07" = .ok none := by rfl
  have hlink : parseBatteryDeepLink "B-07" = .ok none := by rfl
  have hdigits : isDigits "B-07" = false := by decide
  refine (scan_values_resolve_iff hmem hread).mpr fun _ => ⟨?_, nofun⟩
  show Uncaught depot batteryB07 (normal "b-07")
  rw [hnormal]
  refine ⟨⟨⟨none, hparse, nofun⟩, ?_⟩, fun _ => ⟨⟨none, hlink, nofun⟩, ?_⟩, fun _ _ => ?_,
    fun _ _ _ => ⟨?_, hmem, by decide, .inr ⟨fun _ _ => ?_, by decide, by decide⟩⟩⟩
  · rintro other ⟨-, signed, hsigned, -⟩
    rw [hparse] at hsigned
    cases hsigned
  · rintro other ⟨reference, hreference, -⟩
    rw [hlink] at hreference
    cases hreference
  · rintro other ⟨hother, hcode⟩
    rcases List.mem_pair.mp hother with rfl | rfl
    · rfl
    · exact absurd hcode (by decide)
  · rintro hread
    simp [hdigits] at hread
  · rintro ⟨hread, -⟩
    simp [hdigits] at hread

theorem buildQrBundle_again_sample :
    ∃ bundle saved, buildQrBundle saved " Secure" = .ok (bundle, saved) :=
  ⟨_, _, buildQrBundle_again (b := batteryB07) rfl⟩

/-- The serial of the first battery is the id of the second one. -/
def numberedDepot : Inventory where
  batteries := ⟨[⟨1, "2", none⟩, ⟨2, "B-02", none⟩], by decide⟩
  ids_pos := by decide
  serials_unique := by decide
  codes_unique := by decide

theorem numeric_serial_caught : ¬ ScanValuesResolve numberedDepot ⟨1, "2", none⟩ := by
  intro h
  obtain ⟨⟨resolved, hresolved, hbattery⟩, -⟩ := h "2" _ _ rfl rfl
  have hother : resolveScannedValue numberedDepot "2" =
      .ok (some ⟨⟨2, "B-02", none⟩, "reference", "2"⟩) := by rfl
  rw [hother] at hresolved
  obtain rfl := Option.some.inj (Except.ok.inj hresolved)
  exact absurd hbattery (by decide)

end WezuBackend.Fleet.QrCodes
