import WezuBackend.Core.Unicode
import WezuBackend.Orders.Normalise

/-!
# Where a battery was dispatched from

A dispatch writes the place the battery left into the description of its lifecycle event, and the
release of an order reads it back: the newest dispatch event of the battery whose description
mentions the order, as a substring, and in it the first match of one of two patterns.  The patterns
ignore case, and know the letters and digits of all scripts.
-/

namespace WezuBackend.Orders.DispatchEvents

open Core.Base Core.Text Core.Unicode Fleet.Model

def buildDispatchEventDescription (orderId : String) (sourceLocationType : LocationType)
    (sourceLocationId : Option ℕ) : String :=
  let type := sourceLocationType.text
  let sourceToken := match sourceLocationId with
    | some k => s!"{type}:{k}"
    | none => type
  let sourceLabel := match sourceLocationId with
    | some k => s!"{type} #{k}"
    | none => type
  s!"event=dispatched;order={orderId};source={sourceToken};" ++
    s!" note=Dispatched with order {orderId} from {sourceLabel}"

/-! ## The patterns -/

/-- A letter of a keyword matches in any case.  The cases of `i` are also `U+0130` and `U+0131`, and
`U+017F` is one of `s`. -/
def matchesLetter (letter c : Char) : Bool :=
  c.toLower = letter ∨ (letter = 'i' ∧ (c.toNat = 0x130 ∨ c.toNat = 0x131)) ∨
    (letter = 's' ∧ c.toNat = 0x17f)

/-- `str.lower` of a character that matches a letter. -/
def loweredLetter (c : Char) : List Char :=
  if c.toNat = 0x130 then ['i', Char.ofNat 0x307] else [c.toLower]

/-- What follows the keyword, which is in lower case, if the text starts with it in any case. -/
def afterKeyword : List Char → List Char → Option (List Char)
  | [], cs => some cs
  | _ :: _, [] => none
  | k :: ks, c :: cs => if matchesLetter k c then afterKeyword ks cs else none

def loweredType (type : LocationType) (matched : List Char) : LocationType :=
  let text := String.ofList (matched.flatMap loweredLetter)
  if text = type.text then type else .other text

/-- A location type at the start of the text, and what follows it. -/
def locationTypeAt (cs : List Char) : Option (LocationType × List Char) :=
  [LocationType.warehouse, .station, .shelf, .customer].findSome? fun type =>
    (afterKeyword type.text.toList cs).map fun rest =>
      (loweredType type (cs.take type.text.length), rest)

/-- `[;|\s]`. -/
def isDelimiter (c : Char) : Bool := c = ';' ∨ c = '|' ∨ isSpace c

/-- `(?:[;|\s]|$)`. -/
def ended (cs : List Char) : Bool := cs.head?.all isDelimiter

/-- What a pattern has found: the type, and the digits of the id. -/
abbrev Found : Type := LocationType × Option (List Char)

/-- `(?::(\d+))?(?:[;|\s]|$)`, after the type. -/
def machineEnd (type : LocationType) : List Char → Option Found
  | ':' :: rest =>
    let digits := rest.takeWhile isDecimal
    if digits ≠ [] ∧ ended (rest.dropWhile isDecimal) then some (type, some digits) else none
  | rest => if ended rest then some (type, none) else none

/-- `source=(warehouse|station|shelf|customer)(?::(\d+))?(?:[;|\s]|$)`. -/
def machineAt (cs : List Char) : Option Found := do
  let (type, rest) ← (afterKeyword "source=".toList cs).bind locationTypeAt
  machineEnd type rest

def machineAfterDelimiter : List Char → Option Found
  | [] => none
  | c :: cs =>
    if isDelimiter c then (machineAt cs).or (machineAfterDelimiter cs)
    else machineAfterDelimiter cs

/-- `_DISPATCH_SOURCE_MACHINE_PATTERN.search`. -/
def searchMachine (cs : List Char) : Option Found := (machineAt cs).or (machineAfterDelimiter cs)

/-- `from\s+(warehouse|station|shelf|customer)(?:\s+#(\d+))?`. -/
def sourceAt (cs : List Char) : Option Found := do
  let rest ← afterKeyword "from".toList cs
  if ¬ rest.head?.any isSpace then none
  let (type, rest) ← locationTypeAt (rest.dropWhile isSpace)
  match rest.dropWhile isSpace with
  | '#' :: label =>
    let digits := label.takeWhile isDecimal
    if rest.head?.any isSpace ∧ digits ≠ [] then some (type, some digits) else some (type, none)
  | _ => some (type, none)

/-- `_DISPATCH_SOURCE_PATTERN.search`. -/
def searchSource : List Char → Option Found
  | [] => none
  | c :: cs => (sourceAt (c :: cs)).or (searchSource cs)

def readFound (found : Found) : Except Exc (LocationType × Option ℕ) :=
  match found.2 with
  | none => .ok (found.1, none)
  | some digits => (intOfDigits digits).map fun k => (found.1, some k)

/-- `_extract_dispatch_source_from_event`. -/
def extractDispatchSource (description : Option String) :
    Except Exc (Option (LocationType × Option ℕ)) :=
  match (truthy description).bind fun text =>
      (searchMachine text.toList).or (searchSource text.toList) with
  | none => .ok none
  | some found => (readFound found).map some

/-! ## The event of an order -/

/-- `needle in cs`. -/
def contains (needle : List Char) : List Char → Bool
  | [] => needle.isEmpty
  | c :: cs => needle.isPrefixOf (c :: cs) || contains needle cs

def mentionsOrder (orderId : String) (description : Option String) : Bool :=
  let value := (lower (description.getD "")).toList
  contains (lower s!"order={orderId}").toList value ||
    contains (lower s!"order {orderId}").toList value

def dispatchEvents (db : Db) (batteryId : ℕ) : List BatteryLifecycleEvent :=
  (db.batteryLifecycleEvents.rows.filter fun e =>
    e.batteryId = batteryId ∧ e.eventType = "dispatched").insertionSort fun a b =>
      b.timestamp < a.timestamp ∨ (a.timestamp = b.timestamp ∧ b.id ≤ a.id)

/-- `_find_dispatch_event_description_for_order`. -/
def findDispatchEventDescription (db : Db) (batteryId : ℕ) (orderId : String) : Option String :=
  ((dispatchEvents db batteryId).find? fun e => mentionsOrder orderId e.description).bind
    BatteryLifecycleEvent.description

/-- The source that the release of the order reads for the battery. -/
def dispatchSource (db : Db) (batteryId : ℕ) (orderId : String) :
    Except Exc (Option (LocationType × Option ℕ)) :=
  extractDispatchSource (findDispatchEventDescription db batteryId orderId)

example : extractDispatchSource (some (buildDispatchEventDescription "ORD-7F" .shelf (some 12))) =
    .ok (some (.shelf, some 12)) := by decide +kernel

example : mentionsOrder "ORD-1" (some (buildDispatchEventDescription "ORD-12" .station (some 3))) =
    true := by decide +kernel

end WezuBackend.Orders.DispatchEvents
