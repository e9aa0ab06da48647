import WezuBackend.Core.Text

/-!
# Event streams

`EventStreamService`: events, their form as fields of a stream entry, and the commands of Redis
Streams that a worker uses on its source stream, with one consumer group, and on the dead-letter
stream.  The id of an entry is its position in the stream.  What `json.loads` and `json.dumps` do is
a parameter: nothing here depends on it.

A group reads only what it has not been given yet (`readGroup`): an entry that was given and not
acknowledged stays pending, and is not read again.
-/

namespace WezuBackend.Streams.Events

open Core.Base Core.Text

/-! ## JSON -/

inductive Json where
  | null
  | bool (b : Bool)
  | int (n : ℤ)
  /-- a float, by its `repr` -/
  | float (text : String)
  | str (s : String)
  | list (values : List Json)
  | dict (entries : List (String × Json))

/-- `bool(value)`. -/
def Json.truth : Json → Bool
  | .null => false
  | .bool b => b
  | .int n => n ≠ 0
  | .float text => text ≠ "0.0" ∧ text ≠ "-0.0"
  | .str s => s ≠ ""
  | .list values => values ≠ []
  | .dict entries => entries ≠ []

/-- `value or {}`. -/
def Json.orEmpty (value : Json) : Json := if value.truth then value else .dict []

/-- `json.loads` (`none` when it raises) and `json.dumps`. -/
class JsonText where
  loads : String → Option Json
  dumps : Json → String

/-- `_json_loads(raw) or {}`. -/
def jsonLoads [JsonText] (raw : Option String) : Json :=
  match truthy raw with
  | none => .dict []
  | some text => ((JsonText.loads text).getD .null).orEmpty

/-- `entries[key] = value`. -/
def setEntry (entries : List (String × Json)) (key : String) (value : Json) :
    List (String × Json) :=
  if key ∈ entries.map Prod.fst then
    entries.map fun entry => if entry.1 = key then (key, value) else entry
  else entries ++ [(key, value)]

/-! ## Events -/

/-- The fields of a stream entry. -/
abbrev Fields : Type := List (String × String)

structure Event where
  schemaVersion : String := "v1"
  eventType : Option String := none
  eventId : Option String := none
  idempotencyKey : Option String := none
  source : Option String := none
  occurredAt : Option String := none
  producerHost : Option String := none
  payload : Json := .dict []
  metadata : Json := .dict []
  attempt : ℤ := 0

/-- `str(value)` of an optional text. -/
def strOf (value : Option String) : String := value.getD "None"

def serializeEvent [JsonText] (event : Event) : Except Exc Fields := do
  let attempt ← textOfInt event.attempt
  return [("schema_version", event.schemaVersion), ("event_type", strOf event.eventType),
    ("event_id", strOf event.eventId), ("idempotency_key", event.idempotencyKey.getD ""),
    ("source", strOf event.source), ("occurred_at", strOf event.occurredAt),
    ("producer_host", strOf event.producerHost), ("payload", JsonText.dumps event.payload),
    ("metadata", JsonText.dumps event.metadata), ("attempt", attempt)]

/-- `int(fields.get("attempt") or 0)`. -/
def attemptOf (fields : Fields) : Except Exc ℤ :=
  match truthy (fields.lookup "attempt") with
  | none => .ok 0
  | some text => intOfText text

def deserializeEvent [JsonText] (fields : Fields) : Except Exc Event := do
  let attempt ← attemptOf fields
  return { schemaVersion := (fields.lookup "schema_version").getD "v1"
           eventType := fields.lookup "event_type", eventId := fields.lookup "event_id"
           idempotencyKey := truthy (fields.lookup "idempotency_key")
           source := fields.lookup "source", occurredAt := fields.lookup "occurred_at"
           producerHost := fields.lookup "producer_host"
           payload := jsonLoads (fields.lookup "payload")
           metadata := jsonLoads (fields.lookup "metadata"), attempt }

section

variable [JsonText]

variable {event : Event} {fields : Fields}

theorem deserializeEvent_ok (h : deserializeEvent fields = .ok event) :
    attemptOf fields = .ok event.attempt := by
  unfold deserializeEvent at h
  rcases hattempt : attemptOf fields with e | attempt
  · rw [hattempt] at h
    cases h
  · rw [hattempt] at h
    cases h
    rfl

theorem attemptOf_serializeEvent (hpos : 0 ≤ event.attempt)
    (h : serializeEvent event = .ok fields) : attemptOf fields = .ok event.attempt := by
  obtain ⟨n, hn⟩ := Int.eq_ofNat_of_zero_le hpos
  unfold serializeEvent textOfInt at h
  rw [hn] at h ⊢
  by_cases hlt : (n : ℤ).natAbs < 10 ^ maxDigits
  · rw [if_pos hlt] at h
    cases h
    have hne : toString n ≠ "" := Nat.repr_ne_empty
    have hfield : truthy (some (toString n)) = some (toString n) := truthy_eq_some.mpr ⟨rfl, hne⟩
    unfold attemptOf
    show (match truthy (some (toString n)) with
      | none => Except.ok 0
      | some text => intOfText text) = _
    rw [hfield]
    exact intOfText_toString hlt
  · rw [if_neg hlt] at h
    cases h

end

/-! ## Streams -/

/-- An entry of a stream.  Besides the fields, the entry that it was republished from, and how many
republications to the source stream lie behind it. -/
structure Entry where
  fields : Fields
  origin : Option ℕ := none
  republications : ℕ := 0

/-- The source stream with its group, and the dead-letter stream. -/
structure StreamState where
  entries : List Entry := []
  /-- how many entries the group has been given -/
  delivered : ℕ := 0
  /-- given, and not acknowledged -/
  pending : List ℕ := []
  dlq : List Entry := []
  /-- the entries whose handler has returned -/
  handled : List ℕ := []

structure StreamMessage where
  stream : String
  messageId : ℕ
  fields : Fields
  deriving DecidableEq, Repr

inductive Publication where
  | published
  /-- `xadd` raises -/
  | failed
  /-- streams are not enabled, or there is no client -/
  | unavailable
  deriving DecidableEq, Repr

/-- `read_group`, when `xreadgroup` gives up to `count` new entries. -/
def readGroup (stream : String) (count : ℕ) (s : StreamState) : List StreamMessage × StreamState :=
  let messages := ((s.entries.zipIdx.drop s.delivered).take count).map fun (entry, messageId) =>
    { stream, messageId, fields := entry.fields }
  (messages, { s with delivered := s.delivered + messages.length
                      pending := s.pending ++ messages.map StreamMessage.messageId })

def ack (answers : Bool) (messageId : ℕ) (s : StreamState) : StreamState :=
  if answers then { s with pending := s.pending.filter fun id => id ≠ messageId } else s

/-- `publish` of an external event to the source stream. -/
def xadd (fields : Fields) (s : StreamState) : StreamState :=
  { s with entries := s.entries ++ [{ fields }] }

def retried (messageId : ℕ) (toSource : Bool) (fields : Fields) (s : StreamState) : Entry :=
  let before := (s.entries[messageId]?.map Entry.republications).getD 0
  { fields, origin := some messageId, republications := if toSource then before + 1 else before }

def republish (messageId : ℕ) (toSource : Bool) (fields : Fields) (s : StreamState) : StreamState :=
  let entry := retried messageId toSource fields s
  if toSource then { s with entries := s.entries ++ [entry] }
  else { s with dlq := s.dlq ++ [entry] }

section

variable [JsonText]

/-- The event with its next attempt. -/
def retryEvent (sourceStream now errorText : String) (event : Event) : Except Exc Event :=
  match event.metadata.orEmpty with
  | .dict entries =>
    let metadata := setEntry (setEntry (setEntry entries
      "last_error" (.str (String.ofList (errorText.toList.take 500))))
      "last_failure_at" (.str now)) "last_failure_stream" (.str sourceStream)
    .ok { event with attempt := event.attempt + 1, metadata := .dict metadata }
  | _ => .error .typeError

/-- What answers to the calls of Redis for one message. -/
structure Answers where
  publication : Publication := .published
  acked : Bool := true

def moveToRetryOrDlq (maxRetries : ℤ) (now : String) (answers : Answers) (message : StreamMessage)
    (errorText : String) (s : StreamState) : Except Exc Unit × StreamState :=
  match deserializeEvent message.fields with
  | .error e => (.error e, s)
  | .ok event =>
    match retryEvent message.stream now errorText event with
    | .error e => (.error e, s)
    | .ok event =>
      let toSource : Bool := event.attempt ≤ maxRetries
      if answers.publication = .unavailable then (.ok (), s)
      else
        match serializeEvent event with
        | .error e => (.error e, s)
        | .ok fields =>
          if answers.publication = .published then
            (.ok (), ack answers.acked message.messageId
              (republish message.messageId toSource fields s))
          else (.ok (), s)

end

end WezuBackend.Streams.Events
