import WezuBackend.Streams.JsonCodec

/-!
# Events as text

`build_event`, and its events as fields of a stream, with the payload and the metadata as JSON.  An
event comes back from its fields, and does so again after each failure that `move_to_retry_or_dlq`
publishes it for, with one attempt more and the failure in its metadata (`event_kept_iff`), unless
an integer in it is too long for `str`, or lists and dictionaries in it are nested deeper than the
interpreter's stack allows: then it is not written, or a payload that cannot be read back is lost.
-/

namespace WezuBackend.Streams.EventCodec

open Lib.Entries Lib.Results Core.Base Core.Text Streams.Events Streams.JsonNumbers
open Streams.JsonCodec

/-- How many recursive calls are left for `json.dumps` and for `json.loads`. -/
class Stack where
  dumps : ℕ
  loads : ℕ
  loads_pos : 0 < loads

instance [Floats] [Stack] : JsonText where
  loads text := (loadsWithin Stack.loads text).toOption
  dumps := dumps

/-! ## Events that are built -/

/-- What `build_event` is called with. -/
structure NewEvent where
  eventType : String
  payload : List (String × Json)
  source : String
  schemaVersion : String := "v1"
  eventId : Option String := none
  idempotencyKey : Option String := none
  metadata : Option (List (String × Json)) := none

/-- `build_event`, with the id, the time and the host that it comes upon. -/
def buildEvent (uuid now host : String) (new : NewEvent) : Event :=
  { schemaVersion := new.schemaVersion, eventType := some new.eventType
    eventId := some ((truthy new.eventId).getD uuid)
    idempotencyKey := some ((truthy new.idempotencyKey).getD "")
    source := some new.source, occurredAt := some now, producerHost := some host
    payload := .dict new.payload, metadata := .dict (new.metadata.getD []), attempt := 0 }

theorem orEmpty_dict (entries : List (String × Json)) : (Json.dict entries).orEmpty =
    .dict entries := by
  unfold Json.orEmpty
  cases entries <;> rfl

theorem some_strOf {text : Option String} (h : text.isSome) : some (strOf text) = text := by
  obtain ⟨s, rfl⟩ := Option.isSome_iff_exists.mp h
  rfl

theorem truthy_truthy (text : Option String) : truthy (truthy text) = truthy text := by
  unfold truthy
  rw [Option.filter_filter]
  simp

theorem truthy_getD (text : Option String) : truthy (some (text.getD "")) = truthy text := by
  rcases text with _ | s
  · rfl
  · rfl

theorem textOfInt_ok {n : ℤ} {text : String} :
    textOfInt n = .ok text ↔ n.natAbs < 10 ^ maxDigits ∧ toString n = text := by
  unfold textOfInt
  split_ifs with h
  · simp [h]
  · simp [h]

variable {value : Json}

section

variable [Stack]

/-- `_json_dumps`, which raises as well if it would have to recurse too deep. -/
def dumped (value : Json) : Except Exc String :=
  if depth value ≤ Stack.dumps then jsonDumps value else .error .recursionError

/-- `json.dumps` can write the value. -/
def Writable (value : Json) : Prop := depth value ≤ Stack.dumps ∧ Short value

theorem dumped_ok {text : String} :
    dumped value = .ok text ↔ Writable value ∧ dumps value = text := by
  unfold dumped Writable
  split_ifs with h
  · simp [h, jsonDumps_ok]
  · simp [h]

theorem Writable.sortKeys (h : Writable value) : Writable (JsonCodec.sortKeys value) :=
  ⟨(depth_sortKeys value).trans_le h.1, short_sortKeys h.2⟩

variable [Floats]

/-- `serialize_event`, where `json.dumps` may raise. -/
def serialize (event : Event) : Except Exc Fields := do
  let _ ← dumped event.payload
  let _ ← dumped event.metadata
  serializeEvent event

variable {event : Event}

variable {fields : Fields}

theorem serialize_ok : serialize event = .ok fields ↔
    Writable event.payload ∧ Writable event.metadata ∧ serializeEvent event = .ok fields := by
  unfold serialize
  rw [except_bind_ok]
  constructor
  · rintro ⟨_, hpayload, h⟩
    obtain ⟨_, hmetadata, h⟩ := except_bind_ok.mp h
    exact ⟨(dumped_ok.mp hpayload).1, (dumped_ok.mp hmetadata).1, h⟩
  · rintro ⟨hpayload, hmetadata, h⟩
    exact ⟨_, dumped_ok.mpr ⟨hpayload, rfl⟩,
      except_bind_ok.mpr ⟨_, dumped_ok.mpr ⟨hmetadata, rfl⟩, h⟩⟩

theorem serialize_iff : (∃ fields, serialize event = .ok fields) ↔
    Writable event.payload ∧ Writable event.metadata ∧
      event.attempt.natAbs < 10 ^ maxDigits := by
  constructor
  · rintro ⟨fields, h⟩
    obtain ⟨hpayload, hmetadata, h⟩ := serialize_ok.mp h
    obtain ⟨_, hattempt, -⟩ := except_bind_ok.mp h
    exact ⟨hpayload, hmetadata, (textOfInt_ok.mp hattempt).1⟩
  · rintro ⟨hpayload, hmetadata, hattempt⟩
    exact ⟨_, serialize_ok.mpr ⟨hpayload, hmetadata,
      except_bind_ok.mpr ⟨_, textOfInt_ok.mpr ⟨hattempt, rfl⟩, rfl⟩⟩⟩

/-! ## Events that are read -/

structure IsObject (value : Json) : Prop where
  dict : ∃ entries, value = .dict entries
  proper : Proper value

/-- All fields are set, and the payload and the metadata are objects. -/
structure Complete (event : Event) : Prop where
  eventType : event.eventType.isSome
  eventId : event.eventId.isSome
  source : event.source.isSome
  occurredAt : event.occurredAt.isSome
  producerHost : event.producerHost.isSome
  payload : IsObject event.payload
  metadata : IsObject event.metadata
  attempt : 0 ≤ event.attempt

def reread (event : Event) : Event :=
  { event with idempotencyKey := truthy event.idempotencyKey
               payload := sortKeys event.payload, metadata := sortKeys event.metadata }

theorem loads_empty : loadsWithin Stack.loads "" = .error .malformed := rfl

/-- A value that is nested too deep is read as an empty object. -/
theorem jsonLoads_dumps (h : IsObject value) (hshort : Short value) :
    jsonLoads (some (dumps value)) =
      if depth value ≤ Stack.loads then sortKeys value else .dict [] := by
  have hloads := loadsWithin_dumps h.proper hshort Stack.loads
  have hne : dumps value ≠ "" := by
    intro hempty
    rw [hempty, loads_empty] at hloads
    unfold readAs at hloads
    split_ifs at hloads
    cases hloads
  have htruthy : truthy (some (dumps value)) = some (dumps value) :=
    truthy_eq_some.mpr ⟨rfl, hne⟩
  unfold jsonLoads
  rw [htruthy]
  show ((loadsWithin Stack.loads (dumps value)).toOption.getD .null).orEmpty = _
  rw [hloads]
  by_cases hdepth : depth value ≤ Stack.loads
  · obtain ⟨entries, rfl⟩ := h.dict
    rw [readAs_of_le hdepth, if_pos hdepth]
    exact orEmpty_dict _
  · rw [readAs_of_lt (not_le.mp hdepth), if_neg hdepth]
    rfl

/-- `json.loads` can read the payload and the metadata. -/
def Readable (event : Event) : Prop :=
  depth event.payload ≤ Stack.loads ∧ depth event.metadata ≤ Stack.loads

theorem deserializeEvent_serialize (h : Complete event) (hfields : serialize event = .ok fields) :
    deserializeEvent fields = .ok { reread event with
      payload := jsonLoads (some (dumps event.payload))
      metadata := jsonLoads (some (dumps event.metadata)) } := by
  obtain ⟨-, -, hserialize⟩ := serialize_ok.mp hfields
  have hattempt := attemptOf_serializeEvent h.attempt hserialize
  obtain ⟨text, -, heq⟩ := except_bind_ok.mp hserialize
  unfold deserializeEvent
  rw [hattempt, ← Except.ok.inj heq]
  show Except.ok (Event.mk event.schemaVersion (some (strOf event.eventType))
    (some (strOf event.eventId)) (truthy (some (event.idempotencyKey.getD "")))
    (some (strOf event.source)) (some (strOf event.occurredAt))
    (some (strOf event.producerHost)) (jsonLoads (some (dumps event.payload)))
    (jsonLoads (some (dumps event.metadata))) event.attempt) = _
  rw [some_strOf h.eventType, some_strOf h.eventId, some_strOf h.source,
    some_strOf h.occurredAt, some_strOf h.producerHost, truthy_getD]
  rfl

/-- **An event is read back from its fields.** -/
theorem deserialize_serialize (h : Complete event) (hreadable : Readable event)
    (hfields : serialize event = .ok fields) : deserializeEvent fields = .ok (reread event) := by
  obtain ⟨hpayload, hmetadata, -⟩ := serialize_ok.mp hfields
  rw [deserializeEvent_serialize h hfields, jsonLoads_dumps h.payload hpayload.2,
    jsonLoads_dumps h.metadata hmetadata.2, if_pos hreadable.1, if_pos hreadable.2]
  rfl

end

/-! ## Failures -/

/-- A failure to handle the event, in a worker of the stream. -/
structure Failure where
  stream : String
  now : String
  errorText : String

/-- What a failure leaves in the metadata. -/
def failureFields (failure : Failure) : List (String × Json) :=
  [("last_error", .str (String.ofList (failure.errorText.toList.take 500))),
    ("last_failure_at", .str failure.now), ("last_failure_stream", .str failure.stream)]

def failureKeys : List String := ["last_error", "last_failure_at", "last_failure_stream"]

/-- The metadata after a failure. -/
def withFailure (failure : Failure) (entries : List (String × Json)) : List (String × Json) :=
  (failureFields failure).foldl (fun entries e => assign entries e.1 e.2) entries

theorem lookup_withFailure (failure : Failure) (entries : List (String × Json)) (key : String) :
    (withFailure failure entries).lookup key =
      if key ∈ failureKeys then (failureFields failure).lookup key else entries.lookup key := by
  unfold withFailure failureFields failureKeys
  simp only [List.foldl_cons, List.foldl_nil, lookup_assign, List.mem_cons, List.not_mem_nil,
    or_false]
  by_cases herror : key = "last_error"
  · subst herror
    rfl
  · by_cases hat : key = "last_failure_at"
    · subst hat
      rfl
    · by_cases hstream : key = "last_failure_stream"
      · subst hstream
        rfl
      · rw [if_neg herror, if_neg hat, if_neg hstream, if_neg (by tauto)]

variable {entries : List (String × Json)} {failure : Failure}

theorem nodup_withFailure
    (h : (entries.map Prod.fst).Nodup) : ((withFailure failure entries).map Prod.fst).Nodup :=
  nodup_assign _ _ _ (nodup_assign _ _ _ (nodup_assign _ _ _ h))

variable {P : Json → Prop}

theorem everywhere_assign {key : String}
    (h : EntriesEverywhere P entries) (hvalue : Everywhere P value) :
    EntriesEverywhere P (assign entries key value) := by
  refine entriesEverywhere_iff.mpr fun e he => ?_
  rcases mem_assign he with hmem | heq
  · exact entriesEverywhere_iff.mp h e hmem
  · rwa [heq]

theorem everywhere_withFailure (hP : ∀ s, P (.str s)) (h : EntriesEverywhere P entries) :
    EntriesEverywhere P (withFailure failure entries) :=
  everywhere_assign (everywhere_assign (everywhere_assign h (hP _)) (hP _)) (hP _)

theorem depth_assign (entries : List (String × Json)) (key text : String) :
    entriesDepth (assign entries key (.str text)) ≤ entriesDepth entries := by
  refine entriesDepth_le_iff.mpr fun e he => ?_
  rcases mem_assign he with hmem | htext
  · exact entriesDepth_le_iff.mp le_rfl e hmem
  · rw [htext]
    exact Nat.zero_le _

/-- The texts of a failure nest nothing. -/
theorem depth_withFailure (failure : Failure) (entries : List (String × Json)) :
    depth (.dict (withFailure failure entries)) ≤ depth (.dict entries) :=
  Nat.succ_le_succ <| (depth_assign _ _ _).trans <| (depth_assign _ _ _).trans <|
    depth_assign _ _ _

def entriesOf : Json → List (String × Json)
  | .dict entries => entries
  | _ => []

def afterFailure (failure : Failure) (event : Event) : Event :=
  { event with attempt := event.attempt + 1
               metadata := .dict (withFailure failure (entriesOf event.metadata)) }

/-- The event after failures, the first one first. -/
def afterFailures (failures : List Failure) (event : Event) : Event :=
  failures.foldl (fun event failure => afterFailure failure event) event

theorem afterFailures_append (failures : List Failure) (failure : Failure) (event : Event) :
    afterFailures (failures ++ [failure]) event =
      afterFailure failure (afterFailures failures event) := by
  rw [afterFailures, List.foldl_append]
  rfl

theorem attempt_afterFailures (failures : List Failure) (event : Event) :
    (afterFailures failures event).attempt = event.attempt + failures.length := by
  induction failures using List.reverseRecOn with
  | nil => simp [afterFailures]
  | append_singleton failures failure ih =>
    rw [afterFailures_append, List.length_append, List.length_singleton]
    show (afterFailures failures event).attempt + 1 = _
    rw [ih]
    omega

/-- The events are equal for Python, but for the key: an empty one is read as none. -/
structure SameEvent (event event' : Event) : Prop where
  schemaVersion : event'.schemaVersion = event.schemaVersion
  eventType : event'.eventType = event.eventType
  eventId : event'.eventId = event.eventId
  idempotencyKey : event'.idempotencyKey = truthy event.idempotencyKey
  source : event'.source = event.source
  occurredAt : event'.occurredAt = event.occurredAt
  producerHost : event'.producerHost = event.producerHost
  payload : Same event.payload event'.payload
  metadata : Same event.metadata event'.metadata
  attempt : event'.attempt = event.attempt

theorem sameEvent_reread (event : Event) : SameEvent event (reread event) :=
  ⟨rfl, rfl, rfl, rfl, rfl, rfl, rfl, same_sortKeys _, same_sortKeys _, rfl⟩

theorem same_dict_nil (h : Same (.dict entries) (.dict [])) : entries = [] := by
  cases h with
  | refl => rfl
  | dict h hperm =>
    obtain rfl := hperm.nil_eq
    cases h
    rfl

section

variable [Floats]

theorem IsObject.nodup (h : IsObject (.dict entries)) : (entries.map Prod.fst).Nodup := h.proper.1

theorem IsObject.withFailure (h : IsObject value) (failure : Failure) :
    IsObject (.dict (withFailure failure (entriesOf value))) := by
  obtain ⟨entries, rfl⟩ := h.dict
  exact ⟨⟨_, rfl⟩, nodup_withFailure h.nodup, everywhere_withFailure (fun _ => trivial) h.proper.2⟩

theorem depth_withFailure_sorted (h : IsObject value) (failure : Failure) :
    depth (.dict (withFailure failure (entriesOf (sortKeys value)))) ≤ depth value := by
  have hsorted := depth_sortKeys value
  obtain ⟨entries, rfl⟩ := h.dict
  exact (depth_withFailure failure _).trans hsorted.le

theorem short_withFailure (hobject : IsObject value) (h : Short value)
    (failure : Failure) : Short (.dict (withFailure failure (entriesOf (sortKeys value)))) := by
  have hsorted := short_sortKeys h
  obtain ⟨entries, rfl⟩ := hobject.dict
  exact ⟨trivial, everywhere_withFailure (fun _ => trivial) hsorted.2⟩

theorem IsObject.sortKeys (h : IsObject value) : IsObject (sortKeys value) := by
  obtain ⟨entries, rfl⟩ := h.dict
  exact ⟨⟨_, rfl⟩, proper_sortKeys h.proper⟩

variable {event : Event}

theorem Complete.reread (h : Complete event) : Complete (reread event) :=
  { h with payload := h.payload.sortKeys, metadata := h.metadata.sortKeys }

theorem Complete.afterFailure (h : Complete event) (failure : Failure) :
    Complete (afterFailure failure event) :=
  { h with metadata := h.metadata.withFailure failure
           attempt := Int.add_nonneg h.attempt (by decide) }

theorem Complete.afterFailures (h : Complete event) (failures : List Failure) :
    Complete (afterFailures failures event) := by
  induction failures using List.reverseRecOn with
  | nil => exact h
  | append_singleton failures failure ih =>
    rw [afterFailures_append]
    exact ih.afterFailure failure

theorem sortKeys_withFailure (h : IsObject value) (failure : Failure) :
    sortKeys (.dict (withFailure failure (entriesOf (sortKeys value)))) =
      sortKeys (.dict (withFailure failure (entriesOf value))) := by
  obtain ⟨entries, rfl⟩ := h.dict
  refine sortKeys_congr (nodup_withFailure (nodup_sorted h.nodup)) (nodup_withFailure h.nodup)
    fun k => ?_
  rw [lookup_withFailure, lookup_withFailure]
  split_ifs
  · rfl
  · show (List.lookup k ((sortEntries entries).insertionSort fun a b => a.1 ≤ b.1)).map _ = _
    rw [lookup_sorted h.nodup, Option.map_map]
    exact Option.map_congr fun v _ => sortKeys_sortKeys v

theorem reread_afterFailure (h : Complete event) (failure : Failure) :
    reread (afterFailure failure (reread event)) = reread (afterFailure failure event) := by
  unfold reread afterFailure
  dsimp only
  rw [truthy_truthy, sortKeys_sortKeys, sortKeys_withFailure h.metadata]

theorem retryEvent_eq (h : IsObject event.metadata) (failure : Failure) :
    retryEvent failure.stream failure.now failure.errorText event =
      .ok (afterFailure failure event) := by
  obtain ⟨entries, hentries⟩ := h.dict
  unfold retryEvent afterFailure
  rw [hentries, orEmpty_dict]
  rfl

/-! ## Events that are published again -/

variable [Stack]

theorem Writable.withFailure (hobject : IsObject value) (h : Writable value) (failure : Failure) :
    Writable (.dict (EventCodec.withFailure failure (entriesOf (JsonCodec.sortKeys value)))) :=
  ⟨(depth_withFailure_sorted hobject failure).trans h.1, short_withFailure hobject h.2 failure⟩

theorem Readable.afterFailure (h : Complete event) (hreadable : Readable event)
    (failure : Failure) : Readable (afterFailure failure (EventCodec.reread event)) :=
  ⟨(depth_sortKeys _).trans_le hreadable.1,
    (depth_withFailure_sorted h.metadata failure).trans hreadable.2⟩

/-- A failed message with these fields is published again with those, in whatever state, once Redis
takes it. -/
def Publishes (failure : Failure) (fields fields' : Fields) : Prop :=
  ∀ (message : StreamMessage) (maxRetries : ℤ) (acked : Bool) (s : StreamState),
    message.stream = failure.stream → message.fields = fields → ∃ toSource,
      moveToRetryOrDlq maxRetries failure.now { acked } message failure.errorText s =
        (.ok (), ack acked message.messageId (republish message.messageId toSource fields' s))

inductive Moved (fields : Fields) : List Failure → Fields → Prop where
  | first : Moved fields [] fields
  | again {failures : List Failure} {failure : Failure} {fields' fields'' : Fields}
    (h : Moved fields failures fields') (hpublishes : Publishes failure fields' fields'') :
    Moved fields (failures ++ [failure]) fields''

variable {fields : Fields}

/-- The event has fields again after a failure, and they are published. -/
theorem publishes (h : Complete event) (hreadable : Readable event)
    (hfields : serialize event = .ok fields)
    (hattempt : (event.attempt + 1).natAbs < 10 ^ maxDigits) :
    ∃ fields', serialize (afterFailure failure (reread event)) = .ok fields' ∧
      Publishes failure fields fields' := by
  have hread := deserialize_serialize h hreadable hfields
  have hretry := retryEvent_eq h.reread.metadata failure
  obtain ⟨hpayload, hmetadata, -⟩ := serialize_ok.mp hfields
  obtain ⟨fields', hfields'⟩ : ∃ fields', serialize (afterFailure failure (reread event)) =
      .ok fields' :=
    serialize_iff.mpr ⟨hpayload.sortKeys, hmetadata.withFailure h.metadata failure, hattempt⟩
  refine ⟨fields', hfields', ?_⟩
  rintro message maxRetries acked s hstream rfl
  refine ⟨decide ((afterFailure failure (reread event)).attempt ≤ maxRetries), ?_⟩
  unfold moveToRetryOrDlq
  rw [hread, hstream]
  dsimp only
  rw [hretry]
  dsimp only
  rw [(serialize_ok.mp hfields').2.2, if_neg (by decide)]
  exact if_pos rfl

/-- **An event is carried through failures**: what its fields become are those of the event after
the failures. -/
theorem exists_moved (h : Complete event) (hreadable : Readable event)
    (hfields : serialize event = .ok fields) (failures : List Failure)
    (hattempt : (event.attempt + failures.length).natAbs < 10 ^ maxDigits) :
    ∃ event' fields', Moved fields failures fields' ∧ serialize event' = .ok fields' ∧
      Complete event' ∧ Readable event' ∧
      reread event' = reread (afterFailures failures event) := by
  induction failures using List.reverseRecOn with
  | nil => exact ⟨event, fields, .first, hfields, h, hreadable, rfl⟩
  | append_singleton failures failure ih =>
    have hpos := h.attempt
    rw [List.length_append, List.length_singleton] at hattempt
    obtain ⟨event', fields', hmoved, hfields', hcomplete, hread, hreread⟩ := ih (by omega)
    have hsame : (reread event').attempt = event.attempt + failures.length := by
      rw [hreread, ← attempt_afterFailures]
      rfl
    have hnext : (event'.attempt + 1).natAbs < 10 ^ maxDigits := by
      have heq : event'.attempt = event.attempt + failures.length := hsame
      omega
    obtain ⟨fields'', hfields'', hpublishes⟩ := publishes hcomplete hread hfields' hnext
    refine ⟨afterFailure failure (reread event'), fields'', .again hmoved hpublishes, hfields'',
      hcomplete.reread.afterFailure failure, hread.afterFailure hcomplete failure, ?_⟩
    rw [hreread, reread_afterFailure (h.afterFailures failures), afterFailures_append]

/-- The event is written, and read back as it was: also after it has been published again for
failures, with one attempt more for each, and the last one in its metadata. -/
def Kept (event : Event) : Prop :=
  ∃ fields, serialize event = .ok fields ∧
    ∀ failures : List Failure, failures.length < 10 ^ maxDigits → ∃ fields' event',
      Moved fields failures fields' ∧ deserializeEvent fields' = .ok event' ∧
        SameEvent (afterFailures failures event) event'

/-- The value can be written and read. -/
def Carried (value : Json) : Prop := Writable value ∧ depth value ≤ Stack.loads

/-- What is read as an empty object is lost, unless it is one. -/
theorem depth_le_of_same (hobject : IsObject (.dict entries)) (hshort : Short (.dict entries))
    (h : Same (.dict entries) (jsonLoads (some (dumps (.dict entries))))) :
    depth (.dict entries) ≤ Stack.loads := by
  by_contra hdepth
  rw [jsonLoads_dumps hobject hshort, if_neg hdepth] at h
  obtain rfl := same_dict_nil h
  exact hdepth Stack.loads_pos

/-- **A built event is kept** if and only if no integer in it is too long, and nothing in it is
nested too deep. -/
theorem event_kept_iff (uuid now host : String) (new : NewEvent)
    (hpayload : Proper (.dict new.payload)) (hmetadata : Proper (.dict (new.metadata.getD []))) :
    Kept (buildEvent uuid now host new) ↔
      Carried (.dict new.payload) ∧ Carried (.dict (new.metadata.getD [])) := by
  have hcomplete : Complete (buildEvent uuid now host new) :=
    ⟨rfl, rfl, rfl, rfl, rfl, ⟨⟨_, rfl⟩, hpayload⟩, ⟨⟨_, rfl⟩, hmetadata⟩, le_refl 0⟩
  constructor
  · rintro ⟨fields, hfields, hkept⟩
    obtain ⟨hwritten, hwritten', -⟩ := serialize_ok.mp hfields
    obtain ⟨fields', event', hmoved, hread, hsame⟩ := hkept [] (Nat.pow_pos (by decide))
    obtain rfl : fields' = fields := by
      generalize hnil : ([] : List Failure) = failures at hmoved
      cases hmoved with
      | first => rfl
      | again h _ => exact absurd hnil.symm (List.append_ne_nil_of_right_ne_nil _ (by simp))
    rw [deserializeEvent_serialize hcomplete hfields] at hread
    obtain rfl := Except.ok.inj hread
    exact ⟨⟨hwritten, depth_le_of_same hcomplete.payload hwritten.2 hsame.payload⟩,
      ⟨hwritten', depth_le_of_same hcomplete.metadata hwritten'.2 hsame.metadata⟩⟩
  · rintro ⟨hpayload, hmetadata⟩
    have hwritten : ∃ fields, serialize (buildEvent uuid now host new) = .ok fields :=
      serialize_iff.mpr ⟨hpayload.1, hmetadata.1, Nat.pow_pos (by decide)⟩
    obtain ⟨fields, hfields⟩ := hwritten
    refine ⟨fields, hfields, fun failures hlength => ?_⟩
    have hattempt : ((buildEvent uuid now host new).attempt + failures.length).natAbs <
        10 ^ maxDigits := by
      show ((0 : ℤ) + failures.length).natAbs < _
      omega
    obtain ⟨event', fields', hmoved, hfields', hcomplete', hreadable, hreread⟩ :=
      exists_moved hcomplete ⟨hpayload.2, hmetadata.2⟩ hfields failures hattempt
    refine ⟨fields', reread event', hmoved, deserialize_serialize hcomplete' hreadable hfields',
      ?_⟩
    rw [hreread]
    exact sameEvent_reread _

end

/-- Nine hundred calls are left. -/
@[reducible] def halfway : Stack := ⟨900, 900, by decide⟩

theorem event_kept_sample : @Kept written halfway (buildEvent "evt_1" "2026-01-05T10:00:00"
    "worker-1"
    { eventType := "payment.captured", source := "webhook", idempotencyKey := some ""
      payload := [("amount", .float "499.5"), ("ids", .list [.int 7, .null])]
      metadata := some [("note", .str "café")] }) := by
  have hkeys : ["amount", "ids"].Nodup := by decide
  refine (@event_kept_iff written halfway _ _ _ _ ?_ ?_).mpr
    ⟨⟨⟨by decide, ?_⟩, by decide⟩, ⟨⟨by decide, trivial, trivial, trivial⟩, by decide⟩⟩
  · exact ⟨hkeys, rfl, ⟨trivial, trivial, trivial, trivial⟩, trivial⟩
  · exact ⟨List.nodup_singleton "note", trivial, trivial⟩
  · exact ⟨trivial, trivial, ⟨trivial, isShort_of_lt (by decide), trivial, trivial⟩, trivial⟩

theorem long_integer_refused :
    @Proper written (.dict [("n", .int (10 ^ maxDigits))]) ∧
      ¬ @Kept written halfway (buildEvent "evt_1" "2026-01-05T10:00:00" "worker-1"
        { eventType := "payment.captured", source := "webhook"
          payload := [("n", .int (10 ^ maxDigits))] }) := by
  refine ⟨⟨List.nodup_singleton "n", trivial, trivial⟩, fun hkept => ?_⟩
  obtain ⟨fields, hfields, -⟩ := hkept
  have hshort : ((10 : ℤ) ^ maxDigits).natAbs < 10 ^ maxDigits :=
    ((@serialize_ok halfway written _ _).mp hfields).1.2.2.1
  have habs : ((10 : ℤ) ^ maxDigits).natAbs = 10 ^ maxDigits := by
    rw [Int.natAbs_pow, show (10 : ℤ).natAbs = 10 from rfl]
  rw [habs] at hshort
  exact lt_irrefl _ hshort

end WezuBackend.Streams.EventCodec
