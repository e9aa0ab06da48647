import WezuBackend.Streams.Events
import Mathlib.Algebra.Order.Ring.Rat

/-!
# Batches of telemetry

`_process_telematics_batch`.  It takes the Redis key of every message first, skips a message whose
key is taken, then persists the rest in one transaction and reports which messages were successful.

* `collect_ok`: what the first pass reports and which keys it takes.
* A persist that fails takes back what was persisted before it, but those messages stay reported as
  successful; and the messages after it are reported as failed, but their keys stay
  (`batch_reported_wrong`).  `batch_honest_iff` says exactly when the report is right.
-/

namespace WezuBackend.Streams.Telematics

open Core.Base Streams.Events Lib.Tables

/-! ## The store -/

/-- `TelemeticsDataIngest`; the time is its `isoformat`. -/
structure TelemetryIngest where
  batteryId : ℤ
  timestamp : Option String := none
  voltage : ℚ
  current : ℚ
  temperature : ℚ
  soc : ℚ
  soh : ℚ := 100
  gpsLatitude : Option ℚ := none
  gpsLongitude : Option ℚ := none
  gpsAltitude : Option ℚ := none
  gpsSpeed : Option ℚ := none
  deriving DecidableEq

structure Battery where
  id : ℤ
  deriving DecidableEq

instance : Row Battery ℤ := ⟨Battery.id⟩

/-- A row of `telemetics_data`, with the id of the event it is from. -/
structure TelemetryRow where
  dedupeId : String
  timestamp : String
  data : TelemetryIngest
  deriving DecidableEq

structure BatteryHealthLog where
  batteryId : ℤ
  chargePercentage : ℚ
  voltage : ℚ
  current : ℚ
  temperature : ℚ
  cycleCount : ℕ := 0
  healthPercentage : ℚ
  latitude : Option ℚ
  longitude : Option ℚ
  timestamp : String
  deriving DecidableEq

structure BatteryLifecycleEvent where
  batteryId : ℤ
  eventType : String
  deriving DecidableEq

structure Db where
  batteries : Table Battery := .empty
  telemetry : List TelemetryRow := []
  healthLogs : List BatteryHealthLog := []
  lifecycleEvents : List BatteryLifecycleEvent := []

def alertEvents (data : TelemetryIngest) : List BatteryLifecycleEvent :=
  (if 45 < data.temperature then [⟨data.batteryId, "alert_overheating"⟩] else []) ++
    if data.soc < 10 then [⟨data.batteryId, "alert_low_battery"⟩] else []

/-- `persist_telemetry`, without its commit.  An error is its text; `failure` is one of the
battery's snapshot or of the flush. -/
def persistTelemetry (now dedupeId : String) (data : TelemetryIngest) (failure : Option String)
    (db : Db) : Except String Db :=
  if ∀ b ∈ db.batteries, b.id ≠ data.batteryId then .error "404: Battery not found"
  else
    match failure with
    | some e => .error e
    | none =>
      let timestamp := (truthy data.timestamp).getD now
      .ok { db with
        telemetry := db.telemetry ++ [⟨dedupeId, timestamp, data⟩]
        healthLogs := db.healthLogs ++ [
          { batteryId := data.batteryId, chargePercentage := data.soc, voltage := data.voltage
            current := data.current, temperature := data.temperature, healthPercentage := data.soh
            latitude := data.gpsLatitude, longitude := data.gpsLongitude, timestamp }]
        lifecycleEvents := db.lifecycleEvents ++ alertEvents data }

/-! ## The batch -/

/-- The keys that are set; `none` without a client. -/
abbrev Keys : Type := Option (List String)

def acquireOnce (dedupeId : String) : Keys → Bool × Keys
  | none => (true, none)
  | some ids => if dedupeId ∈ ids then (false, some ids) else (true, some (dedupeId :: ids))

def releaseOnce (dedupeId : String) (keys : Keys) : Keys :=
  keys.map fun ids => ids.filter fun id => id ≠ dedupeId

/-- A message to persist. -/
structure Acquired where
  message : StreamMessage
  data : TelemetryIngest
  dedupeId : String
  deriving DecidableEq

structure Report where
  successful : List StreamMessage := []
  failed : List (StreamMessage × String) := []
  deriving DecidableEq

/-- What the first pass has collected. -/
structure Collected where
  keys : Keys
  report : Report := {}
  acquired : List Acquired := []

section

variable [JsonText]

/-- The data of a message, and the id it is deduplicated by. -/
def prepare (modelValidate : Json → Except String TelemetryIngest) (event : Event) :
    Except String (TelemetryIngest × String) := do
  let data ← modelValidate event.payload.orEmpty
  match truthy event.idempotencyKey, data.timestamp with
  | some key, _ => return (data, key)
  | none, some timestamp => return (data, s!"{data.batteryId}:{timestamp}")
  | none, none => throw "'NoneType' object has no attribute 'isoformat'"

/-- The first pass. -/
def collect (modelValidate : Json → Except String TelemetryIngest) :
    List StreamMessage → Collected → Except Exc Unit × Collected
  | [], c => (.ok (), c)
  | message :: messages, c =>
    match deserializeEvent message.fields with
    | .error e => (.error e, c)
    | .ok event =>
      match prepare modelValidate event with
      | .error e => collect modelValidate messages
          { c with report := { c.report with failed := c.report.failed ++ [(message, e)] } }
      | .ok (data, dedupeId) =>
        match acquireOnce dedupeId c.keys with
        | (false, keys) => collect modelValidate messages
            { c with
              keys
              report := { c.report with successful := c.report.successful ++ [message] } }
        | (true, keys) => collect modelValidate messages
            { c with keys, acquired := c.acquired ++ [⟨message, data, dedupeId⟩] }

end

/-- What a batch leaves. -/
structure Result where
  report : Report
  keys : Keys
  db : Db

/-- What fails in the second pass. -/
structure Failures where
  persist : StreamMessage → Option String := fun _ => none
  commit : Option String := none

/-- The failing commit: everything is moved to the failed messages. -/
def failAll (e : String) : List Acquired → Report → Keys → Report × Keys
  | [], report, keys => (report, keys)
  | a :: as, report, keys =>
    failAll e as ⟨report.successful.erase a.message, report.failed ++ [(a.message, e)]⟩
      (releaseOnce a.dedupeId keys)

/-- The second pass; `committed` is what a rollback goes back to. -/
def persistAll (now : String) (failures : Failures) (committed : Db) (acquired : List Acquired) :
    List Acquired → Db → Report → Keys → Result
  | [], working, report, keys =>
    match failures.commit with
    | none => ⟨report, keys, working⟩
    | some e =>
      let (report, keys) := failAll e acquired report keys
      ⟨report, keys, committed⟩
  | a :: as, working, report, keys =>
    match persistTelemetry now a.dedupeId a.data (failures.persist a.message) working with
    | .ok working => persistAll now failures committed acquired as working
        { report with successful := report.successful ++ [a.message] } keys
    | .error e =>
      let rest := acquired.filter fun b => b.message ∉ report.successful ∧ b.message ≠ a.message
      let failed := report.failed ++ [(a.message, e)] ++
        rest.map fun b => (b.message, "Batch aborted due to previous error")
      ⟨{ report with failed }, releaseOnce a.dedupeId keys, committed⟩

def processTelematicsBatch [JsonText] (modelValidate : Json → Except String TelemetryIngest)
    (now : String) (failures : Failures) (messages : List StreamMessage) (keys : Keys) (db : Db) :
    Except Exc Report × Keys × Db :=
  match collect modelValidate messages { keys } with
  | (.error e, c) => (.error e, c.keys, db)
  | (.ok (), c) =>
    let result := persistAll now failures db c.acquired c.acquired db c.report c.keys
    (.ok result.report, result.keys, result.db)

/-! ## The events of a batch -/

/-- The key is set. -/
def Taken (dedupeId : String) (keys : Keys) : Prop := ∃ ids ∈ keys, dedupeId ∈ ids

instance (dedupeId : String) (keys : Keys) : Decidable (Taken dedupeId keys) :=
  decidable_of_iff (dedupeId ∈ keys.getD []) (by cases keys <;> simp [Taken])

def mark (dedupeId : String) (keys : Keys) : Keys := keys.map fun ids => dedupeId :: ids

theorem acquireOnce_eq (dedupeId : String) (keys : Keys) : acquireOnce dedupeId keys =
    if Taken dedupeId keys then (false, keys) else (true, mark dedupeId keys) := by
  unfold acquireOnce Taken mark
  rcases keys with _ | ids
  · simp
  · by_cases h : dedupeId ∈ ids <;> simp [h]

variable {keys : Keys}

theorem taken_mark {i j : String} : Taken i (mark j keys) ↔
    Taken i keys ∨ i = j ∧ keys ≠ none := by
  unfold Taken mark
  rcases keys with _ | ids
  · simp
  · simp [or_comm]

theorem taken_releaseOnce {i j : String} :
    Taken i (releaseOnce j keys) ↔ Taken i keys ∧ i ≠ j := by
  unfold Taken releaseOnce
  rcases keys with _ | ids <;> simp

def markAll (as : List Acquired) (keys : Keys) : Keys :=
  as.foldl (fun keys a => mark a.dedupeId keys) keys

variable {as : List Acquired}

theorem taken_markAll {i : String} : Taken i (markAll as keys) ↔
    Taken i keys ∨ i ∈ as.map Acquired.dedupeId ∧ keys ≠ none := by
  induction as generalizing keys with
  | nil => simp [markAll]
  | cons a as ih =>
    have hnone : mark a.dedupeId keys ≠ none ↔ keys ≠ none := by cases keys <;> simp [mark]
    have hcons : markAll (a :: as) keys = markAll as (mark a.dedupeId keys) := rfl
    rw [hcons, ih, taken_mark, hnone, List.map_cons, List.mem_cons]
    tauto

section

variable [JsonText] {modelValidate : Json → Except String TelemetryIngest}

/-- What a message asks to persist. -/
def prepared (modelValidate : Json → Except String TelemetryIngest) (message : StreamMessage) :
    Option Acquired :=
  match deserializeEvent message.fields with
  | .error _ => none
  | .ok event =>
    match prepare modelValidate event with
    | .error _ => none
    | .ok (data, dedupeId) => some ⟨message, data, dedupeId⟩

/-- The messages of events whose key is not set, one for each event. -/
def newEvents (modelValidate : Json → Except String TelemetryIngest) :
    Keys → List StreamMessage → List Acquired
  | _, [] => []
  | keys, message :: messages =>
    match prepared modelValidate message with
    | none => newEvents modelValidate keys messages
    | some a =>
      if Taken a.dedupeId keys then newEvents modelValidate keys messages
      else a :: newEvents modelValidate (mark a.dedupeId keys) messages

def Readable (messages : List StreamMessage) : Prop :=
  ∀ m ∈ messages, ∃ event, deserializeEvent m.fields = .ok event

variable {a : Acquired}

theorem message_of_prepared {m : StreamMessage}
    (h : prepared modelValidate m = some a) : a.message = m := by
  unfold prepared at h
  split at h
  · cases h
  · split at h
    · cases h
    · cases h
      rfl

variable {messages : List StreamMessage}

theorem prepared_of_newEvents (h : a ∈ newEvents modelValidate keys messages) :
    a.message ∈ messages ∧ prepared modelValidate a.message = some a := by
  induction messages generalizing keys with
  | nil => cases h
  | cons m ms ih =>
    unfold newEvents at h
    rcases hm : prepared modelValidate m with _ | b
    · rw [hm] at h
      exact (ih h).imp_left (List.mem_cons_of_mem m)
    · rw [hm] at h
      dsimp only at h
      split_ifs at h with htaken
      · exact (ih h).imp_left (List.mem_cons_of_mem m)
      · rcases List.mem_cons.mp h with rfl | h
        · rw [message_of_prepared hm]
          exact ⟨List.mem_cons_self, hm⟩
        · exact (ih h).imp_left (List.mem_cons_of_mem m)

theorem not_taken_of_newEvents
    (h : a ∈ newEvents modelValidate keys messages) : ¬ Taken a.dedupeId keys := by
  induction messages generalizing keys with
  | nil => cases h
  | cons m ms ih =>
    unfold newEvents at h
    rcases hm : prepared modelValidate m with _ | b
    · rw [hm] at h
      exact ih h
    · rw [hm] at h
      dsimp only at h
      split_ifs at h with htaken
      · exact ih h
      · rcases List.mem_cons.mp h with rfl | h
        · exact htaken
        · exact fun ht => ih h (taken_mark.mpr (.inl ht))

variable (modelValidate) in
theorem nodup_newEvents (hkeys : keys ≠ none) (messages : List StreamMessage) :
    ((newEvents modelValidate keys messages).map Acquired.dedupeId).Nodup := by
  induction messages generalizing keys with
  | nil => exact List.nodup_nil
  | cons m ms ih =>
    unfold newEvents
    rcases hm : prepared modelValidate m with _ | b
    · exact ih hkeys
    · dsimp only
      split_ifs with htaken
      · exact ih hkeys
      · have hmark : mark b.dedupeId keys ≠ none := by
          rcases keys with _ | ids
          · exact absurd rfl hkeys
          · exact nofun
        rw [List.map_cons, List.nodup_cons]
        refine ⟨fun hmem => ?_, ih hmark⟩
        obtain ⟨a, ha, hid⟩ := List.mem_map.mp hmem
        exact not_taken_of_newEvents ha (taken_mark.mpr (.inr ⟨hid, hkeys⟩))

/-! ## The first pass -/

/-- **What the first pass collects**: it acquires the new events; it skips, as successful, the other
messages that ask to persist something; and the rest has failed. -/
structure Collects (modelValidate : Json → Except String TelemetryIngest)
    (messages : List StreamMessage) (c c' : Collected) : Prop where
  acquired : c'.acquired = c.acquired ++ newEvents modelValidate c.keys messages
  keys : c'.keys = markAll (newEvents modelValidate c.keys messages) c.keys
  successful : ∀ m, m ∈ c'.report.successful ↔ m ∈ c.report.successful ∨
    m ∈ messages ∧ ∃ a ∈ prepared modelValidate m, a ∉ newEvents modelValidate c.keys messages
  failed : ∀ m, m ∈ c'.report.failed.map Prod.fst ↔ m ∈ c.report.failed.map Prod.fst ∨
    m ∈ messages ∧ prepared modelValidate m = none

theorem collect_cons {m : StreamMessage} {ms : List StreamMessage} {c : Collected} {event : Event}
    (hevent : deserializeEvent m.fields = .ok event) :
    (prepared modelValidate m = none ∧ ∃ e, collect modelValidate (m :: ms) c =
      collect modelValidate ms
        { c with report := { c.report with failed := c.report.failed ++ [(m, e)] } }) ∨
    ∃ a, prepared modelValidate m = some a ∧
      collect modelValidate (m :: ms) c =
        if Taken a.dedupeId c.keys then collect modelValidate ms
          { c with report := { c.report with successful := c.report.successful ++ [m] } }
        else collect modelValidate ms
          { c with keys := mark a.dedupeId c.keys, acquired := c.acquired ++ [a] } := by
  unfold prepared
  rw [hevent]
  dsimp only
  rcases hprepare : prepare modelValidate event with e | ⟨data, dedupeId⟩
  · refine .inl ⟨rfl, e, ?_⟩
    rw [collect, hevent]
    dsimp only
    rw [hprepare]
  · refine .inr ⟨_, rfl, ?_⟩
    rw [collect, hevent]
    dsimp only
    rw [hprepare]
    dsimp only
    rw [acquireOnce_eq]
    by_cases htaken : Taken dedupeId c.keys
    · rw [if_pos htaken, if_pos htaken]
    · rw [if_neg htaken, if_neg htaken]

variable (modelValidate) in
theorem collect_ok (hread : Readable messages) (hnodup : messages.Nodup) (c : Collected) :
    ∃ c', collect modelValidate messages c = (.ok (), c') ∧
      Collects modelValidate messages c c' := by
  induction messages generalizing c with
  | nil =>
    exact ⟨c, rfl, by simp [newEvents], by simp [newEvents, markAll], by simp, by simp⟩
  | cons m ms ih =>
    obtain ⟨event, hevent⟩ := hread m List.mem_cons_self
    have hread' : Readable ms := fun x hx => hread x (List.mem_cons_of_mem m hx)
    obtain ⟨hm, hnodup'⟩ := List.nodup_cons.mp hnodup
    rcases collect_cons hevent with ⟨hnone, e, hrun⟩ | ⟨a, hsome, hrun⟩
    · have hnew : newEvents modelValidate c.keys (m :: ms) = newEvents modelValidate c.keys ms := by
        rw [newEvents, hnone]
      obtain ⟨c', hrun', h⟩ := ih hread' hnodup'
        { c with report := { c.report with failed := c.report.failed ++ [(m, e)] } }
      refine ⟨c', hrun.trans hrun', ?_, ?_, fun x => ?_, fun x => ?_⟩
      · rw [hnew, h.acquired]
      · rw [hnew, h.keys]
      · rw [hnew, h.successful, List.mem_cons]
        constructor
        · rintro (hx | ⟨hx, hskip⟩)
          · exact .inl hx
          · exact .inr ⟨.inr hx, hskip⟩
        · rintro (hx | ⟨rfl | hx, b, hb, hskip⟩)
          · exact .inl hx
          · rw [hnone] at hb
            cases hb
          · exact .inr ⟨hx, b, hb, hskip⟩
      · rw [h.failed, List.map_append, List.mem_append, List.map_singleton, List.mem_singleton,
          List.mem_cons]
        constructor
        · rintro ((hx | rfl) | ⟨hx, hnone'⟩)
          · exact .inl hx
          · exact .inr ⟨.inl rfl, hnone⟩
          · exact .inr ⟨.inr hx, hnone'⟩
        · rintro (hx | ⟨rfl | hx, hnone'⟩)
          · exact .inl (.inl hx)
          · exact .inl (.inr rfl)
          · exact .inr ⟨hx, hnone'⟩
    · have hfailed : ∀ c' : Collected, (∀ x, x ∈ c'.report.failed.map Prod.fst ↔
          x ∈ c.report.failed.map Prod.fst ∨ x ∈ ms ∧ prepared modelValidate x = none) →
          ∀ x, x ∈ c'.report.failed.map Prod.fst ↔ x ∈ c.report.failed.map Prod.fst ∨
            x ∈ m :: ms ∧ prepared modelValidate x = none := by
        intro c' h x
        rw [h, List.mem_cons]
        constructor
        · rintro (hx | ⟨hx, hnone⟩)
          · exact .inl hx
          · exact .inr ⟨.inr hx, hnone⟩
        · rintro (hx | ⟨rfl | hx, hnone⟩)
          · exact .inl hx
          · rw [hsome] at hnone
            cases hnone
          · exact .inr ⟨hx, hnone⟩
      by_cases htaken : Taken a.dedupeId c.keys
      · have hnew : newEvents modelValidate c.keys (m :: ms) =
            newEvents modelValidate c.keys ms := by
          rw [newEvents, hsome]
          exact if_pos htaken
        rw [if_pos htaken] at hrun
        obtain ⟨c', hrun', h⟩ := ih hread' hnodup'
          { c with report := { c.report with successful := c.report.successful ++ [m] } }
        refine ⟨c', hrun.trans hrun', ?_, ?_, fun x => ?_, hfailed c' h.failed⟩
        · rw [hnew, h.acquired]
        · rw [hnew, h.keys]
        · rw [hnew, h.successful, List.mem_append, List.mem_singleton, List.mem_cons]
          constructor
          · rintro ((hx | rfl) | ⟨hx, hskip⟩)
            · exact .inl hx
            · exact .inr ⟨.inl rfl, a, hsome, fun ha => not_taken_of_newEvents ha htaken⟩
            · exact .inr ⟨.inr hx, hskip⟩
          · rintro (hx | ⟨rfl | hx, hskip⟩)
            · exact .inl (.inl hx)
            · exact .inl (.inr rfl)
            · exact .inr ⟨hx, hskip⟩
      · have hnew : newEvents modelValidate c.keys (m :: ms) =
            a :: newEvents modelValidate (mark a.dedupeId c.keys) ms := by
          rw [newEvents, hsome]
          exact if_neg htaken
        rw [if_neg htaken] at hrun
        obtain ⟨c', hrun', h⟩ := ih hread' hnodup'
          { c with keys := mark a.dedupeId c.keys, acquired := c.acquired ++ [a] }
        refine ⟨c', hrun.trans hrun', ?_, ?_, fun x => ?_, hfailed c' h.failed⟩
        · rw [hnew, h.acquired, List.append_assoc, List.singleton_append]
        · rw [hnew, h.keys]
          rfl
        · rw [hnew, h.successful, List.mem_cons]
          constructor
          · rintro (hx | ⟨hx, b, hb, hskip⟩)
            · exact .inl hx
            · refine .inr ⟨.inr hx, b, hb, fun hmem => ?_⟩
              rcases List.mem_cons.mp hmem with rfl | hmem
              · have hsame : x = m :=
                  (message_of_prepared hb).symm.trans (message_of_prepared hsome)
                exact hm (hsame ▸ hx)
              · exact hskip hmem
          · rintro (hx | ⟨rfl | hx, b, hb, hskip⟩)
            · exact .inl hx
            · rw [hsome] at hb
              exact absurd (Option.some.inj hb ▸ List.mem_cons_self) hskip
            · exact .inr ⟨hx, b, hb, fun hmem => hskip (List.mem_cons_of_mem a hmem)⟩

variable (modelValidate) in
theorem collect_error (hread : ¬ Readable messages) (c : Collected) :
    ∃ e c', collect modelValidate messages c = (.error e, c') := by
  induction messages generalizing c with
  | nil => exact absurd (fun m hm => absurd hm List.not_mem_nil) hread
  | cons m ms ih =>
    rcases hevent : deserializeEvent m.fields with e | event
    · refine ⟨e, c, ?_⟩
      rw [collect, hevent]
    · have hread' : ¬ Readable ms := fun h => hread fun x hx => by
        rcases List.mem_cons.mp hx with rfl | hx
        · exact ⟨event, hevent⟩
        · exact h x hx
      rcases collect_cons hevent with ⟨-, e, hrun⟩ | ⟨a, -, hrun⟩
      · rw [hrun]
        exact ih hread' _
      · rw [hrun]
        split_ifs
        · exact ih hread' _
        · exact ih hread' _

end

/-! ## The second pass -/

/-- Why persisting the event would fail. -/
def persistError (db : Db) (failures : Failures) (a : Acquired) : Option String :=
  if ∀ b ∈ db.batteries, b.id ≠ a.data.batteryId then some "404: Battery not found"
  else failures.persist a.message

/-- The event has been persisted. -/
def Known (db : Db) (dedupeId : String) : Prop := ∃ row ∈ db.telemetry, row.dedupeId = dedupeId

instance (db : Db) (dedupeId : String) : Decidable (Known db dedupeId) := by
  unfold Known
  infer_instance

section

variable {now : String} {failures : Failures} {committed working : Db} {acquired : List Acquired}

theorem persistTelemetry_cases (now : String) (failures : Failures) (a : Acquired) (working : Db) :
    (∃ e, persistError working failures a = some e ∧
      persistTelemetry now a.dedupeId a.data (failures.persist a.message) working = .error e) ∨
    persistError working failures a = none ∧ ∃ working' row,
      persistTelemetry now a.dedupeId a.data (failures.persist a.message) working = .ok working' ∧
      working'.batteries = working.batteries ∧ working'.telemetry = working.telemetry ++ [row] ∧
      row.dedupeId = a.dedupeId := by
  unfold persistError persistTelemetry
  by_cases hbattery : ∀ b ∈ working.batteries, b.id ≠ a.data.batteryId
  · rw [if_pos hbattery, if_pos hbattery]
    exact .inl ⟨_, rfl, rfl⟩
  · rw [if_neg hbattery, if_neg hbattery]
    rcases failures.persist a.message with _ | e
    · exact .inr ⟨rfl, _, _, rfl, rfl, rfl, rfl⟩
    · exact .inl ⟨e, rfl, rfl⟩

theorem persistError_congr {db db' : Db} (h : db.batteries = db'.batteries) :
    persistError db failures = persistError db' failures := by
  unfold persistError
  rw [h]

theorem exists_first {db : Db} (h : ∃ a ∈ as, persistError db failures a ≠ none) :
    ∃ pre a post, as = pre ++ a :: post ∧ (∀ b ∈ pre, persistError db failures b = none) ∧
      persistError db failures a ≠ none := by
  rcases hfind : as.find? fun a => persistError db failures a ≠ none with _ | a
  · obtain ⟨a, ha, hne⟩ := h
    exact absurd (decide_eq_true hne) (List.find?_eq_none.mp hfind a ha)
  · obtain ⟨ha, pre, post, hsplit, hpre⟩ := List.find?_eq_some_iff_append.mp hfind
    refine ⟨pre, a, post, hsplit, fun b hb => ?_, of_decide_eq_true ha⟩
    simpa using hpre b hb

theorem persistAll_append (post : List Acquired) (report : Report) (keys : Keys)
    (h : ∀ a ∈ as, persistError working failures a = none) :
    ∃ working', working'.batteries = working.batteries ∧
      (∀ i, Known working' i ↔ Known working i ∨ i ∈ as.map Acquired.dedupeId) ∧
      persistAll now failures committed acquired (as ++ post) working report keys =
        persistAll now failures committed acquired post working'
          { report with successful := report.successful ++ as.map Acquired.message } keys := by
  induction as generalizing working report with
  | nil => exact ⟨working, rfl, by simp, by rw [List.map_nil, List.append_nil, List.nil_append]⟩
  | cons a as ih =>
    rcases persistTelemetry_cases now failures a working with
      ⟨e, herror, -⟩ | ⟨-, working', row, hrun, hbatteries, htelemetry, hid⟩
    · rw [h a List.mem_cons_self] at herror
      cases herror
    · have h' : ∀ b ∈ as, persistError working' failures b = none := fun b hb => by
        rw [persistError_congr hbatteries]
        exact h b (List.mem_cons_of_mem a hb)
      obtain ⟨working'', hbatteries', hknown, hrest⟩ :=
        ih { report with successful := report.successful ++ [a.message] } h'
      refine ⟨working'', hbatteries'.trans hbatteries, fun i => ?_, ?_⟩
      · have hstep : Known working' i ↔ Known working i ∨ i = a.dedupeId := by
          unfold Known
          rw [htelemetry]
          simp only [List.mem_append, List.mem_singleton, or_and_right, exists_or, exists_eq_left,
            hid]
          rw [eq_comm]
        rw [hknown, hstep, List.map_cons, List.mem_cons, or_assoc]
      · rw [List.cons_append, persistAll, hrun]
        dsimp only
        rw [hrest, List.map_cons, List.append_assoc, List.singleton_append]

variable (now) in
theorem persistAll_ok (report : Report) (keys : Keys)
    (h : ∀ a ∈ acquired, persistError committed failures a = none)
    (hcommit : failures.commit = none) :
    ∃ db, (∀ i, Known db i ↔ Known committed i ∨ i ∈ acquired.map Acquired.dedupeId) ∧
      persistAll now failures committed acquired acquired committed report keys =
        ⟨{ report with successful := report.successful ++ acquired.map Acquired.message },
          keys, db⟩ := by
  obtain ⟨db, -, hknown, hrun⟩ := persistAll_append [] report keys h
  rw [List.append_nil] at hrun
  refine ⟨db, hknown, ?_⟩
  rw [hrun, persistAll, hcommit]

theorem append_diff (l l' : List StreamMessage) : (l ++ l').diff l = l' := by
  induction l with
  | nil => rfl
  | cons m l ih => rw [List.cons_append, List.diff_cons, List.erase_cons_head, ih]

theorem failAll_eq (e : String) (as : List Acquired) (report : Report) (keys : Keys) :
    failAll e as report keys =
      (⟨report.successful.diff (as.map Acquired.message),
        report.failed ++ as.map (fun a => (a.message, e))⟩,
        as.foldl (fun keys a => releaseOnce a.dedupeId keys) keys) := by
  induction as generalizing report keys with
  | nil => simp [failAll]
  | cons a as ih => simp [failAll, ih]

theorem taken_releaseAll {i : String} :
    Taken i (as.foldl (fun keys a => releaseOnce a.dedupeId keys) keys) ↔
      Taken i keys ∧ i ∉ as.map Acquired.dedupeId := by
  induction as generalizing keys with
  | nil => simp
  | cons a as ih =>
    rw [List.foldl_cons, ih, taken_releaseOnce, List.map_cons, List.mem_cons]
    tauto

variable (now) in
theorem persistAll_commit {e : String} (report : Report) (keys : Keys)
    (h : ∀ a ∈ acquired, persistError committed failures a = none)
    (hcommit : failures.commit = some e) :
    persistAll now failures committed acquired acquired committed report keys =
      ⟨⟨(report.successful ++ acquired.map Acquired.message).diff (acquired.map Acquired.message),
          report.failed ++ acquired.map (fun a => (a.message, e))⟩,
        acquired.foldl (fun keys a => releaseOnce a.dedupeId keys) keys, committed⟩ := by
  obtain ⟨db, -, -, hrun⟩ := persistAll_append [] report keys h
  rw [List.append_nil] at hrun
  rw [hrun, persistAll, hcommit]
  dsimp only
  rw [failAll_eq]

variable (now acquired) in
theorem persistAll_persist {pre : List Acquired} (post : List Acquired) {a : Acquired} {e : String}
    (report : Report)
    (keys : Keys) (hpre : ∀ b ∈ pre, persistError committed failures b = none)
    (ha : persistError committed failures a = some e) :
    ∃ failed, persistAll now failures committed acquired (pre ++ a :: post) committed report keys =
        ⟨⟨report.successful ++ pre.map Acquired.message, report.failed ++
          [(a.message, e)] ++ failed⟩,
          releaseOnce a.dedupeId keys, committed⟩ ∧
      failed = (acquired.filter fun b =>
        b.message ∉ report.successful ++ pre.map Acquired.message ∧ b.message ≠ a.message).map
          fun b => (b.message, "Batch aborted due to previous error") := by
  obtain ⟨working, hbatteries, -, hrun⟩ := persistAll_append (a :: post) report keys hpre
  rw [← persistError_congr hbatteries] at ha
  rcases persistTelemetry_cases now failures a working with ⟨e', he', herror⟩ | ⟨hnone, -⟩
  · rw [he'] at ha
    obtain rfl := Option.some.inj ha
    refine ⟨_, ?_, rfl⟩
    rw [hrun, persistAll, herror]
  · rw [hnone] at ha
    cases ha

end

/-! ## The report -/

section

variable [JsonText] {modelValidate : Json → Except String TelemetryIngest}

def Skips (modelValidate : Json → Except String TelemetryIngest) (messages : List StreamMessage)
    (keys : Keys) (m : StreamMessage) (a : Acquired) : Prop :=
  m ∈ messages ∧ prepared modelValidate m = some a ∧ a ∉ newEvents modelValidate keys messages

/-- **The report is right**: what is reported as successful is persisted, or a duplicate of what is;
and what is reported as failed is not skipped when it is processed again. -/
def Honest (modelValidate : Json → Except String TelemetryIngest) (report : Report) (keys : Keys)
    (db : Db) : Prop :=
  (∀ m ∈ report.successful, ∃ a, prepared modelValidate m = some a ∧ Known db a.dedupeId) ∧
  ∀ p ∈ report.failed, ∀ a, prepared modelValidate p.1 = some a → ¬ Taken a.dedupeId keys

def RollsBack (failures : Failures) (db : Db) (new : List Acquired) : Prop :=
  (∃ a ∈ new, persistError db failures a ≠ none) ∨ failures.commit ≠ none

structure ReportsRight (modelValidate : Json → Except String TelemetryIngest) (failures : Failures)
    (messages : List StreamMessage) (keys : Keys) (db : Db) : Prop where
  /-- the events whose keys were set have been persisted -/
  duplicates : ∀ m a, Skips modelValidate messages keys m a → Taken a.dedupeId keys →
    Known db a.dedupeId
  /-- if something is rolled back, the batch repeats no event -/
  repeats : RollsBack failures db (newEvents modelValidate keys messages) →
    ∀ m a, Skips modelValidate messages keys m a → Known db a.dedupeId
  /-- a persist that fails is the only one -/
  alone : ∀ pre a post, newEvents modelValidate keys messages = pre ++ a :: post →
    (∀ b ∈ pre, persistError db failures b = none) → persistError db failures a ≠ none →
    (∀ b ∈ pre, Known db b.dedupeId) ∧ (post = [] ∨ keys = none)

/-- The key of a skipped message is taken by the end of the first pass. -/
theorem taken_of_skips {messages : List StreamMessage} {m : StreamMessage} {a : Acquired}
    (h : Skips modelValidate messages keys m a) : Taken a.dedupeId keys ∨
      a.dedupeId ∈ (newEvents modelValidate keys messages).map Acquired.dedupeId := by
  obtain ⟨hm, hsome, hskip⟩ := h
  induction messages generalizing keys with
  | nil => cases hm
  | cons x xs ih =>
    rw [newEvents] at hskip ⊢
    rcases hx : prepared modelValidate x with _ | b
    · rw [hx] at hskip
      rcases List.mem_cons.mp hm with rfl | hm
      · rw [hx] at hsome
        cases hsome
      · exact ih hm hskip
    · rw [hx] at hskip
      dsimp only at hskip ⊢
      by_cases htaken : Taken b.dedupeId keys
      · rw [if_pos htaken] at hskip ⊢
        rcases List.mem_cons.mp hm with rfl | hm
        · obtain rfl := Option.some.inj (hsome.symm.trans hx)
          exact .inl htaken
        · exact ih hm hskip
      · rw [if_neg htaken] at hskip ⊢
        rw [List.mem_cons, not_or] at hskip
        rcases List.mem_cons.mp hm with rfl | hm
        · exact absurd (Option.some.inj (hsome.symm.trans hx)) hskip.1
        · rw [List.map_cons, List.mem_cons]
          rcases ih hm hskip.2 with h | h
          · rcases taken_mark.mp h with h | ⟨h, -⟩
            · exact .inl h
            · exact .inr (.inl h)
          · exact .inr (.inr h)

variable {now : String} {failures : Failures} {messages : List StreamMessage}
  {keys : Keys} {db : Db}
  {c : Collected}

theorem skips_iff (hc : Collects modelValidate messages { keys } c) {m : StreamMessage} :
    m ∈ c.report.successful ↔ ∃ a, Skips modelValidate messages keys m a := by
  rw [hc.successful]
  constructor
  · rintro (hm | ⟨hm, a, hsome, hskip⟩)
    · cases hm
    · exact ⟨a, hm, hsome, hskip⟩
  · rintro ⟨a, hm, hsome, hskip⟩
    exact .inr ⟨hm, a, hsome, hskip⟩

theorem prepared_of_failed (hc : Collects modelValidate messages { keys } c)
    {p : StreamMessage × String} (hp : p ∈ c.report.failed) :
    prepared modelValidate p.1 = none := by
  rcases (hc.failed p.1).mp (List.mem_map_of_mem hp) with hp | ⟨-, hp⟩
  · cases hp
  · exact hp

variable {r : Result}

/-- Nothing fails: the report is right if the keys that were set are of persisted events. -/
theorem honest_ok (hc : Collects modelValidate messages { keys } c)
    (hno : ¬ RollsBack failures db c.acquired)
    (hr : persistAll now failures db c.acquired c.acquired db c.report c.keys = r) :
    Honest modelValidate r.report r.keys r.db ↔
      ∀ m a, Skips modelValidate messages keys m a → Taken a.dedupeId keys →
        Known db a.dedupeId := by
  have hnew : c.acquired = newEvents modelValidate keys messages := hc.acquired
  have hpersist : ∀ a ∈ c.acquired, persistError db failures a = none := fun a ha => by
    by_contra h
    exact hno (.inl ⟨a, ha, h⟩)
  have hcommit : failures.commit = none := by
    by_contra h
    exact hno (.inr h)
  obtain ⟨db', hknown, hrun⟩ := persistAll_ok now c.report c.keys hpersist hcommit
  obtain rfl := hrun.symm.trans hr
  constructor
  · rintro ⟨hsuccessful, -⟩ m a hskip htaken
    obtain ⟨b, hb, hpersisted⟩ := hsuccessful m
      (List.mem_append_left _ ((skips_iff hc).mpr ⟨a, hskip⟩))
    obtain rfl := Option.some.inj (hskip.2.1.symm.trans hb)
    rcases (hknown _).mp hpersisted with h | h
    · exact h
    · obtain ⟨b, hb, hid⟩ := List.mem_map.mp h
      rw [hnew] at hb
      exact absurd (hid ▸ htaken) (not_taken_of_newEvents hb)
  · intro hduplicates
    refine ⟨fun m hm => ?_, fun p hp a ha => ?_⟩
    · rcases List.mem_append.mp hm with hm | hm
      · obtain ⟨a, hskip⟩ := (skips_iff hc).mp hm
        refine ⟨a, hskip.2.1, (hknown _).mpr ?_⟩
        rcases taken_of_skips hskip with htaken | hmem
        · exact .inl (hduplicates m a hskip htaken)
        · exact .inr (hnew ▸ hmem)
      · obtain ⟨a, ha, rfl⟩ := List.mem_map.mp hm
        exact ⟨a, (prepared_of_newEvents (hnew ▸ ha)).2,
          (hknown _).mpr (.inr (List.mem_map_of_mem ha))⟩
    · rw [prepared_of_failed hc hp] at ha
      cases ha

theorem eq_of_message {a b : Acquired} (ha : a ∈ newEvents modelValidate keys messages)
    (hb : b ∈ newEvents modelValidate keys messages) (h : a.message = b.message) : a = b := by
  have hsome := (prepared_of_newEvents ha).2
  rw [h, (prepared_of_newEvents hb).2] at hsome
  exact (Option.some.inj hsome).symm

theorem not_skips_of_newEvents {a b : Acquired} (ha : a ∈ newEvents modelValidate keys messages) :
    ¬ Skips modelValidate messages keys a.message b := by
  rintro ⟨-, hsome, hskip⟩
  rw [(prepared_of_newEvents ha).2] at hsome
  exact hskip (Option.some.inj hsome ▸ ha)

/-- The commit fails: the report is right if every event that is skipped has been persisted. -/
theorem honest_commit (hc : Collects modelValidate messages { keys } c)
    (hpersist : ∀ a ∈ c.acquired, persistError db failures a = none)
    (hcommit : failures.commit ≠ none)
    (hr : persistAll now failures db c.acquired c.acquired db c.report c.keys = r) :
    Honest modelValidate r.report r.keys r.db ↔
      ∀ m a, Skips modelValidate messages keys m a → Known db a.dedupeId := by
  have hnew : c.acquired = newEvents modelValidate keys messages := hc.acquired
  obtain ⟨e, he⟩ := Option.ne_none_iff_exists'.mp hcommit
  obtain rfl := (persistAll_commit now c.report c.keys hpersist he).symm.trans hr
  have hsuccessful : ∀ m, m ∈ (c.report.successful ++ c.acquired.map Acquired.message).diff
      (c.acquired.map Acquired.message) ↔ m ∈ c.report.successful := by
    intro m
    rw [((List.perm_append_comm).diff_right (c.acquired.map Acquired.message)).mem_iff, append_diff]
  constructor
  · rintro ⟨hhonest, -⟩ m a hskip
    obtain ⟨b, hb, hpersisted⟩ := hhonest m
      ((hsuccessful m).mpr ((skips_iff hc).mpr ⟨a, hskip⟩))
    obtain rfl := Option.some.inj (hskip.2.1.symm.trans hb)
    exact hpersisted
  · intro hrepeats
    refine ⟨fun m hm => ?_, fun p hp a ha htaken => ?_⟩
    · obtain ⟨a, hskip⟩ := (skips_iff hc).mp ((hsuccessful m).mp hm)
      exact ⟨a, hskip.2.1, hrepeats m a hskip⟩
    · obtain ⟨-, hreleased⟩ := taken_releaseAll.mp htaken
      rcases List.mem_append.mp hp with hp | hp
      · rw [prepared_of_failed hc hp] at ha
        cases ha
      · obtain ⟨b, hb, rfl⟩ := List.mem_map.mp hp
        have hsome := (prepared_of_newEvents (hnew ▸ hb)).2
        obtain rfl := Option.some.inj (hsome.symm.trans ha)
        exact hreleased (List.mem_map_of_mem hb)

/-- A persist fails: the report is right if all that is reported as successful has been persisted
before, and no other event is left. -/
theorem honest_persist (hc : Collects modelValidate messages { keys } c)
    {pre post : List Acquired} {a : Acquired}
    (hsplit : newEvents modelValidate keys messages = pre ++ a :: post)
    (hpre : ∀ b ∈ pre, persistError db failures b = none)
    (ha : persistError db failures a ≠ none)
    (hr : persistAll now failures db c.acquired c.acquired db c.report c.keys = r) :
    Honest modelValidate r.report r.keys r.db ↔
      (∀ m a, Skips modelValidate messages keys m a → Known db a.dedupeId) ∧
        (∀ b ∈ pre, Known db b.dedupeId) ∧ (post = [] ∨ keys = none) := by
  have hnew : c.acquired = newEvents modelValidate keys messages := hc.acquired
  obtain ⟨e, he⟩ := Option.ne_none_iff_exists'.mp ha
  have hmem : ∀ b, b ∈ newEvents modelValidate keys messages ↔ b ∈ pre ∨ b = a ∨ b ∈ post := by
    intro b
    rw [hsplit, List.mem_append, List.mem_cons]
  obtain ⟨failed, hrun, hfailed⟩ := persistAll_persist now c.acquired post
    c.report c.keys hpre he
  rw [← hsplit, ← hnew] at hrun
  obtain rfl := hrun.symm.trans hr
  have hkeys : ∀ i, Taken i (releaseOnce a.dedupeId c.keys) ↔ (Taken i keys ∨
      i ∈ (newEvents modelValidate keys messages).map Acquired.dedupeId ∧ keys ≠ none) ∧
        i ≠ a.dedupeId := by
    intro i
    rw [taken_releaseOnce, hc.keys, taken_markAll]
  constructor
  · rintro ⟨hsuccessful, hagain⟩
    refine ⟨fun m b hskip => ?_, fun b hb => ?_, ?_⟩
    · obtain ⟨b', hb', hpersisted⟩ := hsuccessful m
        (List.mem_append_left _ ((skips_iff hc).mpr ⟨b, hskip⟩))
      obtain rfl := Option.some.inj (hskip.2.1.symm.trans hb')
      exact hpersisted
    · obtain ⟨b', hb', hpersisted⟩ := hsuccessful b.message
        (List.mem_append_right _ (List.mem_map_of_mem hb))
      have hsome := (prepared_of_newEvents ((hmem b).mpr (.inl hb))).2
      obtain rfl := Option.some.inj (hsome.symm.trans hb')
      exact hpersisted
    · by_contra hneither
      obtain ⟨hpost, hnone⟩ := not_or.mp hneither
      obtain ⟨b, hb⟩ := List.exists_mem_of_ne_nil post hpost
      have hbnew := (hmem b).mpr (.inr (.inr hb))
      have hanew := (hmem a).mpr (.inr (.inl rfl))
      -- the event is another one than those before it
      have hids := nodup_newEvents modelValidate hnone messages
      rw [hsplit, List.map_append, List.map_cons, List.nodup_append, List.nodup_cons] at hids
      obtain ⟨-, ⟨hafresh, -⟩, hdisjoint⟩ := hids
      have hbid := List.mem_map_of_mem (f := Acquired.dedupeId) hb
      have hba : b.dedupeId ≠ a.dedupeId := fun h => hafresh (h ▸ hbid)
      have hmessage : b.message ≠ a.message := fun h => hba (by rw [eq_of_message hbnew hanew h])
      have hfresh : b.message ∉ c.report.successful ++ pre.map Acquired.message := by
        rw [List.mem_append, not_or]
        refine ⟨fun h => ?_, fun h => ?_⟩
        · obtain ⟨b', hskip⟩ := (skips_iff hc).mp h
          exact not_skips_of_newEvents hbnew hskip
        · obtain ⟨b', hb', hsame⟩ := List.mem_map.mp h
          rw [eq_of_message ((hmem b').mpr (.inl hb')) hbnew hsame] at hb'
          exact hdisjoint _ (List.mem_map_of_mem hb') _ (List.mem_cons_of_mem _ hbid) rfl
      have hreported : (b.message, "Batch aborted due to previous error") ∈ failed := by
        rw [hfailed, hnew]
        refine List.mem_map.mpr ⟨b, List.mem_filter.mpr ⟨hbnew, ?_⟩, rfl⟩
        rw [decide_eq_true_eq]
        exact ⟨hfresh, hmessage⟩
      refine hagain _ (List.mem_append_right _ hreported) b (prepared_of_newEvents hbnew).2 ?_
      exact (hkeys _).mpr ⟨.inr ⟨List.mem_map_of_mem hbnew, hnone⟩, hba⟩
  · rintro ⟨hrepeats, hbefore, halone⟩
    refine ⟨fun m hm => ?_, fun p hp b hb htaken => ?_⟩
    · rcases List.mem_append.mp hm with hm | hm
      · obtain ⟨b, hskip⟩ := (skips_iff hc).mp hm
        exact ⟨b, hskip.2.1, hrepeats m b hskip⟩
      · obtain ⟨b, hb, rfl⟩ := List.mem_map.mp hm
        exact ⟨b, (prepared_of_newEvents ((hmem b).mpr (.inl hb))).2, hbefore b hb⟩
    · obtain ⟨htaken, hother⟩ := (hkeys _).mp htaken
      rcases List.mem_append.mp hp with hp | hp
      · rcases List.mem_append.mp hp with hp | hp
        · rw [prepared_of_failed hc hp] at hb
          cases hb
        · rw [List.mem_singleton.mp hp] at hb
          have hsome := (prepared_of_newEvents ((hmem a).mpr (.inr (.inl rfl)))).2
          exact hother (by rw [Option.some.inj (hb.symm.trans hsome)])
      · rw [hfailed, hnew] at hp
        obtain ⟨b', hb', rfl⟩ := List.mem_map.mp hp
        obtain ⟨hb', hrest⟩ := List.mem_filter.mp hb'
        rw [decide_eq_true_eq, List.mem_append, not_or] at hrest
        obtain rfl := Option.some.inj ((prepared_of_newEvents hb').2.symm.trans hb)
        rcases halone with rfl | hnone
        · rcases (hmem b').mp hb' with hmem' | rfl | hmem'
          · exact hrest.1.2 (List.mem_map_of_mem hmem')
          · exact hrest.2 rfl
          · cases hmem'
        · obtain ⟨ids, hids, -⟩ | ⟨-, hsome⟩ := htaken
          · rw [hnone] at hids
            cases hids
          · exact hsome hnone

/-- **Exactly when a batch reports right.** -/
theorem batch_honest_iff (modelValidate : Json → Except String TelemetryIngest) (now : String)
    (failures : Failures) (messages : List StreamMessage) (keys : Keys) (db : Db)
    (hnodup : messages.Nodup) :
    (∀ report keys' db', processTelematicsBatch modelValidate now failures messages keys db =
        (.ok report, keys', db') → Honest modelValidate report keys' db') ↔
      (Readable messages → ReportsRight modelValidate failures messages keys db) := by
  by_cases hread : Readable messages
  · obtain ⟨c, hcollect, hc⟩ := collect_ok modelValidate hread hnodup { keys }
    have hnew : c.acquired = newEvents modelValidate keys messages := hc.acquired
    obtain ⟨r, hr⟩ : ∃ r, persistAll now failures db c.acquired c.acquired db c.report c.keys = r :=
      ⟨_, rfl⟩
    have hrun : processTelematicsBatch modelValidate now failures messages keys db =
        (.ok r.report, r.keys, r.db) := by
      unfold processTelematicsBatch
      rw [hcollect]
      dsimp only
      rw [hr]
    have hleft :
      (∀ report keys' db', processTelematicsBatch modelValidate now failures messages keys
        db = (.ok report, keys', db') → Honest modelValidate report keys' db') ↔
          Honest modelValidate r.report r.keys r.db := by
      constructor
      · exact fun h => h _ _ _ hrun
      · rintro h report keys' db' heq
        rw [hrun] at heq
        cases heq
        exact h
    rw [hleft]
    constructor
    · rintro hhonest -
      by_cases hpersist : ∃ a ∈ c.acquired, persistError db failures a ≠ none
      · obtain ⟨pre, a, post, hsplit, hpre, ha⟩ := exists_first hpersist
        obtain ⟨hrepeats, -⟩ := (honest_persist hc (hnew ▸ hsplit) hpre ha hr).mp hhonest
        refine ⟨fun m a h _ => hrepeats m a h, fun _ => hrepeats,
          fun pre a post hsplit hpre ha => ?_⟩
        exact ((honest_persist hc hsplit hpre ha hr).mp hhonest).2
      · have hnone : ∀ a ∈ c.acquired, persistError db failures a = none := fun a ha => by
          by_contra h
          exact hpersist ⟨a, ha, h⟩
        have halone : ∀ pre a post, newEvents modelValidate keys messages = pre ++ a :: post →
            (∀ b ∈ pre, persistError db failures b = none) → persistError db failures a ≠ none →
            (∀ b ∈ pre, Known db b.dedupeId) ∧ (post = [] ∨ keys = none) :=
          fun pre a post hsplit _ ha => absurd (hnone a (by rw [hnew, hsplit]; simp)) ha
        by_cases hcommit : failures.commit = none
        · have hno : ¬ RollsBack failures db c.acquired :=
            not_or.mpr ⟨hpersist, not_not.mpr hcommit⟩
          exact ⟨(honest_ok hc hno hr).mp hhonest, fun h => absurd (hnew ▸ h) hno, halone⟩
        · have hrepeats := (honest_commit hc hnone hcommit hr).mp hhonest
          exact ⟨fun m a h _ => hrepeats m a h, fun _ => hrepeats, halone⟩
    · intro hright
      obtain ⟨hduplicates, hrepeats, halone⟩ := hright hread
      by_cases hpersist : ∃ a ∈ c.acquired, persistError db failures a ≠ none
      · obtain ⟨pre, a, post, hsplit, hpre, ha⟩ := exists_first hpersist
        rw [hnew] at hsplit
        exact (honest_persist hc hsplit hpre ha hr).mpr
          ⟨hrepeats (.inl (hnew ▸ hpersist)), halone pre a post hsplit hpre ha⟩
      · have hnone : ∀ a ∈ c.acquired, persistError db failures a = none := fun a ha => by
          by_contra h
          exact hpersist ⟨a, ha, h⟩
        by_cases hcommit : failures.commit = none
        · have hno : ¬ RollsBack failures db c.acquired :=
            not_or.mpr ⟨hpersist, not_not.mpr hcommit⟩
          exact (honest_ok hc hno hr).mpr hduplicates
        · exact (honest_commit hc hnone hcommit hr).mpr (hrepeats (.inr hcommit))
  · obtain ⟨e, c, hcollect⟩ := collect_error modelValidate hread { keys }
    have hrun : processTelematicsBatch modelValidate now failures messages keys db =
        (.error e, c.keys, db) := by
      unfold processTelematicsBatch
      rw [hcollect]
    constructor
    · exact fun _ h => absurd h hread
    · intro _ report keys' db' heq
      rw [hrun] at heq
      cases heq

end

/-! ### A batch of three -/

def payloadText : String :=
  "\x7b\"battery_id\":1,\"current\":2,\"soc\":80,\"temperature\":30," ++
    "\"timestamp\":\"2025-01-01T00:00:00\",\"voltage\":48\x7d"

def payloadValue : List (String × Json) :=
  [("battery_id", .int 1), ("current", .int 2), ("soc", .int 80), ("temperature", .int 30),
    ("timestamp", .str "2025-01-01T00:00:00"), ("voltage", .int 48)]

/-- Numbers, and texts without escapes. -/
def plainText : Json → String
  | .int n => toString n
  | .str s => "\"" ++ s ++ "\""
  | _ => "null"

/-- Reads that text; writes flat dictionaries whose keys are in order. -/
@[reducible] def plainJson : JsonText where
  loads text := if text = payloadText then some (.dict payloadValue) else none
  dumps value :=
    match value with
    | .dict entries => "\x7b" ++ String.intercalate ","
        (entries.map fun (key, value) => "\"" ++ key ++ "\":" ++ plainText value) ++ "\x7d"
    | value => plainText value

example : @JsonText.dumps plainJson (.dict payloadValue) = payloadText := by decide

def validateIntegers (value : Json) : Except String TelemetryIngest :=
  match value with
  | .dict entries =>
    match entries.lookup "battery_id", entries.lookup "current", entries.lookup "soc",
      entries.lookup "temperature", entries.lookup "timestamp", entries.lookup "voltage" with
    | some (.int batteryId), some (.int current), some (.int soc), some (.int temperature),
        some (.str timestamp), some (.int voltage) =>
      .ok { batteryId, timestamp := some timestamp, voltage, current, temperature, soc }
    | _, _, _, _, _, _ => .error "validation error"
  | _ => .error "validation error"

def telemetryMessage (messageId : ℕ) (key : String) : StreamMessage :=
  { stream := "telematics", messageId
    fields := [("payload", payloadText), ("idempotency_key", key), ("attempt", "0")] }

def batchOfThree : List StreamMessage :=
  [telemetryMessage 0 "a", telemetryMessage 1 "b", telemetryMessage 2 "c"]

def oneBattery : Db := { batteries := (Table.empty (α := Battery)).insert ⟨1⟩ (by decide) }

theorem batch_honest_sample : ∃ report keys' db',
    @processTelematicsBatch plainJson validateIntegers "" {} batchOfThree (some []) oneBattery =
      (.ok report, keys', db') ∧ report.successful = batchOfThree ∧
      @Honest plainJson validateIntegers report keys' db' := by
  refine ⟨_, _, _, rfl, by decide, (@batch_honest_iff plainJson validateIntegers "" {} batchOfThree
    (some []) oneBattery (by decide)).mpr (fun _ => ?_) _ _ _ rfl⟩
  have hnone : ∀ a ∈ @newEvents plainJson validateIntegers (some []) batchOfThree,
      persistError oneBattery {} a = none := by decide
  refine @ReportsRight.mk plainJson _ _ _ _ _ ?_ ?_ ?_
  · rintro m a - ⟨ids, hids, hid⟩
    obtain rfl := Option.some.inj hids
    cases hid
  · rintro (⟨a, ha, herror⟩ | hcommit)
    · exact absurd (hnone a ha) herror
    · exact absurd rfl hcommit
  · intro pre a post hsplit _ herror
    exact absurd (hnone a (by rw [hsplit]; simp)) herror

/-- **The second of three persists fails**: the first message is reported as successful and not
persisted, and the third is reported as failed and skipped when it is processed again. -/
theorem batch_reported_wrong :
    let failures : Failures :=
      { persist := fun m => if m.messageId = 1 then some "flush failed" else none }
    let batch :=
      @processTelematicsBatch plainJson validateIntegers "" failures batchOfThree (some [])
      oneBattery
    ∃ report keys' db', batch = (.ok report, keys', db') ∧
      telemetryMessage 0 "a" ∈ report.successful ∧ ¬ Known db' "a" ∧
      (telemetryMessage 2 "c", "Batch aborted due to previous error") ∈ report.failed ∧
      (@processTelematicsBatch plainJson validateIntegers "" {} [telemetryMessage 3 "c"]
        keys' db').1 =
        .ok { successful := [telemetryMessage 3 "c"] } ∧
      ¬ Known (@processTelematicsBatch plainJson validateIntegers "" {}
        [telemetryMessage 3 "c"] keys'
        db').2.2 "c" := by
  refine ⟨_, _, _, rfl, ?_, ?_, ?_, ?_, ?_⟩ <;> decide

end WezuBackend.Streams.Telematics
