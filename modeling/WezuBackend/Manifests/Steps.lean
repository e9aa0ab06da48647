import WezuBackend.Manifests.Composition

/-!
# Runs of requests

The requests to create, to receive and to process manifests are the steps of a run.  A step is
carried out, or it leaves all tables but that of the stored responses as they were (`step_cases`);
what a request that is carried out does to the manifests, to their items and to the batteries is
`Created`, `Received` and `Processed`.
-/

namespace WezuBackend.Manifests.Steps

open Lib.Tables Lib.Results Lib.Atomicity
open Lib.Atomicity.Tx
open Core.Base Core.Text Core.Letters Fleet.Model
open Fleet.Consistency Fleet.Transitions Fleet.Serials
open Manifests.Service hiding flush query commitAll
open Manifests.Receiving Manifests.Requests
open Manifests.Composition

section

variable [Casing]

/-! ## The bodies commit nothing -/

theorem readOnly_getBatteryBySerial (serial : String) : ReadOnly (getBatteryBySerial serial) :=
  (readOnly_lift _).bind fun _ => Fleet.Transitions.readOnly_query.bind fun _ =>
    (readOnly_ensure _ _).bind fun _ => readOnly_pure _

omit [Casing] in
theorem readOnly_onFleet {α : Type} {x : FleetTx α} (hx : ReadOnly x) : ReadOnly (onFleet x) :=
  readOnly_focus (fun _ => rfl) hx

omit [Casing] in
theorem tentative_onFleet {α : Type} {x : FleetTx α} (hx : Tentative x) : Tentative (onFleet x) :=
  tentative_focus (fun _ => rfl) hx

theorem readOnly_loadManifestById (id : String) : ReadOnly (loadManifestById id) := by
  refine Requests.readOnly_query.bind fun s => ?_
  rcases findManifestsByNormalizedId s id with _ | ⟨m, _ | ⟨m', ms⟩⟩
  · exact readOnly_raise _
  · exact readOnly_pure _
  · exact readOnly_raise _

omit [Casing] in
theorem tentative_saveManifest (m : Manifest) : Tentative (saveManifest m) := tentative_update _

theorem tentative_getOrCreateBattery (now : ℕ) (serial : String) (warehouseId actorId : ℕ) :
    Tentative (getOrCreateBattery now serial warehouseId actorId) := by
  refine (readOnly_lift _).tentative.bind fun normalized => ?_
  refine (readOnly_getBatteryBySerial _).tentative.bind fun found => ?_
  rcases found with _ | battery
  · refine readOnly_look.tentative.bind fun db => (tentative_update _).bind fun _ => ?_
    refine Fleet.Transitions.readOnly_flush.tentative.bind fun _ => ?_
    exact (tentative_update _).bind fun _ => (readOnly_pure _).tentative
  · exact (tentative_update _).bind fun _ => (readOnly_pure _).tentative

theorem tentative_receiveBattery (r : Receipt) (item : ManifestItem) (u : ItemUpdate) :
    Tentative (receiveBattery r item u) := by
  unfold receiveBattery
  rcases intake r u with _ | args
  · refine readOnly_look.tentative.bind fun db => ?_
    rcases item.batteryTableId.bind db.batteries.get? with _ | battery
    · exact (readOnly_pure _).tentative
    · exact (tentative_update _).bind fun _ => (readOnly_pure _).tentative
  · refine (tentative_getOrCreateBattery _ _ _ _).bind fun battery => ?_
    exact (tentative_applyBatteryTransition _ _ _).bind fun _ => (readOnly_pure _).tentative

omit [Casing] in
theorem tentative_findItem (r : Receipt) (known : List String)
    (itemMap : List (String × ManifestItem)) (u : ItemUpdate) :
    Tentative (findItem r known itemMap u) := by
  unfold findItem
  rcases itemMap.lookup u.batteryId with _ | item
  · refine (readOnly_ensure _ _).tentative.bind fun _ => readOnly_look.tentative.bind fun s => ?_
    refine (tentative_update _).bind fun _ => Requests.readOnly_flush.tentative.bind fun _ => ?_
    exact (readOnly_pure _).tentative
  · exact (readOnly_ensure _ _).tentative.bind fun _ => (readOnly_pure _).tentative

theorem tentative_receiveRows (now actorId warehouseId : ℕ) (id : String) (us : List ItemUpdate) :
    Tentative (receiveRows now actorId warehouseId id us) := by
  have hround : ∀ (r : Receipt) (known : List String) itemMap u,
      Tentative (receiveItem r known itemMap u) := fun r known itemMap u =>
    (tentative_findItem _ _ _ _).bind fun item =>
      (tentative_onFleet (tentative_receiveBattery _ _ _)).bind fun _ =>
        (tentative_update _).bind fun _ => (readOnly_pure _).tentative
  have hassert : ∀ m, Tentative (assertManifestReceivable m) := fun m =>
    (readOnly_lift _).tentative.bind fun _ => (tentative_saveManifest _).bind fun _ =>
      (readOnly_ensure _ _).tentative.bind fun _ => (readOnly_ensure _ _).tentative.bind fun _ =>
        (readOnly_pure _).tentative
  refine (readOnly_loadManifestById _).tentative.bind fun m => (hassert m).bind fun m => ?_
  refine readOnly_look.tentative.bind fun s => (readOnly_lift _).tentative.bind fun itemMap => ?_
  refine (tentative_foldlM (hround _ _) _ _).bind fun received => ?_
  refine (tentative_saveManifest _).bind fun _ => ?_
  exact (readOnly_loadManifestById _).tentative.bind fun _ => (readOnly_pure _).tentative

theorem tentative_processRows (id : String) : Tentative (processRows id) := by
  refine (readOnly_loadManifestById _).tentative.bind fun m => ?_
  refine (readOnly_lift _).tentative.bind fun status => (tentative_saveManifest _).bind fun _ => ?_
  refine readOnly_look.tentative.bind fun s => ?_
  split_ifs
  · exact (readOnly_pure _).tentative
  · refine (readOnly_ensure _ _).tentative.bind fun _ => ?_
    refine (readOnly_ensure _ _).tentative.bind fun _ => (tentative_saveManifest _).bind fun _ => ?_
    exact (readOnly_loadManifestById _).tentative.bind fun _ => (readOnly_pure _).tentative

/-! ## Creation -/

variable {s t : Session Store}

variable {manifestId : String} {u : Unit}

theorem createItem_ok {p : ItemPayload} (h : createItem manifestId p s = (.ok u, t)) :
    ∃ batteryTableId, t = ⟨s.committed, { s.working with
      manifestItems :=
        s.working.manifestItems.add (createdItem manifestId p batteryTableId) }⟩ := by
  obtain ⟨known, _, hknown, h⟩ := bind_ok.mp h
  obtain ⟨fleet, hfound, rfl⟩ := onFleet_ok hknown
  obtain rfl := (readOnly_getBatteryBySerial _).eq hfound
  obtain rfl := update_ok.mp h
  exact ⟨_, rfl⟩

theorem tentative_createItems (manifestId : String) (ps : List ItemPayload) :
    Tentative (ps.forM (createItem manifestId)) := by
  induction ps with
  | nil => exact (readOnly_pure _).tentative
  | cons p ps ih =>
    refine Tentative.bind ?_ fun _ => ih
    exact (tentative_onFleet (readOnly_getBatteryBySerial _).tentative).bind fun _ =>
      tentative_update _

/-- The rows that the new items leave. -/
structure ItemsCreated (manifestId : String) (ps : List ItemPayload) (s t : Store) : Prop where
  rest : t = { s with manifestItems := t.manifestItems }
  others : ∀ x, x ≠ manifestId → itemsOf t x = itemsOf s x
  items : ∀ i ∈ itemsOf t manifestId, i ∈ itemsOf s manifestId ∨
    ∃ p ∈ ps, i.batteryId = p.batteryId ∧ i.status = p.status.text

variable {ps : List ItemPayload}

theorem createItems_ok (h : ps.forM (createItem manifestId) s = (.ok u, t)) :
    ItemsCreated manifestId ps s.working t.working := by
  induction ps generalizing s with
  | nil =>
    obtain ⟨-, rfl⟩ := pure_ok.mp h
    exact ⟨rfl, fun _ _ => rfl, fun i hi => .inl hi⟩
  | cons p ps ih =>
    obtain ⟨_, s₁, hfirst, h⟩ := bind_ok.mp h
    obtain ⟨batteryTableId, rfl⟩ := createItem_ok hfirst
    obtain ⟨hrest, hothers, hitems⟩ := ih h
    have hfilter : ∀ x, itemsOf { s.working with
        manifestItems := s.working.manifestItems.add (createdItem manifestId p batteryTableId) } x =
        itemsOf s.working x ++ if decide (manifestId = x) = true then
          [createdItem manifestId p batteryTableId s.working.manifestItems.freshKey] else [] := by
      intro x
      unfold itemsOf
      exact Table.filter_add_mk (fun _ => rfl) _
    refine ⟨?_, fun x hx => ?_, fun i hi => ?_⟩
    · rw [hrest]
    · rw [hothers x hx, hfilter]
      simp [Ne.symm hx]
    · rcases hitems i hi with hi | ⟨p', hp', hsame⟩
      · rw [hfilter] at hi
        rcases List.mem_append.mp hi with hi | hi
        · exact .inl hi
        · rw [if_pos (decide_eq_true rfl)] at hi
          obtain rfl := List.mem_singleton.mp hi
          exact .inr ⟨p, List.mem_cons_self, rfl, rfl⟩
      · exact .inr ⟨p', List.mem_cons_of_mem _ hp', hsame⟩

theorem tentative_createRows (m : Manifest) (ps : List ItemPayload) :
    Tentative (createRows m ps) := by
  refine Requests.readOnly_query.tentative.bind fun s => (readOnly_ensure _ _).tentative.bind ?_
  refine fun _ => (tentative_update _).bind fun _ => (tentative_createItems _ _).bind fun _ => ?_
  refine Requests.readOnly_flush.tentative.bind fun _ => ?_
  refine (readOnly_loadManifestById _).tentative.bind fun _ => ?_
  exact readOnly_look.tentative.bind fun _ => (readOnly_pure _).tentative

structure Created (m : Manifest) (ps : List ItemPayload) (s t : Store) : Prop where
  fleet : t.fleet = s.fleet
  absent : ∀ x ∈ s.manifests, sqlUpper x.id ≠ m.id
  manifests : ∀ x, x ∈ t.manifests ↔ x ∈ s.manifests ∨ x = m
  others : ∀ x, x ≠ m.id → itemsOf t x = itemsOf s x
  items : ∀ i ∈ itemsOf t m.id, i ∈ itemsOf s m.id ∨
    ∃ p ∈ ps, i.batteryId = p.batteryId ∧ i.status = p.status.text

omit [Casing] in
theorem mem_insertManifest {manifests : Table Manifest} {m x : Manifest}
    (h : ∀ y ∈ manifests, y.id ≠ m.id) :
    x ∈ insertManifest manifests m ↔ x ∈ manifests ∨ x = m := by
  have hnone : manifests.get? m.id = none := Table.get?_eq_none.mpr h
  unfold insertManifest
  split
  · rename_i y hy
    rw [hnone] at hy
    cases hy
  · exact Table.mem_insert

variable {m : Manifest}

variable {response : ManifestRead}

theorem createRows_ok (hid : sqlUpper m.id = m.id)
    (h : createRows m ps s = (.ok response, t)) : Created m ps s.working t.working := by
  obtain ⟨found, _, hquery, h⟩ := bind_ok.mp h
  obtain ⟨-, rfl, rfl⟩ := query_ok.mp hquery
  obtain ⟨_, _, hensure, h⟩ := bind_ok.mp h
  obtain ⟨hnone, rfl⟩ := ensure_ok.mp hensure
  obtain ⟨_, _, hupdate, h⟩ := bind_ok.mp h
  obtain rfl := update_ok.mp hupdate
  obtain ⟨_, s₁, hitems, h⟩ := bind_ok.mp h
  obtain ⟨_, _, hflush, h⟩ := bind_ok.mp h
  obtain ⟨-, rfl⟩ := flush_ok.mp hflush
  obtain ⟨m', _, hload, h⟩ := bind_ok.mp h
  obtain ⟨-, -, rfl⟩ := loadManifestById_ok.mp hload
  obtain ⟨_, _, hlook, h⟩ := bind_ok.mp h
  obtain ⟨-, rfl⟩ := look_ok.mp hlook
  obtain ⟨-, rfl⟩ := pure_ok.mp h
  obtain ⟨hrest, hothers, hitems⟩ := createItems_ok hitems
  have habsent : ∀ x ∈ s.working.manifests, sqlUpper x.id ≠ m.id := by
    intro x hx hsame
    have hmem := mem_findManifests.mpr ⟨hx, hsame⟩
    rw [hnone] at hmem
    cases hmem
  refine ⟨by rw [hrest], habsent, fun x => ?_, hothers, hitems⟩
  rw [hrest]
  refine mem_insertManifest fun y hy hsame => ?_
  exact habsent y hy (by rw [hsame, hid])

/-- What a request to process leaves. -/
structure Processed (id : String) (s t : Store) : Prop where
  found : ∃ m, findManifestsByNormalizedId s id = [m] ∧
    (∃ status, normalizeManifestStatus m.status "manifest.status" = .ok status ∧
      (status ≠ .processed → ∀ i ∈ itemsOf s m.id, i.status ≠ "pending" ∧ i.status ≠ "missing")) ∧
    t = { s with
      manifests := s.manifests.set { m with status := ManifestStatus.processed.text } }

variable {id : String}

theorem processRows_ok
    (h : processRows id s = (.ok response, t)) : Processed id s.working t.working := by
  obtain ⟨m, _, hload, h⟩ := bind_ok.mp h
  obtain ⟨-, hfound, rfl⟩ := loadManifestById_ok.mp hload
  obtain ⟨status, _, hlift, h⟩ := bind_ok.mp h
  obtain ⟨hstatus, rfl⟩ := lift_ok.mp hlift
  obtain ⟨_, _, hsave, h⟩ := bind_ok.mp h
  obtain rfl := saveManifest_ok.mp hsave
  obtain ⟨_, _, hlook, h⟩ := bind_ok.mp h
  obtain ⟨rfl, rfl⟩ := look_ok.mp hlook
  dsimp only at h
  split_ifs at h with hprocessed
  · obtain ⟨-, rfl⟩ := pure_ok.mp h
    subst hprocessed
    exact ⟨m, hfound, ⟨_, hstatus, fun hne => absurd rfl hne⟩, rfl⟩
  · obtain ⟨_, _, hensure, h⟩ := bind_ok.mp h
    obtain ⟨-, rfl⟩ := ensure_ok.mp hensure
    obtain ⟨_, _, hensure, h⟩ := bind_ok.mp h
    obtain ⟨hdone, rfl⟩ := ensure_ok.mp hensure
    obtain ⟨_, _, hsave, h⟩ := bind_ok.mp h
    obtain rfl := saveManifest_ok.mp hsave
    obtain ⟨_, _, hload, h⟩ := bind_ok.mp h
    obtain ⟨-, -, rfl⟩ := loadManifestById_ok.mp hload
    obtain ⟨-, rfl⟩ := pure_ok.mp h
    refine ⟨m, hfound, ⟨status, hstatus, fun _ i hi => ?_⟩, ?_⟩
    · push Not at hdone
      exact hdone i hi
    · have hset : (s.working.manifests.set { m with status := status.text }).set
          { m with status := ManifestStatus.processed.text } =
          s.working.manifests.set { m with status := ManifestStatus.processed.text } :=
        Table.set_set rfl
      exact congrArg (fun manifests => { s.working with manifests }) hset

/-! ## The steps -/

inductive Op where
  | create (c : Caller) (manifestData : ManifestCreate)
  | receive (c : Caller) (manifestId : String) (receiveData : ManifestReceiveRequest)
  | process (c : Caller) (manifestId : String)

def program : Op → ManifestTx ManifestRead
  | .create c manifestData => createManifest c manifestData
  | .receive c manifestId receiveData => receiveManifest c manifestId receiveData
  | .process c manifestId => processManifest c manifestId

def step (s : Store) (o : Op) : Store := ((program o).call s).2

/-- The request is answered from its idempotency key. -/
def Answered (s : Store) : Op → Prop
  | .create c _ => Replayed c "/manifests" s
  | .receive c manifestId _ => Replayed c (receivePath (normal manifestId)) s
  | .process c manifestId => Replayed c s!"/manifests/{normal manifestId}/process" s

/-- The request succeeds, and not with the answer to an earlier one. -/
def CarriedOut (s : Store) (o : Op) : Prop :=
  ((program o).call s).1.isOk = true ∧ ¬ Answered s o

/-- What a request that is carried out does. -/
inductive Done (s t : Store) : Op → Prop
  | created {c data m ps} (hid : m.id = normal data.id)
      (hstatus : ∃ status, status ≠ ManifestStatus.processed ∧ m.status = status.text)
      (hitems : ∀ p ∈ ps, p.batteryId = normal p.batteryId ∧ ∃ i ∈ data.items,
        normal i.batteryId = p.batteryId ∧
          allowedManifestItemStatuses.lookup (lower (strip i.status)) = some p.status)
      (h : Created m ps s t) : Done s t (.create c data)
  | received {c manifestId data k m t₀} (hwell : WellFormed data.items)
      (hwarehouse : intakeWarehouse s.fleet data.warehouseId = some k)
      (hreceivable : Receivable (normal manifestId) m s)
      (h : ManifestReceived ⟨c.now, c.userId, m.id, k⟩ (data.items.filterMap updateOf) m s t₀)
      (ht : core t = core t₀) : Done s t (.receive c manifestId data)
  | processed {c manifestId t₀} (h : Processed (normal manifestId) s t₀) (ht : core t = core t₀) :
      Done s t (.process c manifestId)

omit [Casing] in
theorem itemPayloads_ok {pairs : List (String × ManifestItemCreate)} {index : ℕ}
    (h : itemPayloads index pairs = .ok ps) : ∀ p ∈ ps,
      ∃ e ∈ pairs, p.batteryId = e.1 ∧
        allowedManifestItemStatuses.lookup (lower (strip e.2.status)) = some p.status := by
  induction pairs generalizing index ps with
  | nil =>
    obtain rfl := Except.ok.inj h
    exact fun p hp => absurd hp List.not_mem_nil
  | cons e pairs ih =>
    obtain ⟨serial, item⟩ := e
    obtain ⟨status, hstatus, h⟩ := except_bind_ok.mp h
    obtain ⟨type, -, h⟩ := except_bind_ok.mp h
    obtain ⟨rest, hrest, h⟩ := except_bind_ok.mp h
    obtain rfl := Except.ok.inj h
    intro p hp
    rcases List.mem_cons.mp hp with rfl | hp
    · refine ⟨_, List.mem_cons_self, rfl, ?_⟩
      unfold normalizeManifestItemStatus at hstatus
      rcases hfound : allowedManifestItemStatuses.lookup (lower (strip item.status)) with _ | st
      · rw [hfound] at hstatus
        cases hstatus
      · rw [hfound] at hstatus
        dsimp only at hstatus ⊢
        split_ifs at hstatus
        rw [Except.ok.inj hstatus]
    · obtain ⟨e, he, hsame⟩ := ih hrest p hp
      exact ⟨e, List.mem_cons_of_mem _ he, hsame⟩

/-- A step is carried out, or it leaves all tables but that of the stored responses alone. -/
def Step (s : Store) (o : Op) : Prop :=
  (¬ CarriedOut s o ∧ core (step s o) = core s) ∨ (CarriedOut s o ∧ Done s (step s o) o)

variable {o : Op}

theorem step_refused {s s₀ : Store} {e : Exc} (h : (program o).call s = (.error e, s₀))
    (hcore : core s₀ = core s) : Step s o := by
  refine .inl ⟨fun hdone => ?_, ?_⟩
  · rw [CarriedOut, h] at hdone
    cases hdone.1
  · rw [step, h]
    exact hcore

/-- The request goes on with `x` from `s`, which decides what the step does. -/
def GoesOn (s : Store) (o : Op) (x : ManifestTx ManifestRead) : Prop :=
  (program o).call s = x.call s → Step s o

theorem goesOn_bind {α : Type} {x : ManifestTx α} {f : α → ManifestTx ManifestRead} {s : Store}
    (hx : ReadOnly x) (hf : ∀ a, x (.fresh s) = (.ok a, .fresh s) → GoesOn s o (f a)) :
    GoesOn s o (x >>= f) := by
  intro hcall
  rcases h : x (.fresh s) with ⟨e | a, t⟩
  · obtain rfl := hx.eq h
    exact step_refused (hcall.trans (call_eq (bind_of_error h))) rfl
  · obtain rfl := hx.eq h
    have hnext : (x >>= f).call s = (f a).call s := by
      unfold call
      rw [bind_of_ok h]
    exact hf a h (hcall.trans hnext)

theorem goesOn_answered {c : Caller} {path : String} {x : ManifestTx ManifestRead} {s : Store}
    (hx : Tentative x) (hpath : Answered s o ↔ Replayed c path s)
    (hdone : ∀ {s₀ response t}, core s₀ = core s → x (.fresh s₀) = (.ok response, t) →
      core (step s o) = core t.working → Done s (step s o) o) :
    GoesOn s o (answered c path x) := by
  intro hcall
  have houtcome := answered_outcome hx c path s
  rw [← hcall] at houtcome
  have hcarried : CarriedOut s o ↔ ((program o).call s).1.isOk = true ∧ ¬ Replayed c path s := by
    rw [CarriedOut, hpath]
  unfold Step
  rw [hcarried]
  unfold step at hdone ⊢
  generalize (program o).call s = r at houtcome hdone ⊢
  cases houtcome with
  | refused h => exact .inl ⟨fun hok => (by cases hok.1), h⟩
  | replayed h => exact .inl ⟨fun hok => hok.2 h, rfl⟩
  | carriedOut hnew h hrun ht => exact .inr ⟨⟨rfl, hnew⟩, hdone h hrun ht⟩

theorem Created.congr {s s₀ t t₀ : Store}
    (h : Created m ps s₀ t₀) (hs : core s₀ = core s) (ht : core t = core t₀) :
    Created m ps s t := by
  obtain ⟨hfleet, hmanifests, hitems⟩ := core_eq hs
  obtain ⟨hfleet', hmanifests', hitems'⟩ := core_eq ht
  have hsitems : ∀ x, itemsOf s₀ x = itemsOf s x := fun x => by rw [itemsOf, hitems, itemsOf]
  have htitems : ∀ x, itemsOf t x = itemsOf t₀ x := fun x => by rw [itemsOf, hitems', itemsOf]
  refine ⟨?_, ?_, fun x => ?_, fun x hx => ?_, fun i hi => ?_⟩
  · rw [hfleet', h.fleet, hfleet]
  · rw [← hmanifests]
    exact h.absent
  · rw [hmanifests', ← hmanifests]
    exact h.manifests x
  · rw [htitems, h.others x hx, hsitems]
  · rw [htitems] at hi
    rw [← hsitems]
    exact h.items i hi

theorem step_create (s : Store) (c : Caller) (data : ManifestCreate) :
    Step s (.create c data) := by
  refine (?_ : GoesOn s _ (createManifest c data)) rfl
  refine goesOn_bind (readOnly_lift _) fun id hid => ?_
  refine goesOn_bind (readOnly_lift _) fun source _ => ?_
  refine goesOn_bind (readOnly_lift _) fun status _ => ?_
  refine goesOn_bind (readOnly_ensure _ _) fun _ hinitial => ?_
  refine goesOn_bind (readOnly_ensure _ _) fun _ _ => ?_
  refine goesOn_bind (readOnly_lift _) fun serials hserials => ?_
  refine goesOn_bind (readOnly_lift _) fun ps hps => ?_
  obtain rfl := normalizeManifestId_ok (lift_ok.mp hid).1
  obtain ⟨hinitial, -⟩ := ensure_ok.mp hinitial
  obtain ⟨-, -, -, rfl⟩ := normalizeBatterySerials_iff.mp (lift_ok.mp hserials).1
  have hpayloads := itemPayloads_ok (lift_ok.mp hps).1
  refine goesOn_answered (tentative_createRows _ _) Iff.rfl fun hs hrun ht => ?_
  have hcreated := (createRows_ok (sqlUpper_normal _) hrun).congr hs ht
  refine .created rfl ⟨_, ?_, rfl⟩ (fun p hp => ?_) hcreated
  · split_ifs
    · decide
    · rintro rfl
      simp [initialManifestStatuses] at hinitial
  · obtain ⟨e, he, hserial, hstatus⟩ := hpayloads p hp
    rw [List.map_map, ← List.map_prod_right_eq_zip] at he
    obtain ⟨item, hitem, rfl⟩ := List.mem_map.mp he
    have hserial' : p.batteryId = normal item.batteryId := hserial
    refine ⟨?_, item, hitem, hserial'.symm, hstatus⟩
    rw [hserial', normal_normal]

variable {r : Receipt} {us : List ItemUpdate}

theorem rounds_withResponses {s t : Store}
    (h : Rounds r us s t) (storedResponses : Table StoredResponse) :
    Rounds r us { s with storedResponses } { t with storedResponses } := by
  induction h with
  | nil s => exact .nil _
  | @cons u us s t w item h _ ih =>
    exact Rounds.cons (t := { t with storedResponses }) ⟨h.found, h.status, h.serial, h.others,
      h.otherManifests, h.taken, h.manifests, rfl⟩ ih

theorem received_congr
    {s s₀ t₀ : Store} (h : ManifestReceived r us m s₀ t₀) (hs : core s₀ = core s) :
    ManifestReceived r us m s { t₀ with storedResponses := s.storedResponses } := by
  obtain ⟨hfleet, hmanifests, hitems⟩ := core_eq hs
  have hsame : { s₀ with storedResponses := s.storedResponses } = s := by
    rw [hfleet, hmanifests, hitems]
  have hrounds := rounds_withResponses h.rounds s.storedResponses
  rw [hsame] at hrounds
  refine ⟨h.id, h.named, ?_, ?_⟩
  · rw [← hmanifests]
    exact hrounds
  · rw [← hmanifests]
    exact h.manifests

theorem receivable_congr {s s₀ : Store} (h : Receivable id m s₀)
    (hs : core s₀ = core s) : Receivable id m s := by
  obtain ⟨-, hmanifests, hitems⟩ := core_eq hs
  have hfound := h.found
  unfold findManifestsByNormalizedId at hfound
  rw [hmanifests] at hfound
  exact ⟨hfound, h.unprocessed, hitems ▸ h.named⟩

theorem Processed.congr {s s₀ t₀ : Store} (h : Processed id s₀ t₀)
    (hs : core s₀ = core s) : Processed id s { t₀ with storedResponses := s.storedResponses } := by
  obtain ⟨hfleet, hmanifests, hitems⟩ := core_eq hs
  obtain ⟨m, hfound, ⟨status, hstatus, hdone⟩, rfl⟩ := h.found
  unfold findManifestsByNormalizedId at hfound
  rw [hmanifests] at hfound
  refine ⟨m, hfound, ⟨status, hstatus, fun hopen i hi => ?_⟩, ?_⟩
  · rw [itemsOf, ← hitems] at hi
    exact hdone hopen i hi
  · dsimp only
    rw [hfleet, hmanifests, hitems]

omit [Casing] in
theorem readOnly_resolveIntakeWarehouseId (warehouseId : Option ℕ) :
    ReadOnly (resolveIntakeWarehouseId warehouseId) := by
  refine Fleet.Transitions.readOnly_query.bind fun db => ?_
  rcases warehouseId with _ | k
  · dsimp only
    rcases db.warehouses.rows.filter Warehouse.isActive with _ | ⟨x, _ | ⟨y, l⟩⟩
    · exact readOnly_raise _
    · exact readOnly_pure _
    · exact readOnly_raise _
  · exact (readOnly_demand _ _).bind fun _ => readOnly_pure _

theorem step_receive (s : Store) (c : Caller) (manifestId : String)
    (data : ManifestReceiveRequest) : Step s (.receive c manifestId data) := by
  refine (?_ : GoesOn s _ (receiveManifest c manifestId data)) rfl
  refine goesOn_bind (readOnly_lift _) fun id hid => ?_
  refine goesOn_bind (readOnly_lift _) fun serials hserials => ?_
  refine goesOn_bind (readOnly_onFleet (readOnly_resolveIntakeWarehouseId _)) fun k hk => ?_
  refine goesOn_bind (readOnly_lift _) fun us hus => ?_
  obtain rfl := normalizeManifestId_ok (lift_ok.mp hid).1
  obtain ⟨hwell, rfl⟩ := checked_iff.mp ⟨serials, (lift_ok.mp hserials).1, (lift_ok.mp hus).1⟩
  refine goesOn_answered (tentative_receiveRows _ _ _ _ _) Iff.rfl fun hs hrun ht => ?_
  obtain ⟨-, m, hreceivable, -, hreceived, -⟩ :=
    receiveRows_ok hwell.serials hwell.updates_ne_nil hrun
  obtain ⟨fleet, hresolve, -⟩ := onFleet_ok hk
  obtain ⟨-, hwarehouse, -⟩ := resolveIntakeWarehouseId_ok.mp hresolve
  exact .received hwell hwarehouse (receivable_congr hreceivable hs)
    (received_congr hreceived hs) ht

theorem step_process (s : Store) (c : Caller) (manifestId : String) :
    Step s (.process c manifestId) := by
  refine (?_ : GoesOn s _ (processManifest c manifestId)) rfl
  refine goesOn_bind (readOnly_lift _) fun id hid => ?_
  obtain rfl := normalizeManifestId_ok (lift_ok.mp hid).1
  refine goesOn_answered (tentative_processRows _) Iff.rfl fun hs hrun ht => ?_
  exact .processed ((processRows_ok hrun).congr hs) ht

theorem step_cases (s : Store) (o : Op) : Step s o := by
  rcases o with ⟨c, data⟩ | ⟨c, manifestId, data⟩ | ⟨c, manifestId⟩
  · exact step_create s c data
  · exact step_receive s c manifestId data
  · exact step_process s c manifestId

end

end WezuBackend.Manifests.Steps
