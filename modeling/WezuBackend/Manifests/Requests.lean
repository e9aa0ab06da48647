import WezuBackend.Manifests.Receiving

/-!
# Requests

A request about a manifest is refused, answered from its idempotency key, or carried out as a
completed run of its body; in the first two cases it changes no table but that of the stored
responses (`answered_outcome`).  A request whose key is unused is carried out exactly if its body
returns (`answered_of_unused`, `answered_unused_ok`).
-/

namespace WezuBackend.Manifests.Requests

open Lib.Tables Lib.Atomicity
open Lib.Atomicity.Tx Lib.LocalUpdates
open Core.Base Core.Letters Fleet.Model
open Fleet.Transitions
open Orders.Service (normalizeIdempotencyKey idempotencyLifetime)
open Manifests.Service hiding flush query commitAll
open Manifests.Intake Manifests.Receiving

/-! ## Keys -/

def core (s : Store) : Store := { s with storedResponses := .empty }

theorem core_eq {s t : Store} (h : core t = core s) :
    t.fleet = s.fleet ∧ t.manifests = s.manifests ∧ t.manifestItems = s.manifestItems := by
  have hfleet := congrArg Store.fleet h
  have hmanifests := congrArg Store.manifests h
  have hitems := congrArg Store.manifestItems h
  exact ⟨hfleet, hmanifests, hitems⟩

theorem readOnly_flush : ReadOnly Service.flush := readOnly_look.bind fun _ => readOnly_ensure _ _

theorem readOnly_query : ReadOnly Service.query := readOnly_flush.bind fun _ => readOnly_look

theorem commitAll_pure {α : Type} (a : α) (s : Session Store) :
    (Service.commitAll >>= fun _ => pure a) s =
      if UniqueIndexes s.working.fleet then (.ok a, ⟨s.working, s.working⟩)
      else (.error .integrityError, s) := by
  have hflush : Service.flush s = if UniqueIndexes s.working.fleet then (.ok (), s)
      else (.error .integrityError, s) := by
    rw [Service.flush, look_bind, ensure]
    split_ifs <;> rfl
  unfold Service.commitAll
  rw [seq_assoc]
  split_ifs at hflush ⊢
  · rw [bind_of_ok hflush]
    rfl
  · rw [bind_of_error hflush]

section

variable {c : Caller} {path : String}

/-- A response is stored under the key, and has not expired. -/
def Stored (c : Caller) (path : String) (key : Option String) (s : Store) : Prop :=
  ∃ k ∈ key, ∃ record ∈ s.storedResponses.find? (isResponseTo c path k), c.now < record.expiresAt

/-- The request is answered from its key. -/
def Replayed (c : Caller) (path : String) (s : Store) : Prop :=
  ∃ key, normalizeIdempotencyKey c.idempotencyKey = .ok key ∧ Stored c path key s

/-- The store after a look-up that finds nothing to answer with: an expired response is dropped. -/
def afterLookup (c : Caller) (path : String) (key : Option String) (s : Store) : Store :=
  match key with
  | none => s
  | some key =>
    match s.storedResponses.find? (isResponseTo c path key) with
    | none => s
    | some record => { s with storedResponses := s.storedResponses.erase record.id }

theorem core_afterLookup (key : Option String) (s : Store) :
    core (afterLookup c path key s) = core s := by
  rcases key with _ | key
  · rfl
  · unfold afterLookup
    dsimp only
    split <;> rfl

/-- The look-up of a key: it raises, it finds a response, or there is none and an expired one is
dropped. -/
theorem getIdempotentReplay_cases (c : Caller) (path : String) (key : Option String) (s : Store) :
    (∃ e, (Stored c path key s ∨ ¬ UniqueIndexes s.fleet) ∧
      getIdempotentReplay c path key (.fresh s) = (.error e, .fresh s)) ∨
    (∃ data, Stored c path key s ∧
      getIdempotentReplay c path key (.fresh s) = (.ok (some data), .fresh s)) ∨
    (¬ Stored c path key s ∧
      getIdempotentReplay c path key (.fresh s) =
        (.ok none, .fresh (afterLookup c path key s))) := by
  rcases key with _ | key
  · refine .inr (.inr ⟨?_, rfl⟩)
    rintro ⟨k, hk, -⟩
    cases hk
  unfold getIdempotentReplay afterLookup
  rcases hq : Service.query (.fresh s) with ⟨e | found, s'⟩
  · obtain rfl := readOnly_query.eq hq
    refine .inl ⟨e, .inr fun hu => ?_, bind_of_error hq⟩
    have hok : Service.query (.fresh s) = (.ok s, .fresh s) := query_ok.mpr ⟨hu, rfl, rfl⟩
    rw [hok] at hq
    cases hq
  obtain ⟨hu, hfound, rfl⟩ := query_ok.mp hq
  obtain rfl : s = found := hfound
  dsimp only
  rw [bind_of_ok hq]
  rcases hrecord : s.storedResponses.find? (isResponseTo c path key) with _ | record
  · refine .inr (.inr ⟨?_, rfl⟩)
    rintro ⟨_, ⟨⟩, record, hstored, -⟩
    rw [hrecord] at hstored
    cases hstored
  dsimp only
  by_cases hexpired : record.expiresAt ≤ c.now
  · rw [if_pos hexpired, update_bind]
    refine .inr (.inr ⟨?_, ?_⟩)
    · rintro ⟨_, ⟨⟩, x, hstored, hlive⟩
      rw [hrecord] at hstored
      obtain rfl := Option.some.inj hstored
      omega
    · exact (commitAll_pure none _).trans (if_pos hu)
  · have hlive : c.now < record.expiresAt := by omega
    have hstored : Stored c path (some key) s := ⟨key, rfl, record, hrecord, hlive⟩
    rw [if_neg hexpired]
    by_cases hsame : record.requestFingerprint = c.requestFingerprint
    · rw [ensure_bind hsame]
      rcases record.responsePayload with _ | data
      · exact .inl ⟨_, .inl hstored, rfl⟩
      · exact .inr (.inl ⟨data, hstored, rfl⟩)
    · exact .inl ⟨_, .inl hstored, ensure_bind_not hsame _ _ _⟩

variable {key : Option String} {response : ManifestRead}

theorem recordIdempotentResponse_ok {s t : Session Store} {u : Unit}
    (h : recordIdempotentResponse c path key response s = (.ok u, t)) :
    t.committed = s.committed ∧ core t.working = core s.working := by
  rcases key with _ | key
  · obtain ⟨-, rfl⟩ := pure_ok.mp h
    exact ⟨rfl, rfl⟩
  · obtain ⟨found, _, hquery, h⟩ := bind_ok.mp h
    obtain ⟨-, rfl, rfl⟩ := query_ok.mp hquery
    rcases hfound : s.working.storedResponses.find? (isResponseTo c path key) with _ | record
    · rw [hfound] at h
      obtain ⟨_, _, hupdate, h⟩ := bind_ok.mp h
      obtain rfl := update_ok.mp hupdate
      obtain ⟨-, rfl⟩ := flush_ok.mp h
      exact ⟨rfl, rfl⟩
    · rw [hfound] at h
      obtain ⟨-, rfl⟩ := ensure_ok.mp h
      exact ⟨rfl, rfl⟩

theorem tentative_recordIdempotentResponse (key : Option String) (response : ManifestRead) :
    Tentative (recordIdempotentResponse c path key response) := by
  rcases key with _ | key
  · exact (readOnly_pure ()).tentative
  · refine readOnly_query.tentative.bind fun s => ?_
    rcases s.storedResponses.find? (isResponseTo c path key) with _ | record
    · exact (tentative_update _).bind fun _ => readOnly_flush.tentative
    · exact (readOnly_ensure _ _).tentative

/-- How a call ended: refused, answered from its key, or carried out as a completed run of `x`. -/
inductive Outcome (c : Caller) (path : String) (x : ManifestTx ManifestRead) (s : Store) :
    Except Exc ManifestRead × Store → Prop
  | refused {e s₀} (h : core s₀ = core s) : Outcome c path x s (.error e, s₀)
  | replayed {data} (h : Replayed c path s) : Outcome c path x s (.ok data, s)
  | carriedOut {s₀ response t t'} (hnew : ¬ Replayed c path s) (h : core s₀ = core s)
      (hrun : x (.fresh s₀) = (.ok response, t)) (ht : core t' = core t.working) :
      Outcome c path x s (.ok response, t')

variable {x : ManifestTx ManifestRead}

theorem answered_outcome (hx : Tentative x) (c : Caller)
    (path : String) (s : Store) : Outcome c path x s ((answered c path x).call s) := by
  rcases hkey : normalizeIdempotencyKey c.idempotencyKey with e | key
  · rw [answered, call_eq (lift_bind_error hkey _ _)]
    exact .refused rfl
  rcases getIdempotentReplay_cases c path key s with
    ⟨e, -, h⟩ | ⟨data, hstored, h⟩ | ⟨hnone, h⟩
  · rw [answered, call_eq ((lift_bind hkey _ _).trans (bind_of_error h))]
    exact .refused rfl
  · rw [answered, call_eq ((lift_bind hkey _ _).trans ((bind_of_ok h).trans rfl))]
    exact .replayed ⟨key, hkey, hstored⟩
  have hsame := @core_afterLookup c path key s
  have hnew : ¬ Replayed c path s := by
    rintro ⟨key', hkey', hstored⟩
    obtain rfl := Except.ok.inj (hkey.symm.trans hkey')
    exact hnone hstored
  rcases hrun : x (.fresh (afterLookup c path key s)) with ⟨e | response, t⟩
  · rw [answered, call_eq ((lift_bind hkey _ _).trans ((bind_of_ok h).trans (bind_of_error hrun)))]
    refine .refused ?_
    rw [hx.eq hrun]
    exact hsame
  rcases hrecord : recordIdempotentResponse c path key response t with ⟨e | u, t₁⟩
  · rw [answered, call_eq ((lift_bind hkey _ _).trans ((bind_of_ok h).trans
      ((bind_of_ok hrun).trans (bind_of_error hrecord))))]
    refine .refused ?_
    rw [(tentative_recordIdempotentResponse _ _).eq hrecord, hx.eq hrun]
    exact hsame
  obtain ⟨hcommitted, hcore⟩ := recordIdempotentResponse_ok hrecord
  have hend := commitAll_pure response t₁
  have hcall : ∀ {r : Except Exc ManifestRead} {t₂ : Session Store},
      (Service.commitAll >>= fun _ => pure response) t₁ = (r, t₂) →
        (answered c path x).call s = (r, t₂.committed) := fun hlast => by
    rw [answered]
    exact call_eq ((lift_bind hkey _ _).trans ((bind_of_ok h).trans
      ((bind_of_ok hrun).trans ((bind_of_ok hrecord).trans hlast))))
  by_cases hu : UniqueIndexes t₁.working.fleet
  · rw [if_pos hu] at hend
    rw [hcall hend]
    exact .carriedOut hnew hsame hrun hcore
  · rw [if_neg hu] at hend
    rw [hcall hend]
    refine .refused ?_
    rw [hcommitted, hx.eq hrun]
    exact hsame

/-! ## Unused keys -/

/-- The request has no idempotency key, or one that no stored response has. -/
def Unused (c : Caller) (path : String) (s : Store) : Prop :=
  ∃ key, normalizeIdempotencyKey c.idempotencyKey = .ok key ∧
    ∀ k ∈ key, ∀ r ∈ s.storedResponses, isResponseTo c path k r = false

variable {s : Store}

theorem getIdempotentReplay_unused
    (h : ∀ k ∈ key, ∀ r ∈ s.storedResponses, isResponseTo c path k r = false)
    (hu : UniqueIndexes s.fleet) :
    getIdempotentReplay c path key (.fresh s) = (.ok none, .fresh s) := by
  rcases key with _ | key
  · rfl
  · have hquery : Service.query (.fresh s) = (.ok s, .fresh s) := query_ok.mpr ⟨hu, rfl, rfl⟩
    have hnone : s.storedResponses.find? (isResponseTo c path key) = none :=
      Table.find?_eq_none.mpr (h key rfl)
    unfold getIdempotentReplay
    dsimp only
    rw [bind_of_ok hquery, hnone]
    rfl

theorem recordIdempotentResponse_unused {s : Session Store} (hu : UniqueIndexes s.working.fleet)
    (h : ∀ k ∈ key, ∀ r ∈ s.working.storedResponses, isResponseTo c path k r = false) :
    ∃ t, recordIdempotentResponse c path key response s = (.ok (), t) ∧
      ∀ r ∈ t.working.storedResponses, r ∈ s.working.storedResponses ∨
        r.userId = c.userId ∧ some r.idempotencyKey = key ∧ r.requestPath = path := by
  rcases key with _ | key
  · exact ⟨s, rfl, fun r hr => .inl hr⟩
  · have hquery : Service.query s = (.ok s.working, s) := query_ok.mpr ⟨hu, rfl, rfl⟩
    have hnone : s.working.storedResponses.find? (isResponseTo c path key) = none :=
      Table.find?_eq_none.mpr (h key rfl)
    unfold recordIdempotentResponse
    dsimp only
    rw [bind_of_ok hquery, hnone]
    refine ⟨_, (update_bind _ _ _).trans (flush_ok.mpr ⟨hu, rfl⟩), fun r hr => ?_⟩
    rcases (Table.mem_add_mk fun _ => rfl).mp hr with hr | rfl
    · exact .inl hr
    · exact .inr ⟨rfl, rfl, rfl⟩

theorem answered_of_unused
    {t : Session Store} (hunused : Unused c path s) (hu : UniqueIndexes s.fleet)
    (hrun : x (.fresh s) = (.ok response, t)) (ht : UniqueIndexes t.working.fleet)
    (hkept : t.working.storedResponses = s.storedResponses) :
    ∃ t', (answered c path x).call s = (.ok response, t') ∧ core t' = core t.working ∧
      ∀ r ∈ t'.storedResponses, r ∈ s.storedResponses ∨ r.userId = c.userId ∧
        normalizeIdempotencyKey c.idempotencyKey = .ok (some r.idempotencyKey) ∧
        r.requestPath = path := by
  obtain ⟨key, hkey, hnone⟩ := hunused
  have hreplay := getIdempotentReplay_unused hnone hu
  obtain ⟨t₁, hrecord, hrows⟩ := @recordIdempotentResponse_unused c path key response t ht
    (hkept ▸ hnone)
  obtain ⟨-, hcore⟩ := recordIdempotentResponse_ok hrecord
  have hu₁ : UniqueIndexes t₁.working.fleet := by
    rw [(core_eq hcore).1]
    exact ht
  have hend := (commitAll_pure response t₁).trans (if_pos hu₁)
  have hprogram : answered c path x (.fresh s) = (.ok response, ⟨t₁.working, t₁.working⟩) := by
    rw [answered, lift_bind hkey, bind_of_ok hreplay]
    exact (bind_of_ok hrun).trans ((bind_of_ok hrecord).trans hend)
  refine ⟨t₁.working, call_eq hprogram, hcore, fun r hr => ?_⟩
  rcases hrows r hr with hr | ⟨huser, hrkey, hpath⟩
  · exact .inl (hkept ▸ hr)
  · exact .inr ⟨huser, by rw [hkey, hrkey], hpath⟩

/-- A request with an unused key that succeeds has been carried out. -/
theorem answered_unused_ok {s t' : Store} (hunused : Unused c path s) (hu : UniqueIndexes s.fleet)
    (h : (answered c path x).call s = (.ok response, t')) :
    ∃ t, x (.fresh s) = (.ok response, t) ∧ UniqueIndexes t.working.fleet ∧
      core t' = core t.working := by
  obtain ⟨key, hkey, hnone⟩ := hunused
  have hreplay := getIdempotentReplay_unused hnone hu
  obtain ⟨t₂, hprogram, rfl⟩ := call_ok h
  rw [answered, lift_bind hkey, bind_of_ok hreplay] at hprogram
  obtain ⟨data, t, hrun, hprogram⟩ := bind_ok.mp hprogram
  obtain ⟨_, t₁, hrecord, hprogram⟩ := bind_ok.mp hprogram
  obtain ⟨-, hcore⟩ := recordIdempotentResponse_ok hrecord
  rw [commitAll_pure] at hprogram
  split_ifs at hprogram with hu₁
  · obtain ⟨hdata, rfl⟩ := Prod.mk.inj hprogram
    obtain rfl := Except.ok.inj hdata
    exact ⟨t, hrun, (core_eq hcore).1 ▸ hu₁, hcore⟩
  · cases (Prod.mk.inj hprogram).1

end

section

variable [Casing]

/-! ## Rows of manifests -/

variable {m : Manifest} {s t : Session Store}

theorem loadManifestById_ok {id : String} :
    loadManifestById id s = (.ok m, t) ↔ UniqueIndexes s.working.fleet ∧
      findManifestsByNormalizedId s.working id = [m] ∧ s = t := by
  unfold loadManifestById
  constructor
  · intro h
    obtain ⟨found, _, hquery, h⟩ := bind_ok.mp h
    obtain ⟨hu, rfl, rfl⟩ := query_ok.mp hquery
    rcases hrows : findManifestsByNormalizedId s.working id with _ | ⟨x, _ | ⟨y, rows⟩⟩
    · rw [hrows] at h
      cases h
    · rw [hrows] at h
      obtain ⟨rfl, rfl⟩ := pure_ok.mp h
      exact ⟨hu, rfl, rfl⟩
    · rw [hrows] at h
      cases h
  · rintro ⟨hu, hrows, rfl⟩
    have hquery : Service.query s = (.ok s.working, s) := query_ok.mpr ⟨hu, rfl, rfl⟩
    rw [bind_of_ok hquery, hrows]
    rfl

theorem mem_findManifests {s : Store} {id : String} :
    m ∈ findManifestsByNormalizedId s id ↔ m ∈ s.manifests ∧ sqlUpper m.id = id := by
  rw [findManifestsByNormalizedId, Table.mem_filter, decide_eq_true_eq]

theorem findManifests_set {s : Store} {id : String} {m m' : Manifest}
    (h : findManifestsByNormalizedId s id = [m]) (hid : m'.id = m.id) :
    findManifestsByNormalizedId { s with manifests := s.manifests.set m' } id = [m'] := by
  unfold findManifestsByNormalizedId at h ⊢
  dsimp only
  rw [Table.filter_set fun x _ hkey => by
    have hkey' : x.id = m'.id := hkey
    rw [hkey'], h]
  simp [hid]

theorem normalizeManifestStatus_text [AsciiUpper] (status : ManifestStatus) (field : String) :
    normalizeManifestStatus status.text field = .ok status := by
  have hall : ((blanked (Core.Text.strip status.text)).toList.all fun c => c.toNat < 128) =
      true := by
    rcases status <;> decide +kernel
  have hascii : ∀ c ∈ (blanked (Core.Text.strip status.text)).toList, c.toNat < 128 :=
    fun c hc => of_decide_eq_true (List.all_eq_true.mp hall c hc)
  unfold normalizeManifestStatus
  rw [AsciiUpper.upper_ascii _ hascii]
  rcases status <;> rfl

theorem assertManifestReceivable_ok {m m' : Manifest} :
    assertManifestReceivable m s = (.ok m', t) ↔ ∃ status,
      normalizeManifestStatus m.status "manifest.status" = .ok status ∧ status ≠ .processed ∧
        { m with status := status.text } = m' ∧
        ⟨s.committed, { s.working with manifests := s.working.manifests.set m' }⟩ = t := by
  simp only [assertManifestReceivable, bind_ok, lift_ok, saveManifest_ok, ensure_ok, pure_ok]
  constructor
  · rintro ⟨status, _, ⟨hstatus, rfl⟩, _, _, rfl, _, _, ⟨hopen, rfl⟩, _, _, ⟨-, rfl⟩, rfl, rfl⟩
    exact ⟨status, hstatus, hopen, rfl, rfl⟩
  · rintro ⟨status, hstatus, hopen, rfl, rfl⟩
    have hallowed : status ∈ receiveAllowedManifestStatuses := by
      rcases status
      · decide
      · decide
      · decide
      · exact absurd rfl hopen
    exact ⟨status, _, ⟨hstatus, rfl⟩, (), _, rfl, (), _, ⟨hopen, rfl⟩, (), _, ⟨hallowed, rfl⟩, rfl,
      rfl⟩

/-! ## Receiving -/

/-- The manifest is found, open and consistent. -/
structure Receivable (id : String) (m : Manifest) (s : Store) : Prop where
  found : findManifestsByNormalizedId s id = [m]
  unprocessed : ∃ status, normalizeManifestStatus m.status "manifest.status" = .ok status ∧
    status ≠ .processed
  named : ItemsNamed m.id s.manifestItems

/-- The updates of a request have normalised serials, no two of them the same. -/
structure Serials (us : List ItemUpdate) : Prop where
  normal : ∀ u ∈ us, normal u.batteryId = u.batteryId
  named : ∀ u ∈ us, u.batteryId ≠ ""
  nodup : (us.map ItemUpdate.batteryId).Nodup

def Awaited (v : Slot) : Prop := v.item = some "pending" ∨ v.item = some "missing"

/-- The status that a receipt leaves. -/
structure StatusOf (v : String → Slot) (status : ManifestStatus) : Prop where
  inProgress : (∃ k, Awaited (v k)) → status = .inProgress
  received : (¬ ∃ k, Awaited (v k)) → status = .received

variable {v : String → Slot}

omit [Casing] in
theorem StatusOf.unique {status status' : ManifestStatus}
    (h : StatusOf v status) (h' : StatusOf v status') : status = status' := by
  by_cases hawaited : ∃ k, Awaited (v k)
  · rw [h.inProgress hawaited, h'.inProgress hawaited]
  · rw [h.received hawaited, h'.received hawaited]

omit [Casing] in
theorem StatusOf.ne_processed {status : ManifestStatus}
    (h : StatusOf v status) : status ≠ .processed := by
  by_cases hawaited : ∃ k, Awaited (v k)
  · rw [h.inProgress hawaited]
    decide
  · rw [h.received hawaited]
    decide

/-- What a receipt leaves: the rounds of its updates, and the status of the manifest. -/
structure ManifestReceived (r : Receipt) (us : List ItemUpdate) (m : Manifest) (s t : Store) :
    Prop where
  id : r.manifestId = m.id
  named : ItemsNamed r.manifestId t.manifestItems
  rounds : Rounds r us s { t with manifests := s.manifests }
  manifests : ∃ status, StatusOf (slot r.manifestId t) status ∧
    t.manifests = s.manifests.set { m with status := status.text }

def EntriesFound (itemMap : List (String × ManifestItem)) : Prop :=
  ∀ e ∈ itemMap, itemMap.lookup e.1 = some e.2

omit [Casing] in
theorem EntriesFound.assign {itemMap : List (String × ManifestItem)} (h : EntriesFound itemMap)
    (serial : String) (item : ManifestItem) : EntriesFound (assign itemMap serial item) := by
  intro e he
  rw [lookup_assign]
  rcases List.mem_cons.mp he with rfl | he
  · rw [if_pos rfl]
  · obtain ⟨hmem, hne⟩ := List.mem_filter.mp he
    rw [if_neg (of_decide_eq_true hne), h e hmem]

theorem entriesFound_receiveItems {r : Receipt} {known : List String} {us : List ItemUpdate}
    {itemMap received : List (String × ManifestItem)} (hentries : EntriesFound itemMap)
    (h : us.foldlM (receiveItem r known) itemMap s = (.ok received, t)) :
    EntriesFound received := by
  induction us generalizing itemMap s with
  | nil =>
    obtain ⟨rfl, -⟩ := pure_ok.mp h
    exact hentries
  | cons u us ih =>
    rw [List.foldlM_cons] at h
    obtain ⟨next, s₁, hround, h⟩ := bind_ok.mp h
    obtain ⟨item, _, -, hround⟩ := bind_ok.mp hround
    obtain ⟨id, _, -, hround⟩ := bind_ok.mp hround
    obtain ⟨_, _, -, hround⟩ := bind_ok.mp hround
    obtain ⟨rfl, -⟩ := pure_ok.mp hround
    exact ih (hentries.assign _ _) h

variable {manifestId : String}

theorem statusOf_received {received : List (String × ManifestItem)}
    {t : Store} (hready : Ready manifestId received t) (hentries : EntriesFound received)
    (hne : received ≠ []) :
    StatusOf (slot manifestId t) (computeManifestStatus (received.map Prod.snd)) := by
  have hmap : received.map Prod.snd ≠ [] := fun h => hne (List.map_eq_nil_iff.mp h)
  have hiff : (∃ k, Awaited (slot manifestId t k)) ↔
      ∃ item ∈ received.map Prod.snd, item.status = "pending" ∨ item.status = "missing" := by
    constructor
    · rintro ⟨k, hawaited⟩
      rcases hitem : itemOf t.manifestItems manifestId k with _ | item
      · unfold Awaited slot at hawaited
        rw [hitem] at hawaited
        simp at hawaited
      · have hlookup := (hready.sync k).trans hitem
        obtain ⟨before, after, hsplit, -⟩ := List.lookup_eq_some_iff.mp hlookup
        refine ⟨item, List.mem_map.mpr ⟨(k, item), ?_, rfl⟩, ?_⟩
        · rw [hsplit]
          exact List.mem_append_right _ List.mem_cons_self
        unfold Awaited slot at hawaited
        rw [hitem] at hawaited
        simpa using hawaited
    · rintro ⟨item, hitem, hstatus⟩
      obtain ⟨e, he, rfl⟩ := List.mem_map.mp hitem
      have hfound := (hready.sync e.1).symm.trans (hentries e he)
      refine ⟨e.1, ?_⟩
      unfold Awaited slot
      rw [hfound]
      simpa using hstatus
  constructor
  · intro hawaited
    rw [computeManifestStatus, if_neg hmap, if_pos (hiff.mp hawaited)]
  · intro hnone
    rw [computeManifestStatus, if_neg hmap, if_neg fun h => hnone (hiff.mpr h)]

theorem findManifests_mem {s : Store} {id : String}
    (h : findManifestsByNormalizedId s id = [m]) : m ∈ s.manifests ∧ sqlUpper m.id = id :=
  mem_findManifests.mp (by rw [h]; exact List.mem_singleton_self m)

theorem listed_of_serials {us : List ItemUpdate} (hserials : Serials us)
    (itemMap : List (String × ManifestItem)) : Listed (itemMap.map Prod.fst) itemMap us := by
  refine ⟨hserials.normal, hserials.named, hserials.nodup, fun u _ i hi => ?_⟩
  obtain ⟨before, after, hsplit, -⟩ := List.lookup_eq_some_iff.mp hi
  refine List.mem_map.mpr ⟨(u.batteryId, i), ?_, rfl⟩
  rw [hsplit]
  exact List.mem_append_right _ List.mem_cons_self

theorem ready_itemsOf {s : Store} (hu : UniqueIndexes s.fleet)
    (hnamed : ItemsNamed manifestId s.manifestItems) :
    Ready manifestId ((itemsOf s manifestId).map entry) s ∧
      EntriesFound ((itemsOf s manifestId).map entry) := by
  refine ⟨⟨hu, hnamed, lookup_itemsOf manifestId s⟩, fun e he => ?_⟩
  obtain ⟨item, hitem, rfl⟩ := List.mem_map.mp he
  rw [lookup_itemsOf]
  obtain ⟨hmem, hm⟩ := Table.mem_filter.mp hitem
  exact (hnamed item hmem (of_decide_eq_true hm)).2

variable {now actorId warehouseId : ℕ} {id : String} {us : List ItemUpdate}

theorem receiveRows_ok {response : ManifestRead} (hserials : Serials us)
    (hne : us ≠ []) (h : receiveRows now actorId warehouseId id us s = (.ok response, t)) :
    UniqueIndexes s.working.fleet ∧ ∃ m, Receivable id m s.working ∧
      AdmitsAll warehouseId (elsewhere s.working.fleet) (slot m.id s.working) us ∧
      ManifestReceived ⟨now, actorId, m.id, warehouseId⟩ us m s.working t.working ∧
      UniqueIndexes t.working.fleet := by
  obtain ⟨m, _, hload, h⟩ := bind_ok.mp h
  obtain ⟨hu, hfound, rfl⟩ := loadManifestById_ok.mp hload
  obtain ⟨m', _, hassert, h⟩ := bind_ok.mp h
  obtain ⟨status, hstatus, hopen, rfl, rfl⟩ := assertManifestReceivable_ok.mp hassert
  obtain ⟨s', _, hlook, h⟩ := bind_ok.mp h
  obtain ⟨rfl, rfl⟩ := look_ok.mp hlook
  obtain ⟨itemMap, _, hlift, h⟩ := bind_ok.mp h
  obtain ⟨hmap, rfl⟩ := lift_ok.mp hlift
  obtain ⟨hnamed, rfl⟩ := buildManifestItemMap_ok.mp hmap
  obtain ⟨received, s₂, hloop, h⟩ := bind_ok.mp h
  obtain ⟨_, _, hsave, h⟩ := bind_ok.mp h
  obtain rfl := saveManifest_ok.mp hsave
  obtain ⟨m'', _, hload', h⟩ := bind_ok.mp h
  obtain ⟨hu', -, rfl⟩ := loadManifestById_ok.mp hload'
  obtain ⟨-, rfl⟩ := pure_ok.mp h
  obtain ⟨hready, hentries⟩ := ready_itemsOf (s := { s.working with
    manifests := s.working.manifests.set { m with status := status.text } }) hu hnamed
  obtain ⟨-, hend, hrounds, hadmits⟩ :=
    receiveItems_ok hready (listed_of_serials hserials _) hloop
  have hentries' := entriesFound_receiveItems hentries hloop
  have hreceived : received ≠ [] := by
    rintro rfl
    obtain ⟨u, hu⟩ := List.exists_mem_of_ne_nil us hne
    have hslot := congrFun hrounds.slot_eq u.batteryId
    rw [run_of_mem hserials.nodup hu] at hslot
    have hitem := congrArg Slot.item hslot
    have hnone := hend.sync u.batteryId
    unfold slot at hitem
    rw [← hnone] at hitem
    cases hitem
  refine ⟨hu, m, ⟨hfound, ⟨status, hstatus, hopen⟩, hnamed⟩, hadmits, ⟨rfl, hend.named, ?_, ?_⟩,
    hu'⟩
  · exact hrounds.withManifests s.working.manifests
  · have hcomputed := statusOf_received hend hentries' hreceived
    refine ⟨_, hcomputed, ?_⟩
    dsimp only
    rw [hrounds.untouched.manifests]
    exact Table.set_set rfl

theorem receiveRows_of_admitsAll {s : Session Store} (hserials : Serials us)
    (hu : UniqueIndexes s.working.fleet) (hreceivable : Receivable id m s.working)
    (hadmits : AdmitsAll warehouseId (elsewhere s.working.fleet) (slot m.id s.working) us) :
    ∃ response t, receiveRows now actorId warehouseId id us s = (.ok response, t) := by
  obtain ⟨status, hstatus, hopen⟩ := hreceivable.unprocessed
  have hload := loadManifestById_ok.mpr ⟨hu, hreceivable.found, rfl⟩
  have hassert := assertManifestReceivable_ok (s := s).mpr ⟨status, hstatus, hopen, rfl, rfl⟩
  have hmap := buildManifestItemMap_ok (s := { s.working with
    manifests := s.working.manifests.set { m with status := status.text } }).mpr
      ⟨hreceivable.named, rfl⟩
  obtain ⟨hready, -⟩ := ready_itemsOf (s := { s.working with
    manifests := s.working.manifests.set { m with status := status.text } }) hu hreceivable.named
  obtain ⟨received, t, hloop⟩ := receiveItems_of_admitsAll (s := ⟨s.committed, { s.working with
    manifests := s.working.manifests.set { m with status := status.text } }⟩)
    (r := ⟨now, actorId, m.id, warehouseId⟩) hready (listed_of_serials hserials _) hadmits
  obtain ⟨-, hend, hrounds, -⟩ := receiveItems_ok hready (listed_of_serials hserials _) hloop
  have hrows := hrounds.untouched.manifests
  obtain ⟨m', hm'⟩ : ∃ m', m' = { m with
    status := (computeManifestStatus (received.map Prod.snd)).text } := ⟨_, rfl⟩
  have hfound : findManifestsByNormalizedId
      { s.working with manifests := s.working.manifests.set m' } id = [m'] :=
    findManifests_set hreceivable.found (by rw [hm'])
  have hload' : loadManifestById id
      ⟨t.committed, { t.working with manifests := t.working.manifests.set m' }⟩ =
      (.ok m', ⟨t.committed, { t.working with manifests := t.working.manifests.set m' }⟩) := by
    refine loadManifestById_ok.mpr ⟨hend.unique, ?_, rfl⟩
    unfold findManifestsByNormalizedId at hfound ⊢
    dsimp only at hfound hrows ⊢
    rw [hrows, Table.set_set (by rw [hm']; rfl)]
    exact hfound
  subst hm'
  unfold receiveRows
  rw [bind_of_ok hload, bind_of_ok hassert, look_bind, lift_bind hmap, bind_of_ok hloop]
  exact ⟨_, _, (bind_of_ok hload').trans rfl⟩

end

end WezuBackend.Manifests.Requests
