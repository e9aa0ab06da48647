import WezuBackend.Manifests.Steps

/-!
# Processed manifests are complete

Each item of a manifest carries its history: it is as the creation has listed it, or a request to
receive has named it, and if it has arrived then that request has moved its battery into a
warehouse (`Tracked`).  A request to process finds no item pending or missing, and nothing changes
the manifest's items afterwards.
-/

namespace WezuBackend.Manifests.Completeness

open Lib.Tables
open Lib.Runs
open Core.Text Core.Letters Fleet.Model
open Manifests.Service hiding flush query commitAll
open Manifests.Intake Manifests.Receiving Manifests.Requests
open Manifests.Composition Manifests.Steps

theorem ItemStatus.text_injective : Function.Injective ItemStatus.text := by
  intro st st' h
  cases st <;> cases st' <;> first | rfl | exact absurd h (by decide)

theorem lookup_text {raw : String} {st : ItemStatus}
    (h : allowedManifestItemStatuses.lookup raw = some st) : raw = st.text := by
  obtain ⟨before, after, hsplit, -⟩ := List.lookup_eq_some_iff.mp h
  have hmem : (raw, st) ∈ allowedManifestItemStatuses := by
    rw [hsplit]
    exact List.mem_append_right _ List.mem_cons_self
  simp only [allowedManifestItemStatuses, List.mem_cons, Prod.mk.injEq, List.not_mem_nil,
    or_false] at hmem
  rcases hmem with ⟨rfl, rfl⟩ | ⟨rfl, rfl⟩ | ⟨rfl, rfl⟩ | ⟨rfl, rfl⟩ | ⟨rfl, rfl⟩ <;> rfl

theorem ManifestStatus.text_injective : Function.Injective ManifestStatus.text := by
  intro st st' h
  cases st <;> cases st' <;> first | rfl | exact absurd h (by decide)

section

variable [Casing]

/-! ## What the rounds leave -/

/-- The serial has the battery `k`, under that name. -/
def HasBattery (db : Db) (serial : String) (k : ℕ) : Prop :=
  ∃ b, batteriesOf db serial = [b] ∧ b.id = k ∧ b.serialNumber = serial

variable {serial : String} {u : ItemUpdate}

theorem hasBattery_taken {warehouseId k : ℕ} {before id : Option ℕ} {db db' : Db}
    (htaken : Taken warehouseId u before db db' id)
    (h : HasBattery db serial k) : HasBattery db' serial k := by
  obtain ⟨b, hone, hid, hserial⟩ := h
  cases htaken with
  | brought hs hbrought =>
    by_cases hsame : serial = u.batteryId
    · obtain ⟨b', hone', hid', hserial', -⟩ := hbrought.arrived
      have hb : b ∈ batteriesOf db u.batteryId := by
        rw [← hsame, hone]
        exact List.mem_singleton_self b
      have hkept := hbrought.same b hb
      exact ⟨b', by rw [hsame, hone'], by rw [hid', ← hkept, hid], by rw [hserial', hsame]⟩
    · have hkept := hbrought.others serial hsame
      exact ⟨b, hkept.trans hone, hid, hserial⟩
  | noted hs hbatteries hshelf hrest =>
    have hkept := batteriesOf_congr hbatteries serial
    exact ⟨b, hkept.trans hone, hid, hserial⟩

variable {r : Receipt} {us : List ItemUpdate}

theorem hasBattery_rounds {s t : Store}
    {k : ℕ} (hrounds : Rounds r us s t) (h : HasBattery s.fleet serial k) :
    HasBattery t.fleet serial k := by
  induction hrounds with
  | nil s => exact h
  | cons hitem _ ih =>
    obtain ⟨before, htaken⟩ := hitem.taken
    exact ih (hasBattery_taken htaken h)

theorem rounds_others {s t : Store}
    (hrounds : Rounds r us s t) {k : String} (hk : k ∉ us.map ItemUpdate.batteryId) :
    itemOf t.manifestItems r.manifestId k = itemOf s.manifestItems r.manifestId k ∧
      batteriesOf t.fleet k = batteriesOf s.fleet k := by
  induction hrounds with
  | nil s => exact ⟨rfl, rfl⟩
  | @cons u us s t w item hitem _ ih =>
    rw [List.map_cons, List.mem_cons, not_or] at hk
    obtain ⟨hitems, hbatteries⟩ := ih hk.2
    obtain ⟨before, htaken⟩ := hitem.taken
    refine ⟨hitems.trans (hitem.others k hk.1), hbatteries.trans ?_⟩
    generalize item.batteryTableId = id at htaken
    cases htaken with
    | brought hs hbrought => exact hbrought.others k hk.1
    | noted hs hsame hshelf hrest => exact batteriesOf_congr hsame k

/-- The item of an update, and the battery that it has brought in. -/
structure Arrived (r : Receipt) (u : ItemUpdate) (t : Store) (item : ManifestItem) : Prop where
  found : itemOf t.manifestItems r.manifestId u.batteryId = some item
  status : item.status = u.status.text
  serial : item.batteryId = u.batteryId
  battery : ∀ status, arrival u.status = some status → ∃ b, batteriesOf t.fleet u.batteryId = [b] ∧
    item.batteryTableId = some b.id ∧ b.serialNumber = u.batteryId ∧
    place b = (status, some .warehouse, some r.warehouseId)

theorem rounds_arrived {s t : Store}
    (hrounds : Rounds r us s t) (hnodup : (us.map ItemUpdate.batteryId).Nodup)
    (hu : u ∈ us) : ∃ item, Arrived r u t item := by
  induction hrounds with
  | nil s => cases hu
  | @cons x us s t w item hitem hrest ih =>
    rw [List.map_cons, List.nodup_cons] at hnodup
    rcases List.mem_cons.mp hu with rfl | hu
    · obtain ⟨hitems, hbatteries⟩ := rounds_others hrest hnodup.1
      refine ⟨item, hitems.trans hitem.found, hitem.status, hitem.serial, fun status hs => ?_⟩
      obtain ⟨before, htaken⟩ := hitem.taken
      generalize item.batteryTableId = id at htaken ⊢
      cases htaken with
      | brought hs' hbrought =>
        obtain rfl := Option.some.inj (hs.symm.trans hs')
        obtain ⟨b, hone, hid, hserial, hplace⟩ := hbrought.arrived
        exact ⟨b, hbatteries.trans hone, by rw [hid], hserial, hplace⟩
      | noted hs' _ _ _ => rw [hs] at hs'; cases hs'
    · exact ih hnodup.2 hu

/-! ## The history of an item -/

def Lists (id serial status : String) (s : Store) : Op → Prop
  | .create c data => CarriedOut s (.create c data) ∧ normal data.id = id ∧
      ∃ i ∈ data.items, normal i.batteryId = serial ∧ lower (strip i.status) = status
  | .receive _ _ _ => False
  | .process _ _ => False

/-- A request to receive that is carried out names the serial. -/
def Names (id serial : String) (s : Store) : Op → Prop
  | .create _ _ => False
  | .receive c manifestId data => CarriedOut s (.receive c manifestId data) ∧
      normal manifestId = id ∧ ∃ i ∈ data.items, normal i.batteryId = serial
  | .process _ _ => False

/-- It brings the battery `k` of the serial into its warehouse. -/
def Brings (id serial : String) (k : ℕ) (s : Store) : Op → Prop
  | .create _ _ => False
  | .receive c manifestId data => Names id serial s (.receive c manifestId data) ∧
      ∃ w b, intakeWarehouse s.fleet data.warehouseId = some w ∧
        b ∈ (step s (.receive c manifestId data)).fleet.batteries ∧ b.id = k ∧
        b.serialNumber = serial ∧ b.locationType = some .warehouse ∧ b.locationId = some w
  | .process _ _ => False

structure Tracked (id : String) (s : Store) (os : List Op) (i : ManifestItem) : Prop where
  normal : normal i.batteryId = i.batteryId
  known : ∃ st : ItemStatus, i.status = st.text
  listed : ¬ Sometime step (Names id i.batteryId) s os →
    Sometime step (Lists id i.batteryId i.status) s os
  brought : Sometime step (Names id i.batteryId) s os →
    (∃ st, arrival st ≠ none ∧ i.status = st.text) → ∃ k, i.batteryTableId = some k ∧
      HasBattery (run step s os).fleet i.batteryId k ∧
      Sometime step (Brings id i.batteryId k) s os

structure History (id : String) (s : Store) (os : List Op) : Prop where
  single : ∀ m ∈ (run step s os).manifests, sqlUpper m.id = id → m.id = id
  text : ∀ m ∈ (run step s os).manifests, m.id = id → ∃ st : ManifestStatus, m.status = st.text
  items : ∀ i ∈ itemsOf (run step s os) id, Tracked id s os i
  absent : (∀ m ∈ (run step s os).manifests, m.id ≠ id) → itemsOf (run step s os) id = [] ∧
    ∀ serial, ¬ Sometime step (Names id serial) s os
  done : ∀ m ∈ (run step s os).manifests, m.id = id → m.status = ManifestStatus.processed.text →
    ∀ i ∈ itemsOf (run step s os) id, i.status ≠ "pending" ∧ i.status ≠ "missing"

variable {id : String} {s : Store} {os : List Op} {o : Op}

variable {i : ManifestItem}

theorem Tracked.kept (h : Tracked id s os i) (hnames : ¬ Names id i.batteryId (run step s os) o)
    (hbattery : ∀ k, HasBattery (run step s os).fleet i.batteryId k →
      HasBattery (run step s (os ++ [o])).fleet i.batteryId k) :
    Tracked id s (os ++ [o]) i := by
  have hiff : Sometime step (Names id i.batteryId) s (os ++ [o]) ↔
      Sometime step (Names id i.batteryId) s os := by
    rw [sometime_concat, or_iff_left hnames]
  refine ⟨h.normal, h.known, fun hno => ?_, fun hyes hst => ?_⟩
  · rw [hiff] at hno
    exact sometime_concat.mpr (.inl (h.listed hno))
  · rw [hiff] at hyes
    obtain ⟨k, hk, hhas, hbrings⟩ := h.brought hyes hst
    exact ⟨k, hk, hbattery k hhas, sometime_concat.mpr (.inl hbrings)⟩

theorem names_carriedOut (h : Names id serial s o) : CarriedOut s o := by
  cases o with
  | create c data => exact h.elim
  | receive c manifestId data => exact h.1
  | process c manifestId => exact h.elim

theorem History.kept (h : History id s os)
    (hnames : ∀ serial, ¬ Names id serial (run step s os) o)
    (hmanifests : ∀ m, m ∈ (run step s (os ++ [o])).manifests ∧ sqlUpper m.id = id ↔
      m ∈ (run step s os).manifests ∧ sqlUpper m.id = id)
    (hitems : itemsOf (run step s (os ++ [o])) id = itemsOf (run step s os) id)
    (hbattery : ∀ serial k, HasBattery (run step s os).fleet serial k →
      HasBattery (run step s (os ++ [o])).fleet serial k) (hid : sqlUpper id = id) :
    History id s (os ++ [o]) := by
  have hback : ∀ m ∈ (run step s (os ++ [o])).manifests, m.id = id →
      m ∈ (run step s os).manifests := fun m hm hmid =>
    ((hmanifests m).mp ⟨hm, by rw [hmid, hid]⟩).1
  refine ⟨fun m hm hupper => ?_, fun m hm hmid => ?_, fun i hi => ?_, fun hnone => ?_,
    fun m hm hmid hstatus => ?_⟩
  · exact h.single m ((hmanifests m).mp ⟨hm, hupper⟩).1 hupper
  · exact h.text m (hback m hm hmid) hmid
  · rw [hitems] at hi
    exact (h.items i hi).kept (hnames _) (hbattery _)
  · obtain ⟨hempty, hno⟩ := h.absent fun m hm hmid =>
      hnone m ((hmanifests m).mpr ⟨hm, by rw [hmid, hid]⟩).1 hmid
    refine ⟨hitems.trans hempty, fun serial => ?_⟩
    rw [sometime_concat, or_iff_left (hnames serial)]
    exact hno serial
  · rw [hitems]
    exact h.done m (hback m hm hmid) hmid hstatus

theorem History.refused (h : History id s os) (hno : ¬ CarriedOut (run step s os) o)
    (hcore : core (step (run step s os) o) = core (run step s os)) (hid : sqlUpper id = id) :
    History id s (os ++ [o]) := by
  obtain ⟨hfleet, hmanifests, hitems⟩ := core_eq hcore
  refine h.kept (fun serial hnames => hno (names_carriedOut hnames)) (fun m => ?_) ?_
    (fun serial k hhas => ?_) hid
  · rw [run_concat, hmanifests]
  · rw [run_concat, itemsOf, hitems, itemsOf]
  · rw [run_concat, hfleet]
    exact hhas

variable {c : Caller} {m : Manifest}

theorem History.created {data : ManifestCreate}
    {ps : List ItemPayload} (h : History id s os) (hid : sqlUpper id = id)
    (hcarried : CarriedOut (run step s os) (.create c data)) (hmid : m.id = normal data.id)
    (hstatus : ∃ status, status ≠ ManifestStatus.processed ∧ m.status = status.text)
    (hps : ∀ p ∈ ps, p.batteryId = normal p.batteryId ∧ ∃ i ∈ data.items,
      normal i.batteryId = p.batteryId ∧
        allowedManifestItemStatuses.lookup (lower (strip i.status)) = some p.status)
    (hcreated : Created m ps (run step s os) (step (run step s os) (.create c data))) :
    History id s (os ++ [.create c data]) := by
  by_cases hsame : m.id = id
  · have hnone : ∀ x ∈ (run step s os).manifests, x.id ≠ id := by
      intro x hx hxid
      exact hcreated.absent x hx (by rw [hxid, hid, hsame])
    obtain ⟨hempty, hno⟩ := h.absent hnone
    have hnew : ∀ x ∈ (run step s (os ++ [.create c data])).manifests, sqlUpper x.id = id →
        x = m := by
      intro x hx hxid
      rw [run_concat, hcreated.manifests] at hx
      rcases hx with hx | rfl
      · exact absurd (hxid.trans hsame.symm) (hcreated.absent x hx)
      · rfl
    obtain ⟨status, hopen, htext⟩ := hstatus
    refine ⟨fun x hx hxid => ?_, fun x hx hxid => ?_, fun i hi => ?_, fun hgone => ?_,
      fun x hx hxid hprocessed => ?_⟩
    · rw [hnew x hx hxid, hsame]
    · rw [hnew x hx (by rw [hxid, hid])]
      exact ⟨status, htext⟩
    · rw [run_concat, ← hsame] at hi
      rcases hcreated.items i hi with hi | ⟨p, hp, hserial, hitem⟩
      · rw [hsame, hempty] at hi
        cases hi
      · obtain ⟨hnormal, x, hx, hxserial, hlookup⟩ := hps p hp
        have hlower : lower (strip x.status) = p.status.text := lookup_text hlookup
        refine ⟨by rw [hserial, ← hnormal], ⟨p.status, hitem⟩, fun _ => ?_, fun hyes => ?_⟩
        · refine sometime_concat.mpr (.inr ⟨hcarried, hmid.symm.trans hsame, x, hx, ?_, ?_⟩)
          · rw [hxserial, hserial]
          · rw [hlower, hitem]
        · rcases sometime_concat.mp hyes with hyes | hyes
          · exact absurd hyes (hno _)
          · exact hyes.elim
    · refine absurd hsame (hgone m ?_)
      rw [run_concat, hcreated.manifests]
      exact .inr rfl
    · rw [hnew x hx (by rw [hxid, hid]), htext] at hprocessed
      exact absurd (ManifestStatus.text_injective hprocessed) hopen
  · have hupper : sqlUpper m.id ≠ id := by
      rwa [hmid, sqlUpper_normal, ← hmid]
    refine h.kept (fun _ hnames => hnames.elim) (fun x => ?_) ?_ (fun serial k hhas => ?_) hid
    · rw [run_concat, hcreated.manifests]
      constructor
      · rintro ⟨hx | rfl, hxid⟩
        · exact ⟨hx, hxid⟩
        · exact absurd hxid hupper
      · exact fun hx => ⟨.inl hx.1, hx.2⟩
    · rw [run_concat]
      exact hcreated.others id (Ne.symm hsame)
    · rw [run_concat, hcreated.fleet]
      exact hhas

variable {t : Store}

omit [Casing] in
theorem mem_itemsOf {x : String} :
    i ∈ itemsOf t x ↔ i ∈ t.manifestItems ∧ i.manifestId = x := by
  rw [itemsOf, Table.mem_filter, decide_eq_true_eq]

omit [Casing] in
theorem mem_set_status {manifests : Table Manifest} {m x : Manifest} (hm : m ∈ manifests)
    (text : String) : x ∈ manifests.set { m with status := text } ↔
      (x ∈ manifests ∧ x.id ≠ m.id) ∨ x = { m with status := text } := by
  rw [Table.mem_set]
  exact or_congr_right (and_iff_left ⟨m, hm, rfl⟩)

/-- The row `m` has got the status, and no other row is written. -/
def Rewritten (m : Manifest) (status : ManifestStatus) (s t : Store) : Prop :=
  ∀ x, x ∈ t.manifests ↔ (x ∈ s.manifests ∧ x.id ≠ m.id) ∨ x = { m with status := status.text }

variable {status : ManifestStatus}

/-- The manifest is rewritten: the row is still the only one of its id. -/
theorem History.rewritten
    (h : History id s os) (hsame : m.id = id) (hrows : Rewritten m status (run step s os) t) :
    (∀ x ∈ t.manifests, sqlUpper x.id = id → x.id = id) ∧
      (∀ x ∈ t.manifests, x.id = id → x.status = status.text) ∧
      ¬ ∀ x ∈ t.manifests, x.id ≠ id := by
  refine ⟨fun x hx hxid => ?_, fun x hx hxid => ?_, fun hnone => ?_⟩
  · rcases (hrows x).mp hx with ⟨hx, -⟩ | rfl
    · exact h.single x hx hxid
    · exact hsame
  · rcases (hrows x).mp hx with ⟨-, hne⟩ | rfl
    · exact absurd (hxid.trans hsame.symm) hne
    · rfl
  · exact hnone _ ((hrows { m with status := status.text }).mpr (.inr rfl)) hsame

theorem rewritten_other {s t : Store}
    (hother : sqlUpper m.id ≠ id) (hrows : Rewritten m status s t) (x : Manifest) :
    x ∈ t.manifests ∧ sqlUpper x.id = id ↔ x ∈ s.manifests ∧ sqlUpper x.id = id := by
  rw [hrows]
  constructor
  · rintro ⟨⟨hx, -⟩ | rfl, hxid⟩
    · exact ⟨hx, hxid⟩
    · exact absurd hxid hother
  · rintro ⟨hx, hxid⟩
    exact ⟨.inl ⟨hx, fun hxm => hother ((congrArg sqlUpper hxm).symm.trans hxid)⟩, hxid⟩

variable {manifestId : String}

variable {data : ManifestReceiveRequest} {w : ℕ}

theorem tracked_named (hnames : Names id u.batteryId (run step s os) (.receive c manifestId data))
    (hwarehouse : intakeWarehouse (run step s os).fleet data.warehouseId = some w)
    (hnormal : normal u.batteryId = u.batteryId)
    (harrived : Arrived ⟨c.now, c.userId, id, w⟩ u
      (run step s (os ++ [.receive c manifestId data])) i) :
    Tracked id s (os ++ [.receive c manifestId data]) i := by
  obtain ⟨-, hstatus, hserial, hbattery⟩ := harrived
  refine ⟨by rw [hserial, hnormal], ⟨u.status, hstatus⟩, fun hno => ?_, fun _ hst => ?_⟩
  · refine absurd (sometime_concat.mpr (.inr ?_)) hno
    rw [hserial]
    exact hnames
  · obtain ⟨st, harrival, htext⟩ := hst
    obtain rfl : u.status = st := ItemStatus.text_injective (hstatus.symm.trans htext)
    obtain ⟨status, hsome⟩ := Option.ne_none_iff_exists'.mp harrival
    obtain ⟨b, hone, hid, hbserial, hplace⟩ := hbattery status hsome
    have hb : b ∈ batteriesOf (run step s (os ++ [.receive c manifestId data])).fleet
        u.batteryId := by
      rw [hone]
      exact List.mem_singleton_self b
    have htype : b.locationType = some .warehouse := congrArg (fun p => p.2.1) hplace
    have hlocation : b.locationId = some w := congrArg (fun p => p.2.2) hplace
    rw [hserial]
    have hhere : b ∈ (step (run step s os) (.receive c manifestId data)).fleet.batteries := by
      rw [← @run_concat _ _ step]
      exact (mem_batteriesOf.mp hb).1
    exact ⟨b.id, hid, ⟨b, hone, rfl, hbserial⟩, sometime_concat.mpr
      (.inr ⟨hnames, w, b, hwarehouse, hhere, rfl, hbserial, htype, hlocation⟩)⟩

variable {t₀ : Store}

theorem History.received (h : History id s os) (hid : sqlUpper id = id)
    (hcarried : CarriedOut (run step s os) (.receive c manifestId data))
    (hwell : WellFormed data.items)
    (hwarehouse : intakeWarehouse (run step s os).fleet data.warehouseId = some w)
    (hreceivable : Receivable (normal manifestId) m (run step s os))
    (hreceived : ManifestReceived ⟨c.now, c.userId, m.id, w⟩ (data.items.filterMap updateOf) m
      (run step s os) t₀)
    (ht : core (step (run step s os) (.receive c manifestId data)) = core t₀) :
    History id s (os ++ [.receive c manifestId data]) := by
  obtain ⟨hfleet, hmanifests, hitems⟩ := core_eq ht
  rw [← @run_concat _ _ step] at hfleet hmanifests hitems
  obtain ⟨hm, hupper⟩ := findManifests_mem hreceivable.found
  obtain ⟨status, hcomputed, hset⟩ := hreceived.manifests
  have hrounds := hreceived.rounds
  have hbattery : ∀ serial k, HasBattery (run step s os).fleet serial k →
      HasBattery (run step s (os ++ [.receive c manifestId data])).fleet serial k := by
    intro serial k hhas
    have hkept := hasBattery_rounds hrounds hhas
    rw [hfleet]
    exact hkept
  have hrows : Rewritten m status (run step s os)
      (run step s (os ++ [.receive c manifestId data])) := by
    intro x
    rw [hmanifests, hset]
    exact mem_set_status hm _
  by_cases hsame : m.id = id
  · have hmanifestId : normal manifestId = id := by rw [← hupper, hsame, hid]
    have hserials := map_batteryId_filterMap hwell.statuses
    have hnames : ∀ serial, Names id serial (run step s os) (.receive c manifestId data) ↔
        serial ∈ (data.items.filterMap updateOf).map ItemUpdate.batteryId := by
      intro serial
      rw [hserials, List.mem_map]
      exact ⟨fun hnames => hnames.2.2, fun hserial => ⟨hcarried, hmanifestId, hserial⟩⟩
    obtain ⟨hsingle, htext, hthere⟩ := h.rewritten hsame hrows
    refine ⟨hsingle, fun x hx hxid => ⟨status, htext x hx hxid⟩, fun i hi => ?_,
      fun hnone => absurd hnone hthere, fun x hx hxid hprocessed => ?_⟩
    · obtain ⟨hi, him⟩ := mem_itemsOf.mp hi
      rw [hitems] at hi
      obtain ⟨-, hfound⟩ := hreceived.named i hi (him.trans hsame.symm)
      by_cases hserial : normal i.batteryId ∈ (data.items.filterMap updateOf).map
          ItemUpdate.batteryId
      · obtain ⟨u, hu, huserial⟩ := List.mem_map.mp hserial
        obtain ⟨item, hat, hstatus, hitem, hbrought⟩ :=
          rounds_arrived hrounds hwell.serials.nodup hu
        rw [← huserial] at hfound
        obtain rfl := Option.some.inj (hfound.symm.trans hat)
        refine tracked_named ((hnames _).mpr ?_) hwarehouse (hwell.serials.normal u hu)
          ⟨?_, hstatus, hitem, ?_⟩
        · rw [huserial]
          exact hserial
        · rw [hitems, ← hsame]
          exact hfound
        · rw [hfleet]
          exact hbrought
      · have hkept := (rounds_others hrounds hserial).1
        obtain ⟨hmem, hmid, -⟩ := itemOf_some (hkept.symm.trans hfound)
        have htracked := h.items i (mem_itemsOf.mpr ⟨hmem, hmid.trans hsame⟩)
        refine htracked.kept (fun hnamed => ?_) (hbattery _)
        rw [hnames, ← htracked.normal] at hnamed
        exact hserial hnamed
    · rw [htext x hx hxid] at hprocessed
      exact absurd (ManifestStatus.text_injective hprocessed) hcomputed.ne_processed
  · have hother : normal manifestId ≠ id := fun heq => hsame (h.single m hm (hupper.trans heq))
    refine h.kept (fun _ hnames => hother hnames.2.1) (rewritten_other (hupper ▸ hother) hrows) ?_
      hbattery hid
    have hkept := hrounds.untouched.otherManifests id (Ne.symm hsame)
    rw [itemsOf, hitems]
    exact hkept

theorem History.processed [AsciiUpper] (h : History id s os) (hid : sqlUpper id = id)
    (hprocessed : Processed (normal manifestId) (run step s os) t₀)
    (ht : core (step (run step s os) (.process c manifestId)) = core t₀) :
    History id s (os ++ [.process c manifestId]) := by
  obtain ⟨m, hfound, ⟨status, hstatus, hdone⟩, rfl⟩ := hprocessed.found
  obtain ⟨hfleet, hmanifests, hitems⟩ := core_eq ht
  rw [← @run_concat _ _ step] at hfleet hmanifests hitems
  obtain ⟨hm, hupper⟩ := findManifests_mem hfound
  have hitems' : itemsOf (run step s (os ++ [.process c manifestId])) id =
      itemsOf (run step s os) id := by
    rw [itemsOf, hitems, itemsOf]
  have hno : ∀ serial, ¬ Names id serial (run step s os) (.process c manifestId) :=
    fun _ hnames => hnames.elim
  have hbattery : ∀ serial k, HasBattery (run step s os).fleet serial k →
      HasBattery (run step s (os ++ [.process c manifestId])).fleet serial k := by
    intro serial k hhas
    rw [hfleet]
    exact hhas
  have hrows : Rewritten m .processed (run step s os)
      (run step s (os ++ [.process c manifestId])) := by
    intro x
    rw [hmanifests]
    exact mem_set_status hm _
  by_cases hsame : m.id = id
  · obtain ⟨hsingle, htext, hthere⟩ := h.rewritten hsame hrows
    refine ⟨hsingle, fun x hx hxid => ⟨.processed, htext x hx hxid⟩, fun i hi => ?_,
      fun hnone => absurd hnone hthere, fun x hx hxid _ => ?_⟩
    · rw [hitems'] at hi
      exact (h.items i hi).kept (hno _) (hbattery _)
    · rw [hitems']
      by_cases hopen : status = .processed
      · -- a status that is read as processed is written so
        obtain ⟨st, hst⟩ := h.text m hm hsame
        have hread := normalizeManifestStatus_text st "manifest.status"
        rw [← hst, hstatus] at hread
        obtain rfl := Except.ok.inj hread
        exact h.done m hm hsame (by rw [hst, hopen])
      · rw [← hsame]
        exact hdone hopen
  · have hother : sqlUpper m.id ≠ id := fun heq => hsame (h.single m hm heq)
    exact h.kept hno (rewritten_other hother hrows) hitems' hbattery hid

/-- The manifest does not exist yet. -/
structure New (id : String) (s : Store) : Prop where
  manifests : ∀ m ∈ s.manifests, sqlUpper m.id ≠ id
  items : ∀ i ∈ s.manifestItems, i.manifestId ≠ id

theorem history_run [AsciiUpper] (hid : sqlUpper id = id) (hnew : New id s) (os : List Op) :
    History id s os := by
  induction os using List.reverseRecOn with
  | nil =>
    have hempty : itemsOf s id = [] := by
      refine List.eq_nil_iff_forall_not_mem.mpr fun i hi => ?_
      obtain ⟨hmem, him⟩ := mem_itemsOf.mp hi
      exact hnew.items i hmem him
    have hnone : ∀ m ∈ s.manifests, m.id ≠ id := fun m hm hmid =>
      hnew.manifests m hm (by rw [hmid, hid])
    refine ⟨fun m hm hupper => absurd hupper (hnew.manifests m hm),
      fun m hm hmid => absurd hmid (hnone m hm), fun i hi => ?_,
      fun _ => ⟨hempty, fun _ => not_sometime_nil⟩, fun m hm hmid => absurd hmid (hnone m hm)⟩
    rw [run_nil, hempty] at hi
    cases hi
  | append_singleton os o h =>
    rcases step_cases (run step s os) o with ⟨hno, hcore⟩ | ⟨hcarried, hdone⟩
    · exact h.refused hno hcore hid
    · cases hdone with
      | created hmid hstatus hps hcreated =>
        exact h.created hid hcarried hmid hstatus hps hcreated
      | received hwell hwarehouse hreceivable hreceived ht =>
        exact h.received hid hcarried hwell hwarehouse hreceivable hreceived ht
      | processed hprocessed ht => exact h.processed hid hprocessed ht

/-! ## Nothing after the end -/

omit [Casing] in
theorem manifestStatus_eq {status : String} :
    manifestStatus t id = some status ↔ ∃ m ∈ t.manifests, m.id = id ∧ m.status = status := by
  unfold manifestStatus
  rw [Option.map_eq_some_iff]
  constructor
  · rintro ⟨m, hm, hstatus⟩
    obtain ⟨hmem, hkey⟩ := Table.get?_eq_some.mp hm
    exact ⟨m, hmem, hkey, hstatus⟩
  · rintro ⟨m, hmem, hkey, hstatus⟩
    exact ⟨m, Table.get?_eq_some.mpr ⟨hmem, hkey⟩, hstatus⟩

theorem step_after [AsciiUpper] (hid : sqlUpper id = id)
    (h : manifestStatus t id = some ManifestStatus.processed.text) (o : Op) :
    manifestStatus (step t o) id = some ManifestStatus.processed.text ∧
      itemsOf (step t o) id = itemsOf t id := by
  obtain ⟨m, hm, hmid, hstatus⟩ := manifestStatus_eq.mp h
  rw [manifestStatus_eq]
  rcases step_cases t o with ⟨-, hcore⟩ | ⟨-, hdone⟩
  · obtain ⟨-, hmanifests, hitems⟩ := core_eq hcore
    rw [hmanifests, itemsOf, hitems, itemsOf]
    exact ⟨⟨m, hm, hmid, hstatus⟩, rfl⟩
  · cases hdone with
    | @created c data m' ps _ _ _ hcreated =>
      have hother : m'.id ≠ id := fun hsame =>
        hcreated.absent m hm (by rw [hmid, hid, hsame])
      refine ⟨⟨m, (hcreated.manifests m).mpr (.inl hm), hmid, hstatus⟩, ?_⟩
      exact hcreated.others id (Ne.symm hother)
    | @received c manifestId data k m' t₀ _ _ hreceivable hreceived ht =>
      obtain ⟨-, hmanifests, hitems⟩ := core_eq ht
      obtain ⟨hm', -⟩ := findManifests_mem hreceivable.found
      have hother : m'.id ≠ id := by
        intro hsame
        obtain rfl := Table.eq_of_key hm' hm (hsame.trans hmid.symm)
        obtain ⟨status, hread, hopen⟩ := hreceivable.unprocessed
        rw [hstatus, normalizeManifestStatus_text] at hread
        exact hopen (Except.ok.inj hread).symm
      obtain ⟨status, -, hset⟩ := hreceived.manifests
      have hkept := hreceived.rounds.untouched.otherManifests id (Ne.symm hother)
      refine ⟨⟨m, ?_, hmid, hstatus⟩, ?_⟩
      · rw [hmanifests, hset]
        exact (mem_set_status hm' _).mpr (.inl ⟨hm, fun heq => hother (heq.symm.trans hmid)⟩)
      · rw [itemsOf, hitems]
        exact hkept
    | @processed c manifestId t₀ hprocessed ht =>
      obtain ⟨m', hfound, -, rfl⟩ := hprocessed.found
      obtain ⟨-, hmanifests, hitems⟩ := core_eq ht
      obtain ⟨hm', -⟩ := findManifests_mem hfound
      refine ⟨?_, by rw [itemsOf, hitems, itemsOf]⟩
      rw [hmanifests]
      by_cases hsame : m'.id = id
      · exact ⟨_, (mem_set_status hm' _).mpr (.inr rfl), hsame, rfl⟩
      · refine ⟨m, (mem_set_status hm' _).mpr (.inl ⟨hm, fun heq => ?_⟩), hmid, hstatus⟩
        exact hsame (heq.symm.trans hmid)

/-! ## Runs -/

/-- An item of a processed manifest: it has arrived, and the requests to receive that have named it
have brought its battery in. -/
structure Complete (id : String) (s : Store) (os : List Op) (i : ManifestItem) : Prop where
  status : i.status = "scanned" ∨ i.status = "damaged" ∨ i.status = "extra"
  brought : Sometime step (Names id i.batteryId) s os → ∃ b ∈ (run step s os).fleet.batteries,
    i.batteryTableId = some b.id ∧ b.serialNumber = i.batteryId ∧
    Sometime step (Brings id i.batteryId b.id) s os
  listed : ¬ Sometime step (Names id i.batteryId) s os →
    Sometime step (Lists id i.batteryId i.status) s os

/-- **A processed manifest is complete**, but for items that the creation has listed as arrived and
that no receipt has named; and nothing changes it or its items any more. -/
theorem processed_complete [AsciiUpper] (s : Store) (manifestId : String) (os : List Op)
    (hnew : New (normal manifestId) s)
    (hprocessed : manifestStatus (run step s os) (normal manifestId) = some "Processed") :
    (∀ i ∈ itemsOf (run step s os) (normal manifestId),
      Complete (normal manifestId) s os i) ∧
    ∀ later : List Op,
      manifestStatus (run step s (os ++ later)) (normal manifestId) = some "Processed" ∧
      itemsOf (run step s (os ++ later)) (normal manifestId) =
        itemsOf (run step s os) (normal manifestId) := by
  have hid : sqlUpper (normal manifestId) = normal manifestId := sqlUpper_normal manifestId
  have hhistory := history_run hid hnew os
  obtain ⟨m, hm, hmid, hstatus⟩ := manifestStatus_eq.mp hprocessed
  constructor
  · intro i hi
    obtain ⟨hnormal, ⟨st, hst⟩, hlisted, hbrought⟩ := hhistory.items i hi
    obtain ⟨hpending, hmissing⟩ := hhistory.done m hm hmid hstatus i hi
    have harrived : arrival st ≠ none ∧
        (st.text = "scanned" ∨ st.text = "damaged" ∨ st.text = "extra") := by
      rw [hst] at hpending hmissing
      cases st
      · exact absurd rfl hpending
      · exact ⟨nofun, .inl rfl⟩
      · exact absurd rfl hmissing
      · exact ⟨nofun, .inr (.inl rfl)⟩
      · exact ⟨nofun, .inr (.inr rfl)⟩
    refine ⟨hst ▸ harrived.2, fun hnames => ?_, hlisted⟩
    obtain ⟨k, hk, ⟨b, hone, hbid, hserial⟩, hbrings⟩ := hbrought hnames ⟨st, harrived.1, hst⟩
    have hb : b ∈ batteriesOf (run step s os).fleet i.batteryId := by
      rw [hone]
      exact List.mem_singleton_self b
    obtain rfl := hbid
    exact ⟨b, (mem_batteriesOf.mp hb).1, hk, hserial, hbrings⟩
  · intro later
    rw [run_append]
    exact run_invariant (I := fun t =>
        manifestStatus t (normal manifestId) = some ManifestStatus.processed.text ∧
          itemsOf t (normal manifestId) = itemsOf (run step s os) (normal manifestId))
      (fun t o ht => ⟨(step_after hid ht.1 o).1, (step_after hid ht.1 o).2.trans ht.2⟩)
      ⟨hprocessed, rfl⟩ later

end

/-! ## A delivery listed in part as scanned -/

def depotStore : Store where
  fleet := { warehouses := ⟨[{ id := 6 }, { id := 7, isActive := false }], by decide⟩ }

def shipment : ManifestCreate where
  id := "man-2"
  source := "Plant"
  date := 1
  items := [{ batteryId := "b1", type := "LFP" },
    { batteryId := "b2", type := "LFP", status := "scanned" }]

def receipt : ManifestReceiveRequest where
  items := [{ batteryId := "B1", status := "scanned" }]

/-- The manifest is created with one battery scanned, the other is received. -/
def shipmentRun : List Op :=
  [.create ⟨1, 1, none, ""⟩ shipment, .receive ⟨2, 1, none, ""⟩ "MAN-2" receipt,
    .process ⟨3, 1, none, ""⟩ "MAN-2"]

theorem depotStore_new : New "MAN-2" depotStore := by
  constructor
  · exact fun m hm => absurd hm (Table.not_mem_empty m)
  · exact fun i hi => absurd hi (Table.not_mem_empty i)

theorem shipmentRun_processed :
    manifestStatus (run step depotStore shipmentRun) "MAN-2" = some "Processed" := by
  decide +kernel

theorem processed_complete_sample :
    (∀ i ∈ itemsOf (run step depotStore shipmentRun) (normal "MAN-2"),
      Complete (normal "MAN-2") depotStore shipmentRun i) ∧
    ∀ later : List Op, manifestStatus (run step depotStore (shipmentRun ++ later))
        (normal "MAN-2") = some "Processed" ∧
      itemsOf (run step depotStore (shipmentRun ++ later)) (normal "MAN-2") =
        itemsOf (run step depotStore shipmentRun) (normal "MAN-2") :=
  processed_complete depotStore "MAN-2" shipmentRun
    (by rw [show normal "MAN-2" = "MAN-2" by decide +kernel]; exact depotStore_new)
    (by rw [show normal "MAN-2" = "MAN-2" by decide +kernel]; exact shipmentRun_processed)

/-- The battery that the creation lists as scanned has no row. -/
theorem scanned_without_battery : ¬ ∀ (s : Store) (id : String) (os : List Op), New id s →
    manifestStatus (run step s os) id = some "Processed" → ∀ i ∈ itemsOf (run step s os) id,
      ∃ b ∈ (run step s os).fleet.batteries, b.serialNumber = i.batteryId ∧
        Sometime step (Brings id i.batteryId b.id) s os := by
  intro hall
  have hlisted : (⟨2, "MAN-2", "B2", none, some "B2", "LFP", "scanned"⟩ : ManifestItem) ∈
      itemsOf (run step depotStore shipmentRun) "MAN-2" := by
    decide +kernel
  have hnone : ∀ b ∈ (run step depotStore shipmentRun).fleet.batteries.rows,
      b.serialNumber ≠ "B2" := by
    decide +kernel
  obtain ⟨b, hb, hserial, -⟩ :=
    hall depotStore "MAN-2" shipmentRun depotStore_new shipmentRun_processed _ hlisted
  exact hnone b hb hserial

end WezuBackend.Manifests.Completeness
