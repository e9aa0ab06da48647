import WezuBackend.Manifests.Intake
import WezuBackend.Lib.LocalUpdates

/-!
# The loop over the updates

What a receipt reads and writes under one serial is its `Slot`: the item of the manifest, the
batteries and the shelf rows.  An update with the serial is admitted by the slot (`Admits`), changes
it (`slotAfter`) and leaves all other slots alone: `receiveItem_ok` and `receiveItem_of_admits` for
one round of the loop, `receiveItems_ok` and `receiveItems_of_admitsAll` for all of them.
-/

namespace WezuBackend.Manifests.Receiving

open Lib.Tables Lib.Results Lib.Atomicity
open Lib.Atomicity.Tx Lib.Runs Lib.LocalUpdates
open Core.Base Core.Letters Fleet.Model
open Fleet.Consistency Fleet.Transitions Fleet.Acceptance
open Manifests.Service hiding flush query commitAll
open Manifests.Intake

/-! ## Programs -/

theorem onFleet_eq {α : Type} {x : FleetTx α} {s : Session Store} {r : Except Exc α}
    {t : Session Db} (h : x ⟨s.committed.fleet, s.working.fleet⟩ = (r, t)) :
    onFleet x s = (r, ⟨s.committed.withFleet t.committed, s.working.withFleet t.working⟩) :=
  focus_eq _ _ h

variable {s t : Session Store}

theorem onFleet_ok {α : Type} {x : FleetTx α} {a : α}
    (h : onFleet x s = (.ok a, t)) : ∃ u, x ⟨s.committed.fleet, s.working.fleet⟩ = (.ok a, u) ∧
      t = ⟨s.committed.withFleet u.committed, s.working.withFleet u.working⟩ := focus_ok h

@[simp] theorem flush_ok {u : Unit} :
    Service.flush s = (.ok u, t) ↔ UniqueIndexes s.working.fleet ∧ s = t := by
  rw [Service.flush, look_bind, ensure_ok]

@[simp] theorem query_ok {x : Store} :
    Service.query s = (.ok x, t) ↔
      UniqueIndexes s.working.fleet ∧ s.working = x ∧ s = t := by
  simp only [Service.query, bind_ok, flush_ok, look_ok]
  constructor
  · rintro ⟨_, _, ⟨hu, rfl⟩, hx, ht⟩
    exact ⟨hu, hx, ht⟩
  · rintro ⟨hu, hx, ht⟩
    exact ⟨(), s, ⟨hu, rfl⟩, hx, ht⟩

variable {item : ManifestItem}

@[simp] theorem saveItem_ok {u : Unit} :
    saveItem item s = (.ok u, t) ↔
      ⟨s.committed, { s.working with manifestItems := s.working.manifestItems.set item }⟩ = t := by
  simp [saveItem]

@[simp] theorem saveManifest_ok {m : Manifest} {u : Unit} :
    saveManifest m s = (.ok u, t) ↔
      ⟨s.committed, { s.working with manifests := s.working.manifests.set m }⟩ = t := by
  simp [saveManifest]

section

variable [Casing]

/-! ## The item of a serial -/

def isItemOf (manifestId serial : String) (item : ManifestItem) : Bool :=
  item.manifestId = manifestId ∧ normal item.batteryId = serial

def itemOf (items : Table ManifestItem) (manifestId serial : String) : Option ManifestItem :=
  items.find? (isItemOf manifestId serial)

variable {manifestId serial : String}

theorem isItemOf_iff :
    isItemOf manifestId serial item = true ↔
      item.manifestId = manifestId ∧ normal item.batteryId = serial := by
  rw [isItemOf, decide_eq_true_eq]

variable {items : Table ManifestItem}

theorem itemOf_some (h : itemOf items manifestId serial = some item) :
    item ∈ items ∧ item.manifestId = manifestId ∧ normal item.batteryId = serial :=
  ⟨Table.find?_mem h, isItemOf_iff.mp (Table.find?_prop h)⟩

theorem itemOf_none (h : itemOf items manifestId serial = none) (hitem : item ∈ items)
    (hm : item.manifestId = manifestId) : normal item.batteryId ≠ serial := by
  intro hs
  have hno := Table.find?_eq_none.mp h item hitem
  rw [isItemOf_iff.mpr ⟨hm, hs⟩] at hno
  cases hno

/-- Every item of the manifest is found under its serial. -/
def ItemsNamed (manifestId : String) (items : Table ManifestItem) : Prop :=
  ∀ item ∈ items, item.manifestId = manifestId →
    normal item.batteryId ≠ "" ∧ itemOf items manifestId (normal item.batteryId) = some item

theorem itemOf_set {old item : ManifestItem} (h : itemOf items manifestId serial = some old)
    (hid : item.id = old.id) (hm : item.manifestId = manifestId)
    (hs : normal item.batteryId = serial) (k : String) :
    itemOf (items.set item) manifestId k =
      if k = serial then some item else itemOf items manifestId k := by
  obtain ⟨hold, hm', hs'⟩ := itemOf_some h
  have hsame : ∀ x ∈ items, Row.key x = Row.key item →
      isItemOf manifestId k x = isItemOf manifestId k item := by
    intro x hx hkey
    rw [Table.eq_of_key hx hold (hkey.trans hid)]
    unfold isItemOf
    rw [hm, hm', hs, hs']
  unfold itemOf at h ⊢
  rw [Table.find?_set hsame]
  by_cases hk : k = serial
  · rw [if_pos hk, hk, h, Option.map_some, key_manifestItem, key_manifestItem, if_pos hid.symm]
  · rw [if_neg hk]
    rcases hfind : items.find? (isItemOf manifestId k) with _ | x
    · rfl
    · obtain ⟨hx, -, hxs⟩ := itemOf_some hfind
      rw [Option.map_some, if_neg]
      intro hkey
      rw [Table.eq_of_key hx hold (hkey.trans hid)] at hxs
      exact hk (hxs.symm.trans hs')

theorem itemsNamed_set {old item : ManifestItem} (hnamed : ItemsNamed manifestId items)
    (h : itemOf items manifestId serial = some old) (hid : item.id = old.id)
    (hm : item.manifestId = manifestId) (hs : normal item.batteryId = serial)
    (hne : serial ≠ "") : ItemsNamed manifestId (items.set item) := by
  obtain ⟨hold, -, -⟩ := itemOf_some h
  intro x hx hxm
  have hset := itemOf_set h hid hm hs
  rcases Table.mem_set.mp hx with ⟨hx, hkey⟩ | ⟨rfl, -⟩
  · obtain ⟨hxne, hfound⟩ := hnamed x hx hxm
    refine ⟨hxne, ?_⟩
    rw [hset, if_neg, hfound]
    intro hk
    rw [hk, h] at hfound
    obtain rfl := Option.some.inj hfound
    exact hkey hid.symm
  · rw [hs]
    exact ⟨hne, by rw [hset, if_pos rfl]⟩

theorem itemOf_add {mk : ℕ → ManifestItem}
    (hmk : ∀ k, Row.key (mk k) = k) (hm : ∀ k, (mk k).manifestId = manifestId)
    (hs : ∀ k, normal (mk k).batteryId = serial) (h : itemOf items manifestId serial = none)
    (k : String) : itemOf (items.add mk hmk) manifestId k =
      if k = serial then some (mk items.freshKey) else itemOf items manifestId k := by
  unfold itemOf at h ⊢
  rw [Table.find?_add_mk hmk]
  by_cases hk : k = serial
  · rw [if_pos hk, hk, h, if_pos (isItemOf_iff.mpr ⟨hm _, hs _⟩), Option.none_or]
  · have hno : ¬ isItemOf manifestId k (mk items.freshKey) = true := fun hp =>
      hk ((isItemOf_iff.mp hp).2.symm.trans (hs _))
    rw [if_neg hk, if_neg hno, Option.or_none]

theorem itemsNamed_add {mk : ℕ → ManifestItem} (hmk : ∀ k, Row.key (mk k) = k)
    (hnamed : ItemsNamed manifestId items) (hm : ∀ k, (mk k).manifestId = manifestId)
    (hs : ∀ k, normal (mk k).batteryId = serial) (hne : serial ≠ "")
    (h : itemOf items manifestId serial = none) :
    ItemsNamed manifestId (items.add mk hmk) := by
  intro x hx hxm
  have hadd := itemOf_add hmk hm hs h
  rcases (Table.mem_add_mk hmk).mp hx with hx | rfl
  · obtain ⟨hxne, hfound⟩ := hnamed x hx hxm
    refine ⟨hxne, ?_⟩
    rw [hadd, if_neg (itemOf_none h hx hxm), hfound]
  · rw [hs]
    exact ⟨hne, by rw [hadd, if_pos rfl]⟩

/-! ## The map of the items -/

def entry (item : ManifestItem) : String × ManifestItem := (normal item.batteryId, item)

theorem lookup_entries (items : List ManifestItem) (serial : String) :
    (items.map entry).lookup serial = items.find? fun i => normal i.batteryId = serial := by
  induction items with
  | nil => rfl
  | cons item items ih =>
    rw [List.map_cons, List.find?_cons]
    by_cases hs : normal item.batteryId = serial
    · rw [entry, hs, List.lookup_cons_self, decide_eq_true rfl]
    · rw [entry, List.lookup_cons, beq_eq_false_iff_ne.mpr (Ne.symm hs), decide_eq_false hs]
      exact ih

theorem buildFrom_iff {done items : List ManifestItem} {itemMap : List (String × ManifestItem)}
    (hids : ((done ++ items).map ManifestItem.id).Nodup) :
    (items.foldlM (fun itemMap item => do
        let serial ← normalizeBatterySerial item.batteryId "manifest.items[].battery_id"
        if ∃ existing ∈ itemMap.lookup serial, existing.id ≠ item.id then
          throw <| Exc.http 409 <|
            "Data integrity violation: manifest contains duplicate item rows " ++
              s!"for battery '{serial}'"
        return itemMap ++ [(serial, item)]) (done.map entry)) = .ok itemMap ↔
      (∀ i ∈ items, normal i.batteryId ≠ "") ∧
        (∀ i ∈ items, ∀ j ∈ done, normal i.batteryId ≠ normal j.batteryId) ∧
        (items.map fun i => normal i.batteryId).Nodup ∧ (done ++ items).map entry = itemMap := by
  induction items generalizing done with
  | nil => simp [pure, Except.pure]
  | cons item items ih =>
    have hids' : (((done ++ [item]) ++ items).map ManifestItem.id).Nodup := by
      rwa [List.append_assoc, List.singleton_append]
    -- a row of the serial that is in the map is another row
    have hseen : (∃ existing ∈ (done.map entry).lookup (normal item.batteryId),
        existing.id ≠ item.id) ↔ ∃ j ∈ done, normal j.batteryId = normal item.batteryId := by
      rw [lookup_entries]
      constructor
      · rintro ⟨j, hj, -⟩
        exact ⟨j, List.mem_of_find?_eq_some hj, by simpa using List.find?_some hj⟩
      · rintro ⟨j, hj, hs⟩
        have hsome : (done.find? fun i => normal i.batteryId = normal item.batteryId).isSome :=
          List.find?_isSome.mpr ⟨j, hj, decide_eq_true hs⟩
        obtain ⟨x, hx⟩ := Option.isSome_iff_exists.mp hsome
        refine ⟨x, hx, fun hid => ?_⟩
        have hmem := List.mem_of_find?_eq_some hx
        rw [List.map_append, List.nodup_append] at hids
        exact hids.2.2 x.id (List.mem_map_of_mem hmem) item.id
          (List.mem_map_of_mem List.mem_cons_self) hid
    rw [List.foldlM_cons, except_bind_ok]
    have hdone : (done.map entry) ++ [entry item] = (done ++ [item]).map entry := by
      rw [List.map_append, List.map_singleton]
    constructor
    · rintro ⟨next, hstep, hrest⟩
      obtain ⟨serial, hserial, hstep⟩ := except_bind_ok.mp hstep
      obtain ⟨hne, rfl⟩ := normalizeBatterySerial_ok.mp hserial
      dsimp only at hstep
      by_cases hdup : ∃ existing ∈ (done.map entry).lookup (normal item.batteryId),
          existing.id ≠ item.id
      · rw [if_pos hdup] at hstep
        cases hstep
      · rw [if_neg hdup] at hstep
        obtain rfl := Except.ok.inj hstep
        have hnew := fun j hj hs => hdup (hseen.mpr ⟨j, hj, hs⟩)
        obtain ⟨hnes, hothers, hnodup, hmap⟩ := (ih hids').mp (hdone ▸ hrest)
        refine ⟨List.forall_mem_cons.mpr ⟨hne, hnes⟩, ?_, ?_, ?_⟩
        · refine List.forall_mem_cons.mpr ⟨fun j hj hs => hnew j hj hs.symm, fun i hi j hj => ?_⟩
          exact hothers i hi j (List.mem_append_left _ hj)
        · rw [List.map_cons, List.nodup_cons]
          refine ⟨fun hmem => ?_, hnodup⟩
          obtain ⟨i, hi, hs⟩ := List.mem_map.mp hmem
          exact hothers i hi item (List.mem_append_right _ (List.mem_singleton_self item)) hs
        · rw [← hmap, List.append_assoc, List.singleton_append]
    · rintro ⟨hnes, hothers, hnodup, hmap⟩
      rw [List.forall_mem_cons] at hnes hothers
      rw [List.map_cons, List.nodup_cons] at hnodup
      have hdup : ¬ ∃ existing ∈ (done.map entry).lookup (normal item.batteryId),
          existing.id ≠ item.id := by
        rw [hseen]
        rintro ⟨j, hj, hs⟩
        exact hothers.1 j hj hs.symm
      refine ⟨done.map entry ++ [entry item], except_bind_ok.mpr ⟨normal item.batteryId,
        normalizeBatterySerial_ok.mpr ⟨hnes.1, rfl⟩, ?_⟩, ?_⟩
      · dsimp only
        rw [if_neg hdup]
        rfl
      · rw [hdone]
        refine (ih hids').mpr ⟨hnes.2, fun i hi j hj hs => ?_, hnodup.2, ?_⟩
        · rcases List.mem_append.mp hj with hj | hj
          · exact hothers.2 i hi j hj hs
          · rw [List.mem_singleton.mp hj] at hs
            exact hnodup.1 (List.mem_map.mpr ⟨i, hi, hs⟩)
        · rw [← hmap, List.append_assoc, List.singleton_append]

theorem itemsNamed_iff {manifestId : String} {s : Store} :
    ItemsNamed manifestId s.manifestItems ↔
      (∀ i ∈ itemsOf s manifestId, normal i.batteryId ≠ "") ∧
        ((itemsOf s manifestId).map fun i => normal i.batteryId).Nodup := by
  have hmem : ∀ {i : ManifestItem}, i ∈ itemsOf s manifestId ↔
      i ∈ s.manifestItems ∧ i.manifestId = manifestId := by
    intro i
    rw [itemsOf, Table.mem_filter, decide_eq_true_eq]
  have hrows : (itemsOf s manifestId).Nodup :=
    (List.Nodup.of_map _ s.manifestItems.nodup).filter _
  rw [List.nodup_map_iff_inj_on hrows]
  constructor
  · intro h
    refine ⟨fun i hi => (h i (hmem.mp hi).1 (hmem.mp hi).2).1, fun i hi j hj hs => ?_⟩
    have hi' := (h i (hmem.mp hi).1 (hmem.mp hi).2).2
    have hj' := (h j (hmem.mp hj).1 (hmem.mp hj).2).2
    rw [hs] at hi'
    exact Option.some.inj (hi'.symm.trans hj')
  · rintro ⟨hne, hinj⟩ i hi hm
    have hi' := hmem.mpr ⟨hi, hm⟩
    refine ⟨hne i hi', ?_⟩
    rcases hfound : itemOf s.manifestItems manifestId (normal i.batteryId) with _ | j
    · exact absurd rfl (itemOf_none hfound hi hm)
    · obtain ⟨hj, hjm, hjs⟩ := itemOf_some hfound
      rw [hinj j (hmem.mpr ⟨hj, hjm⟩) i hi' hjs]

/-- **The map of a manifest's items** is built if they are named, and finds them. -/
theorem buildManifestItemMap_ok {manifestId : String} {s : Store}
    {itemMap : List (String × ManifestItem)} :
    buildManifestItemMap (itemsOf s manifestId) = .ok itemMap ↔
      ItemsNamed manifestId s.manifestItems ∧ (itemsOf s manifestId).map entry = itemMap := by
  have hids : (([] ++ itemsOf s manifestId).map ManifestItem.id).Nodup :=
    s.manifestItems.nodup.sublist (List.filter_sublist.map _)
  have hbuild := @buildFrom_iff _ [] _ itemMap hids
  rw [itemsNamed_iff, and_assoc]
  refine hbuild.trans (and_congr_right fun _ => ?_)
  exact and_iff_right fun _ _ _ h => absurd h List.not_mem_nil

theorem lookup_itemsOf (manifestId : String) (s : Store) (serial : String) :
    ((itemsOf s manifestId).map entry).lookup serial =
      itemOf s.manifestItems manifestId serial := by
  rw [lookup_entries]
  unfold itemsOf itemOf Table.filter Table.find?
  rw [List.find?_filter]
  refine congrArg (fun p => List.find? p s.manifestItems.rows) (funext fun i => ?_)
  unfold isItemOf
  by_cases hm : i.manifestId = manifestId <;> simp [hm]

omit [Casing] in
theorem lookup_assign (itemMap : List (String × ManifestItem)) (serial : String)
    (item : ManifestItem) (k : String) : (assign itemMap serial item).lookup k =
      if k = serial then some item else itemMap.lookup k := by
  unfold assign
  by_cases hk : k = serial
  · rw [if_pos hk, hk, List.lookup_cons_self]
  · rw [if_neg hk, List.lookup_cons, beq_eq_false_iff_ne.mpr hk]
    dsimp only
    induction itemMap with
    | nil => rfl
    | cons e itemMap ih =>
      obtain ⟨x, i⟩ := e
      by_cases hx : x = serial
      · rw [List.filter_cons_of_neg (by simp [hx]), ih, List.lookup_cons,
          beq_eq_false_iff_ne.mpr (hx ▸ hk)]
      · rw [List.filter_cons_of_pos (by simp [hx]), List.lookup_cons, List.lookup_cons, ih]

/-! ## Slots -/

/-- What a receipt reads and writes under one serial. -/
structure Slot where
  /-- the status of the manifest's item -/
  item : Option String
  batteries : List (BatteryStatus × Option LocationType × Option ℕ)
  shelved : ℕ

def slot (manifestId : String) (s : Store) (serial : String) : Slot where
  item := (itemOf s.manifestItems manifestId serial).map ManifestItem.status
  batteries := (batteriesOf s.fleet serial).map place
  shelved := (shelfRows s.fleet serial).length

def slotAfter (warehouseId : ℕ) (u : ItemUpdate) (v : Slot) : Slot where
  item := some u.status.text
  batteries :=
    match arrival u.status with
    | some status => [(status, some .warehouse, some warehouseId)]
    | none => v.batteries
  shelved :=
    match arrival u.status with
    | some _ => 0
    | none => v.shelved

/-- What the arrival of a battery asks of the slot, and of tables that a receipt does not write. -/
structure ArrivalAdmits (warehouseId : ℕ) (db : Db) (serial : String) (v : Slot) : Prop where
  once : v.batteries.length ≤ 1
  unretired : ∀ p ∈ v.batteries, p.1 ≠ .retired
  open_place : PlaceOpen db .warehouse (some warehouseId)
  transfers : transferConflicts db [serial] none = []
  orders : orderConflicts db [serial] none = []
  shelved : v.shelved ≤ 1

structure Admits (warehouseId : ℕ) (db : Db) (u : ItemUpdate) (v : Slot) : Prop where
  unlisted : v.item = none → u.status = .extra
  listed : ∀ status ∈ v.item, u.status = .extra → status = "extra"
  arrives : arrival u.status ≠ none → ArrivalAdmits warehouseId db u.batteryId v

theorem arrivalAdmits_iff {warehouseId : ℕ} {serial manifestId : String} {s : Store} :
    ArrivalAdmits warehouseId (elsewhere s.fleet) serial (slot manifestId s serial) ↔
      Arrivable warehouseId serial s.fleet := by
  have hsame : SamePlaces s.fleet (elsewhere s.fleet) := ⟨rfl, rfl, rfl, rfl⟩
  have hback : SamePlaces (elsewhere s.fleet) s.fleet := ⟨rfl, rfl, rfl, rfl⟩
  constructor
  · intro h
    refine ⟨by simpa [slot] using h.once, fun b hb => ?_, h.open_place.congr hback, h.transfers,
      h.orders, h.shelved⟩
    exact h.unretired (place b) (List.mem_map_of_mem hb)
  · intro h
    refine ⟨by simpa [slot] using h.once, fun p hp => ?_, h.open_place.congr hsame, h.transfers,
      h.orders, h.shelved⟩
    obtain ⟨b, hb, rfl⟩ := List.mem_map.mp hp
    exact h.unretired b hb

/-- The loop holds the manifest's items, and the indexes are unique. -/
structure Ready (manifestId : String) (itemMap : List (String × ManifestItem)) (s : Store) :
    Prop where
  unique : UniqueIndexes s.fleet
  named : ItemsNamed manifestId s.manifestItems
  sync : ∀ k, itemMap.lookup k = itemOf s.manifestItems manifestId k

/-- What a round of the loop does: the item, and the battery that it refers to. -/
structure ItemReceived (r : Receipt) (u : ItemUpdate) (s t : Store) (item : ManifestItem) :
    Prop where
  found : itemOf t.manifestItems r.manifestId u.batteryId = some item
  status : item.status = u.status.text
  serial : item.batteryId = u.batteryId
  others : ∀ k, k ≠ u.batteryId →
    itemOf t.manifestItems r.manifestId k = itemOf s.manifestItems r.manifestId k
  otherManifests : ∀ m, m ≠ r.manifestId → itemsOf t m = itemsOf s m
  taken : ∃ before, Taken r.warehouseId u before s.fleet t.fleet item.batteryTableId
  manifests : t.manifests = s.manifests
  storedResponses : t.storedResponses = s.storedResponses

theorem ItemReceived.slot_eq {r : Receipt} {u : ItemUpdate} {s t : Store}
    (h : ItemReceived r u s t item) : slot r.manifestId t =
      apply ItemUpdate.batteryId (slotAfter r.warehouseId) (slot r.manifestId s) u := by
  obtain ⟨before, htaken⟩ := h.taken
  funext k
  by_cases hk : k = u.batteryId
  · rw [hk, apply_self]
    unfold slot slotAfter
    rw [h.found, Option.map_some, h.status]
    generalize item.batteryTableId = id at htaken
    cases htaken with
    | brought hs hb =>
      obtain ⟨b, hone, -, -, hplace⟩ := hb.arrived
      rw [hone, List.map_singleton, hplace, hb.unshelved, hs]
      rfl
    | noted hs hbatteries hshelf hrest =>
      unfold batteriesOf shelfRows
      rw [hbatteries, hshelf, hs]
  · rw [apply_of_ne hk]
    unfold slot
    rw [h.others k hk]
    generalize item.batteryTableId = id at htaken
    cases htaken with
    | brought hs hb => rw [hb.others k hk, hb.otherShelved k hk]
    | noted hs hbatteries hshelf hrest =>
      unfold batteriesOf shelfRows
      rw [hbatteries, hshelf]

/-! ## One round -/

/-- The item that a round works on, listed or just added. -/
structure ItemFound (r : Receipt) (u : ItemUpdate) (s t : Store) (item : ManifestItem) : Prop where
  manifest : item.manifestId = r.manifestId
  serial : item.batteryId = u.batteryId
  row : ∃ old, itemOf t.manifestItems r.manifestId u.batteryId = some old ∧ item.id = old.id
  named : ItemsNamed r.manifestId t.manifestItems
  others : ∀ k, k ≠ u.batteryId →
    itemOf t.manifestItems r.manifestId k = itemOf s.manifestItems r.manifestId k
  otherManifests : ∀ m, m ≠ r.manifestId → itemsOf t m = itemsOf s m
  rest : t = { s with manifestItems := t.manifestItems }

variable {r : Receipt} {u : ItemUpdate} {known : List String}
  {itemMap : List (String × ManifestItem)}

theorem findItem_ok
    (hready : Ready r.manifestId itemMap s.working) (hnormal : normal u.batteryId = u.batteryId)
    (hne : u.batteryId ≠ "") (h : findItem r known itemMap u s = (.ok item, t)) :
    t.committed = s.committed ∧ ItemFound r u s.working t.working item ∧
      (itemMap.lookup u.batteryId = none → u.status = .extra) ∧
      ∀ i ∈ itemMap.lookup u.batteryId, u.batteryId ∈ known → u.status = .extra →
        i.status = "extra" := by
  have hsync := hready.sync u.batteryId
  unfold findItem at h
  rcases hlookup : itemMap.lookup u.batteryId with _ | i
  · rw [hlookup] at h hsync
    simp only [bind_ok, ensure_ok, look_ok, update_ok, flush_ok, pure_ok] at h
    obtain ⟨_, _, ⟨hextra, rfl⟩, _, _, ⟨rfl, rfl⟩, _, _, rfl, _, _, ⟨-, rfl⟩, rfl, rfl⟩ := h
    have hmk : ∀ k, Row.key (extraItem r u k) = k := fun _ => rfl
    have hadd := itemOf_add hmk (fun _ => rfl) (fun _ => hnormal) hsync.symm
    refine ⟨rfl, ⟨rfl, rfl, ⟨_, (hadd _).trans (if_pos rfl), rfl⟩,
      itemsNamed_add hmk hready.named (fun _ => rfl) (fun _ => hnormal) hne hsync.symm,
      fun k hk => (hadd k).trans (if_neg hk), fun m hm => ?_, rfl⟩, fun _ => hextra, by simp⟩
    unfold itemsOf
    dsimp only
    rw [Table.filter_add_mk hmk]
    simp [extraItem, Ne.symm hm]
  · rw [hlookup] at h hsync
    simp only [bind_ok, ensure_ok, pure_ok] at h
    obtain ⟨_, _, ⟨hlisted, rfl⟩, rfl, rfl⟩ := h
    obtain ⟨-, hm, hs⟩ := itemOf_some hsync.symm
    refine ⟨rfl, ⟨hm, rfl, ⟨i, hsync.symm, rfl⟩, hready.named, fun _ _ => rfl, fun _ _ => rfl, rfl⟩,
      by simp, ?_⟩
    rintro _ ⟨⟩ hknown hextra
    by_contra hstatus
    exact hlisted ⟨hextra, hknown, hstatus⟩

theorem findItem_of_admits {s : Session Store} (hready : Ready r.manifestId itemMap s.working)
    (hunlisted : itemMap.lookup u.batteryId = none → u.status = .extra)
    (hlisted : ∀ i ∈ itemMap.lookup u.batteryId, u.status = .extra → i.status = "extra") :
    ∃ item t, findItem r known itemMap u s = (.ok item, t) := by
  unfold findItem
  rcases hlookup : itemMap.lookup u.batteryId with _ | i
  · have hflush : Service.flush ⟨s.committed, { s.working with
        manifestItems := s.working.manifestItems.add (extraItem r u) }⟩ = (.ok (), _) :=
      flush_ok.mpr ⟨hready.unique, rfl⟩
    dsimp only
    rw [ensure_bind (hunlisted hlookup), look_bind, update_bind]
    exact ⟨_, _, (bind_of_ok hflush).trans rfl⟩
  · have hcond : ¬ (u.status = .extra ∧ u.batteryId ∈ known ∧ i.status ≠ "extra") := by
      rintro ⟨hextra, -, hstatus⟩
      exact hstatus (hlisted i hlookup hextra)
    dsimp only
    rw [ensure_bind hcond]
    exact ⟨_, _, rfl⟩

theorem itemReceived_of_found {s t : Store} {id : Option ℕ} {fleet : Db}
    (hfound : ItemFound r u s t item) (hnormal : normal u.batteryId = u.batteryId)
    (htaken : Taken r.warehouseId u item.batteryTableId s.fleet fleet id) :
    ItemReceived r u s
      { t.withFleet fleet with
        manifestItems := t.manifestItems.set
          { item with batteryTableId := id, status := u.status.text } }
      { item with batteryTableId := id, status := u.status.text } := by
  obtain ⟨old, hold, hid⟩ := hfound.row
  have hserial : normal item.batteryId = u.batteryId := by rw [hfound.serial, hnormal]
  have hset := @itemOf_set _ _ _ _ _ { item with batteryTableId := id, status := u.status.text }
    hold hid hfound.manifest hserial
  have hrest := hfound.rest
  refine ⟨(hset _).trans (if_pos rfl), rfl, hfound.serial, fun k hk => ?_, fun m hm => ?_,
    ⟨_, htaken⟩, ?_, ?_⟩
  · exact (hset k).trans ((if_neg hk).trans (hfound.others k hk))
  · rw [← hfound.otherManifests m hm]
    obtain ⟨hmem, hm', -⟩ := itemOf_some hold
    refine Table.filter_set_of_not ?_ fun x hx hkey => ?_
    · exact decide_eq_false fun h => hm (h.symm.trans hfound.manifest)
    · rw [Table.eq_of_key hx hmem (hkey.trans hid)]
      exact decide_eq_false fun h => hm (h.symm.trans hm')
  · rw [hrest]
    rfl
  · rw [hrest]
    rfl

variable {received : List (String × ManifestItem)}

theorem receiveItem_ok
    (hready : Ready r.manifestId itemMap s.working) (hnormal : normal u.batteryId = u.batteryId)
    (hne : u.batteryId ≠ "")
    (hknown : ∀ i, itemMap.lookup u.batteryId = some i → u.batteryId ∈ known)
    (h : receiveItem r known itemMap u s = (.ok received, t)) :
    t.committed = s.committed ∧
      Admits r.warehouseId (elsewhere s.working.fleet) u
        (slot r.manifestId s.working u.batteryId) ∧
      Ready r.manifestId received t.working ∧
      (∀ k, k ≠ u.batteryId → received.lookup k = itemMap.lookup k) ∧
      ∃ item, ItemReceived r u s.working t.working item := by
  obtain ⟨item, s₁, hfind, h⟩ := bind_ok.mp h
  obtain ⟨id, s₂, hbattery, h⟩ := bind_ok.mp h
  obtain ⟨_, s₃, hsave, h⟩ := bind_ok.mp h
  obtain ⟨rfl, rfl⟩ := pure_ok.mp h
  obtain ⟨hcommitted, hfound, hunlisted, hlisted⟩ := findItem_ok hready hnormal hne hfind
  obtain ⟨fleet, hreceive, rfl⟩ := onFleet_ok hbattery
  obtain ⟨hcommitted', harrives, htaken⟩ := receiveBattery_ok hnormal hreceive
  obtain rfl := saveItem_ok.mp hsave
  have hfleet : s₁.working.fleet = s.working.fleet := by rw [hfound.rest]
  rw [hfleet] at harrives htaken
  have hreceived := itemReceived_of_found hfound hnormal htaken
  obtain ⟨old, hold, hid⟩ := hfound.row
  have hsync := hready.sync u.batteryId
  refine ⟨?_, ⟨fun hnone => ?_, fun status hstatus hextra => ?_, fun harrival => ?_⟩, ⟨?_, ?_, ?_⟩,
    fun k hk => ?_, _, hreceived⟩
  · dsimp only at hcommitted' ⊢
    rw [hcommitted', hcommitted]
    rfl
  · refine hunlisted (hsync.trans ?_)
    exact Option.map_eq_none_iff.mp hnone
  · obtain ⟨i, hi, rfl⟩ := Option.map_eq_some_iff.mp hstatus
    have hlookup := hsync.trans hi
    exact hlisted i hlookup (hknown i hlookup) hextra
  · exact arrivalAdmits_iff.mpr (harrives harrival)
  · exact htaken.unique hready.unique
  · exact itemsNamed_set hfound.named hold hid hfound.manifest
      (by rw [hfound.serial, hnormal]) hne
  · intro k
    rw [lookup_assign]
    by_cases hk : k = u.batteryId
    · rw [if_pos hk, hk]
      exact hreceived.found.symm
    · rw [if_neg hk, hready.sync k]
      exact (hreceived.others k hk).symm
  · rw [lookup_assign, if_neg hk]

theorem receiveItem_of_admits {s : Session Store}
    (hready : Ready r.manifestId itemMap s.working) (hnormal : normal u.batteryId = u.batteryId)
    (hne : u.batteryId ≠ "") (hadmits : Admits r.warehouseId (elsewhere s.working.fleet) u
      (slot r.manifestId s.working u.batteryId)) :
    ∃ received t, receiveItem r known itemMap u s = (.ok received, t) := by
  have hsync := hready.sync u.batteryId
  obtain ⟨item, s₁, hfind⟩ : ∃ item t, findItem r known itemMap u s = (.ok item, t) := by
    refine findItem_of_admits hready (fun hnone => hadmits.unlisted ?_) fun i hi hextra =>
      hadmits.listed i.status ?_ hextra
    · exact Option.map_eq_none_iff.mpr (hsync.symm.trans hnone)
    · exact Option.map_eq_some_iff.mpr ⟨i, hsync.symm.trans hi, rfl⟩
  obtain ⟨-, hfound, -, -⟩ := findItem_ok hready hnormal hne hfind
  have hfleet : s₁.working.fleet = s.working.fleet := by rw [hfound.rest]
  obtain ⟨id, t, hbattery⟩ : ∃ id t,
      receiveBattery r item u ⟨s₁.committed.fleet, s₁.working.fleet⟩ = (.ok id, t) := by
    refine receiveBattery_of_arrivable hnormal hne ?_ fun harrival => ?_
    · dsimp only
      rw [hfleet]
      exact hready.unique
    · dsimp only
      rw [hfleet]
      exact arrivalAdmits_iff.mp (hadmits.arrives harrival)
  exact ⟨_, _, (bind_of_ok hfind).trans ((bind_of_ok (onFleet_eq hbattery)).trans rfl)⟩

/-! ## All rounds -/

/-- The rounds of the updates, one after the other. -/
inductive Rounds (r : Receipt) : List ItemUpdate → Store → Store → Prop
  | nil (s : Store) : Rounds r [] s s
  | cons {u : ItemUpdate} {us} {s t w : Store} {item : ManifestItem}
      (h : ItemReceived r u s t item) (hrest : Rounds r us t w) : Rounds r (u :: us) s w

/-- What the rounds leave alone. -/
structure Untouched (manifestId : String) (s t : Store) : Prop where
  otherManifests : ∀ m, m ≠ manifestId → itemsOf t m = itemsOf s m
  fleet : elsewhere t.fleet = elsewhere s.fleet
  manifests : t.manifests = s.manifests
  storedResponses : t.storedResponses = s.storedResponses

variable {us : List ItemUpdate}

theorem Rounds.untouched {s t : Store} (h : Rounds r us s t) :
    Untouched r.manifestId s t := by
  induction h with
  | nil s => exact ⟨fun _ _ => rfl, rfl, rfl, rfl⟩
  | cons h _ ih =>
    obtain ⟨before, htaken⟩ := h.taken
    exact ⟨fun m hm => (ih.otherManifests m hm).trans (h.otherManifests m hm),
      ih.fleet.trans htaken.rest, ih.manifests.trans h.manifests,
      ih.storedResponses.trans h.storedResponses⟩

theorem Rounds.withManifests {s t : Store} (h : Rounds r us s t) (manifests : Table Manifest) :
    Rounds r us { s with manifests } { t with manifests } := by
  induction h with
  | nil s => exact .nil _
  | @cons u us s t w item h _ ih =>
    exact Rounds.cons (t := { t with manifests }) ⟨h.found, h.status, h.serial, h.others,
      h.otherManifests, h.taken, rfl, h.storedResponses⟩ ih

theorem Rounds.slot_eq {s t : Store} (h : Rounds r us s t) :
    slot r.manifestId t =
      run (apply ItemUpdate.batteryId (slotAfter r.warehouseId)) (slot r.manifestId s) us := by
  induction h with
  | nil s => rfl
  | cons h _ ih => rw [ih, h.slot_eq, run_cons]

/-- Updates that a loop can take: their serials are normalised, no two are the same, and those that
the map has were known at the start. -/
structure Listed (known : List String) (itemMap : List (String × ManifestItem))
    (us : List ItemUpdate) : Prop where
  normal : ∀ u ∈ us, normal u.batteryId = u.batteryId
  named : ∀ u ∈ us, u.batteryId ≠ ""
  nodup : (us.map ItemUpdate.batteryId).Nodup
  known : ∀ u ∈ us, ∀ i, itemMap.lookup u.batteryId = some i → u.batteryId ∈ known

theorem Listed.tail (h : Listed known itemMap (u :: us))
    (hothers : ∀ k, k ≠ u.batteryId → received.lookup k = itemMap.lookup k) :
    Listed known received us where
  normal x hx := h.normal x (List.mem_cons_of_mem _ hx)
  named x hx := h.named x (List.mem_cons_of_mem _ hx)
  nodup := List.Nodup.of_cons h.nodup
  known x hx i hi := by
    rw [hothers _ (Ne.symm (ne_of_nodup h.nodup x hx))] at hi
    exact h.known x (List.mem_cons_of_mem _ hx) i hi

def AdmitsAll (warehouseId : ℕ) (db : Db) (v : String → Slot) (us : List ItemUpdate) : Prop :=
  Along (apply ItemUpdate.batteryId (slotAfter warehouseId))
    (Accepted ItemUpdate.batteryId (Admits warehouseId db)) v us

theorem receiveItems_ok (hready : Ready r.manifestId itemMap s.working)
    (hlisted : Listed known itemMap us)
    (h : us.foldlM (receiveItem r known) itemMap s = (.ok received, t)) :
    t.committed = s.committed ∧ Ready r.manifestId received t.working ∧
      Rounds r us s.working t.working ∧
      AdmitsAll r.warehouseId (elsewhere s.working.fleet) (slot r.manifestId s.working) us := by
  induction us generalizing itemMap s with
  | nil =>
    obtain ⟨rfl, rfl⟩ := pure_ok.mp h
    exact ⟨rfl, hready, .nil _, trivial⟩
  | cons u us ih =>
    rw [List.foldlM_cons] at h
    obtain ⟨next, s₁, hround, h⟩ := bind_ok.mp h
    obtain ⟨hcommitted, hadmits, hnext, hothers, item, hreceived⟩ :=
      receiveItem_ok hready (hlisted.normal u List.mem_cons_self)
        (hlisted.named u List.mem_cons_self) (hlisted.known u List.mem_cons_self) hround
    obtain ⟨hcommitted', hend, hrounds, hrest⟩ := ih hnext (hlisted.tail hothers) h
    refine ⟨hcommitted'.trans hcommitted, hend, .cons hreceived hrounds, hadmits, ?_⟩
    obtain ⟨before, htaken⟩ := hreceived.taken
    rw [htaken.rest, hreceived.slot_eq] at hrest
    exact hrest

theorem receiveItems_of_admitsAll {s : Session Store}
    (hready : Ready r.manifestId itemMap s.working) (hlisted : Listed known itemMap us)
    (h : AdmitsAll r.warehouseId (elsewhere s.working.fleet) (slot r.manifestId s.working) us) :
    ∃ received t, us.foldlM (receiveItem r known) itemMap s = (.ok received, t) := by
  induction us generalizing itemMap s with
  | nil => exact ⟨_, _, rfl⟩
  | cons u us ih =>
    obtain ⟨hadmits, hrest⟩ := h
    have hnormal := hlisted.normal u List.mem_cons_self
    have hne := hlisted.named u List.mem_cons_self
    obtain ⟨next, s₁, hround⟩ : ∃ next t, receiveItem r known itemMap u s = (.ok next, t) :=
      receiveItem_of_admits hready hnormal hne hadmits
    obtain ⟨-, -, hnext, hothers, item, hreceived⟩ :=
      receiveItem_ok hready hnormal hne (hlisted.known u List.mem_cons_self) hround
    obtain ⟨before, htaken⟩ := hreceived.taken
    rw [← hreceived.slot_eq, ← htaken.rest] at hrest
    obtain ⟨received, t, hloop⟩ := ih hnext (hlisted.tail hothers) hrest
    rw [List.foldlM_cons]
    exact ⟨received, t, (bind_of_ok hround).trans hloop⟩

end

end WezuBackend.Manifests.Receiving
