import WezuBackend.Manifests.Completeness

/-!
# When a request to receive is carried out

A request to receive is carried out exactly if its key is free, it is well formed and the store
takes its updates (`carriedOut_of_accepts`, `accepts_of_carriedOut`).  Then each battery whose
serial an arriving update names is in the warehouse, under the status of that update, and each other
battery is where it was (`receive_place`).
-/

namespace WezuBackend.Manifests.Acceptance

open Lib.Tables Lib.Atomicity
open Lib.Atomicity.Tx
open Core.Letters Fleet.Model
open Orders.Service (normalizeIdempotencyKey)
open Manifests.Service hiding flush query commitAll
open Manifests.Intake Manifests.Receiving Manifests.Requests
open Manifests.Composition Manifests.Steps
open Manifests.Completeness

/-! ## Keys -/

section

variable {c : Caller} {path : String} {key : Option String} {s : Store}

/-- No other request has taken the key in the meantime. -/
def Untaken (c : Caller) (path : String) (key : Option String) (s : Store) : Prop :=
  ∀ k ∈ key, ∀ r ∈ s.storedResponses.find? (isResponseTo c path k),
    r.requestFingerprint = c.requestFingerprint

theorem recordIdempotentResponse_ok_iff {response : ManifestRead} {s : Session Store}
    (hu : UniqueIndexes s.working.fleet) :
    (∃ u t, recordIdempotentResponse c path key response s = (.ok u, t)) ↔
      Untaken c path key s.working := by
  rcases key with _ | key
  · refine iff_of_true ⟨(), s, rfl⟩ fun k hk => ?_
    cases hk
  rcases hfound : s.working.storedResponses.find? (isResponseTo c path key) with _ | r
  · have hnone : ∀ k ∈ some key, ∀ r ∈ s.working.storedResponses,
        isResponseTo c path k r = false := by
      rintro _ ⟨⟩
      exact Table.find?_eq_none.mp hfound
    obtain ⟨t, ht, -⟩ := @recordIdempotentResponse_unused c path (some key) response s hu hnone
    refine iff_of_true ⟨(), t, ht⟩ fun k hk r hr => ?_
    obtain rfl := Option.some.inj hk
    rw [hfound] at hr
    cases hr
  · have hquery : Service.query s = (.ok s.working, s) := Receiving.query_ok.mpr ⟨hu, rfl, rfl⟩
    unfold recordIdempotentResponse
    dsimp only
    rw [bind_of_ok hquery, hfound]
    constructor
    · rintro ⟨u, t, h⟩ k hk x hx
      obtain rfl := Option.some.inj hk
      rw [hfound] at hx
      obtain rfl := Option.some.inj hx
      exact (ensure_ok.mp h).1
    · intro h
      exact ⟨(), s, ensure_ok.mpr ⟨h key rfl r hfound, rfl⟩⟩

/-- The look-up of the key finds nothing to answer with, and the response can be stored. -/
def KeyFree (c : Caller) (path : String) (s : Store) : Prop :=
  ∃ key, normalizeIdempotencyKey c.idempotencyKey = .ok key ∧ ¬ Stored c path key s ∧
    Untaken c path key (afterLookup c path key s)

theorem KeyFree.not_replayed (h : KeyFree c path s) : ¬ Replayed c path s := by
  rintro ⟨key, hkey, hstored⟩
  obtain ⟨key', hkey', hnone, -⟩ := h
  obtain rfl := Except.ok.inj (hkey.symm.trans hkey')
  exact hnone hstored

variable {x : ManifestTx ManifestRead} {response : ManifestRead}

theorem answered_ok {t : Store} (hnew : ¬ Replayed c path s)
    (hkept : ∀ {s t}, x s = (.ok response, t) →
      t.working.storedResponses = s.working.storedResponses)
    (h : (answered c path x).call s = (.ok response, t)) : KeyFree c path s ∧
      ∃ s₀ t₀, core s₀ = core s ∧ x (.fresh s₀) = (.ok response, t₀) ∧
        core t = core t₀.working := by
  obtain ⟨w, hprogram, rfl⟩ := call_ok h
  obtain ⟨key, _, hlift, hprogram⟩ := bind_ok.mp hprogram
  obtain ⟨hkey, rfl⟩ := lift_ok.mp hlift
  obtain ⟨found, s₁, hfound, hprogram⟩ := bind_ok.mp hprogram
  rcases getIdempotentReplay_cases c path key s with
    ⟨e, -, hcase⟩ | ⟨data, hstored, -⟩ | ⟨hnone, hcase⟩
  · cases hcase.symm.trans hfound
  · exact absurd ⟨key, hkey, hstored⟩ hnew
  obtain ⟨rfl, rfl⟩ : none = found ∧ .fresh (afterLookup c path key s) = s₁ := by
    have hsame := hcase.symm.trans hfound
    exact ⟨Except.ok.inj (Prod.mk.inj hsame).1, (Prod.mk.inj hsame).2⟩
  obtain ⟨data, t₁, hrun, hprogram⟩ := bind_ok.mp hprogram
  obtain ⟨_, t₂, hrecord, hprogram⟩ := bind_ok.mp hprogram
  obtain ⟨-, hcore⟩ := recordIdempotentResponse_ok hrecord
  rw [Requests.commitAll_pure] at hprogram
  split_ifs at hprogram with hu
  · obtain ⟨hdata, rfl⟩ := Prod.mk.inj hprogram
    obtain rfl := Except.ok.inj hdata
    have hu' : UniqueIndexes t₁.working.fleet := (core_eq hcore).1 ▸ hu
    have huntaken := (recordIdempotentResponse_ok_iff hu').mp ⟨_, _, hrecord⟩
    refine ⟨⟨key, hkey, hnone, ?_⟩, _, t₁, core_afterLookup key s, hrun, hcore⟩
    unfold Untaken at huntaken ⊢
    rw [hkept hrun] at huntaken
    exact huntaken
  · cases (Prod.mk.inj hprogram).1

theorem answered_of_free (hfree : KeyFree c path s) (hu : UniqueIndexes s.fleet)
    (hrun : ∀ s₀, core s₀ = core s → ∃ response t, x (.fresh s₀) = (.ok response, t) ∧
      UniqueIndexes t.working.fleet ∧ t.working.storedResponses = s₀.storedResponses) :
    ∃ response t, (answered c path x).call s = (.ok response, t) := by
  obtain ⟨key, hkey, hnone, huntaken⟩ := hfree
  have hreplay : getIdempotentReplay c path key (.fresh s) =
      (.ok none, .fresh (afterLookup c path key s)) := by
    rcases getIdempotentReplay_cases c path key s with
      ⟨e, hcause, -⟩ | ⟨data, hstored, -⟩ | ⟨-, hcase⟩
    · exact absurd hcause (not_or.mpr ⟨hnone, not_not.mpr hu⟩)
    · exact absurd hstored hnone
    · exact hcase
  obtain ⟨response, t, hbody, hut, hkept⟩ := hrun _ (core_afterLookup key s)
  have huntaken' : Untaken c path key t.working := by
    unfold Untaken at huntaken ⊢
    rw [hkept]
    exact huntaken
  obtain ⟨_, t₁, hrecord⟩ := (@recordIdempotentResponse_ok_iff c path key response t hut).mpr
    huntaken'
  obtain ⟨-, hcore⟩ := recordIdempotentResponse_ok hrecord
  have hu₁ : UniqueIndexes t₁.working.fleet := by
    rw [(core_eq hcore).1]
    exact hut
  have hend := (Requests.commitAll_pure response t₁).trans (if_pos hu₁)
  have hprogram : answered c path x (.fresh s) = (.ok response, ⟨t₁.working, t₁.working⟩) := by
    rw [answered, lift_bind hkey, bind_of_ok hreplay]
    exact (bind_of_ok hbody).trans ((bind_of_ok hrecord).trans hend)
  exact ⟨response, t₁.working, call_eq hprogram⟩

end

section

variable [Casing]

/-! ## Acceptance -/

variable {c : Caller} {manifestId : String} {data : ManifestReceiveRequest} {s : Store} {k : ℕ}
  {m : Manifest}

structure Accepts (c : Caller) (manifestId : String) (data : ManifestReceiveRequest) (s : Store)
    (k : ℕ) (m : Manifest) : Prop where
  key : KeyFree c (receivePath (normal manifestId)) s
  id : normalizeManifestId manifestId = .ok (normal manifestId)
  wellFormed : WellFormed data.items
  receives : Receives (normal manifestId) data.warehouseId (data.items.filterMap updateOf) s k m

variable {us : List ItemUpdate}

theorem receives_congr {id : String} {warehouseId : Option ℕ}
    {s₀ : Store} (h : Receives id warehouseId us s₀ k m) (hs : core s₀ = core s) :
    Receives id warehouseId us s k m := by
  obtain ⟨hfleet, -, -⟩ := core_eq hs
  have hadmits := h.admits
  rw [hfleet, slot_core hs] at hadmits
  exact ⟨hfleet ▸ h.unique, hfleet ▸ h.warehouse, receivable_congr h.receivable hs, hadmits⟩

theorem carriedOut_of_accepts (h : Accepts c manifestId data s k m) :
    CarriedOut s (.receive c manifestId data) := by
  have hcall := receiveManifest_call (c := c) h.id h.wellFormed h.receives.unique
    h.receives.warehouse
  obtain ⟨response, t, hanswered⟩ := answered_of_free h.key h.receives.unique fun s₀ hs₀ => by
    obtain ⟨response, t, hrun, -, hu, hkept⟩ := receiveRows_of_receives (c := c)
      h.wellFormed.serials h.wellFormed.updates_ne_nil (receives_congr h.receives hs₀.symm)
    exact ⟨response, t, hrun, hu, hkept⟩
  refine ⟨?_, h.key.not_replayed⟩
  unfold program
  dsimp only
  rw [hcall, hanswered]
  rfl

theorem accepts_of_carriedOut (h : CarriedOut s (.receive c manifestId data)) :
    ∃ k m, Accepts c manifestId data s k m ∧ ∃ t₀,
      ManifestReceived ⟨c.now, c.userId, m.id, k⟩ (data.items.filterMap updateOf) m s t₀ ∧
      core (step s (.receive c manifestId data)) = core t₀ := by
  obtain ⟨hok, hnew⟩ := h
  rcases hcall : (receiveManifest c manifestId data).call s with ⟨e | response, t⟩
  · unfold program at hok
    dsimp only at hok
    rw [hcall] at hok
    cases hok
  obtain ⟨hid, hwell, hu, k, hk, hanswered⟩ := receiveManifest_checked hcall
  obtain ⟨hkey, s₀, t₁, hs₀, hrun, hcore⟩ := answered_ok hnew (fun hbody => by
    obtain ⟨-, m, -, -, hreceived, -⟩ := receiveRows_ok hwell.serials hwell.updates_ne_nil hbody
    exact hreceived.rounds.untouched.storedResponses) hanswered
  obtain ⟨hu₀, m, hreceivable, hadmits, hreceived, -⟩ :=
    receiveRows_ok hwell.serials hwell.updates_ne_nil hrun
  obtain ⟨hfleet, -, -⟩ := core_eq hs₀
  have hreceives : Receives (normal manifestId) data.warehouseId
      (data.items.filterMap updateOf) s₀ k m :=
    ⟨hu₀, (congrArg (intakeWarehouse · data.warehouseId) hfleet).trans hk, hreceivable, hadmits⟩
  refine ⟨k, m, ⟨hkey, hid, hwell, receives_congr hreceives hs₀⟩, _,
    received_congr hreceived hs₀, ?_⟩
  unfold step program
  dsimp only
  rw [hcall]
  exact hcore

/-! ## Batteries -/

variable {b : Battery}

theorem taken_battery {warehouseId : ℕ} {u : ItemUpdate} {before id : Option ℕ} {db db' : Db}
    (htaken : Taken warehouseId u before db db' id) {serial : String}
    (hb : b ∈ batteriesOf db serial) : ∃ b' ∈ batteriesOf db' serial, b'.id = b.id := by
  cases htaken with
  | brought hs hbrought =>
    by_cases hsame : serial = u.batteryId
    · subst hsame
      obtain ⟨b', hone, hid, -⟩ := hbrought.arrived
      refine ⟨b', ?_, hid.trans (hbrought.same b hb).symm⟩
      rw [hone]
      exact List.mem_singleton_self b'
    · refine ⟨b, ?_, rfl⟩
      rw [hbrought.others serial hsame]
      exact hb
  | noted hs hbatteries hshelf hrest =>
    refine ⟨b, ?_, rfl⟩
    rw [batteriesOf_congr hbatteries]
    exact hb

theorem rounds_battery {r : Receipt} {s t : Store} (hrounds : Rounds r us s t) {serial : String}
    (hb : b ∈ batteriesOf s.fleet serial) : ∃ b' ∈ batteriesOf t.fleet serial, b'.id = b.id := by
  induction hrounds generalizing b with
  | nil s => exact ⟨b, hb, rfl⟩
  | cons hitem _ ih =>
    obtain ⟨before, htaken⟩ := hitem.taken
    obtain ⟨b', hb', hid'⟩ := taken_battery htaken hb
    obtain ⟨b'', hb'', hid''⟩ := ih hb'
    exact ⟨b'', hb'', hid''.trans hid'⟩

theorem rounds_noted {r : Receipt} {s t : Store}
    (hrounds : Rounds r us s t) (hnodup : (us.map ItemUpdate.batteryId).Nodup) {u : ItemUpdate}
    (hu : u ∈ us) (hnoted : arrival u.status = none) :
    batteriesOf t.fleet u.batteryId = batteriesOf s.fleet u.batteryId := by
  induction hrounds with
  | nil s => cases hu
  | @cons x us s t w item hitem hrest ih =>
    rw [List.map_cons, List.nodup_cons] at hnodup
    obtain ⟨before, htaken⟩ := hitem.taken
    generalize item.batteryTableId = id at htaken
    rcases List.mem_cons.mp hu with rfl | hmem
    · refine (rounds_others hrest hnodup.1).2.trans ?_
      cases htaken with
      | brought hs _ =>
        rw [hnoted] at hs
        cases hs
      | noted _ hbatteries _ _ => exact batteriesOf_congr hbatteries _
    · refine (ih hnodup.2 hmem).trans ?_
      have hne : u.batteryId ≠ x.batteryId := fun hsame => hnodup.1
        (hsame ▸ List.mem_map_of_mem hmem)
      cases htaken with
      | brought _ hbrought => exact hbrought.others _ hne
      | noted _ hbatteries _ _ => exact batteriesOf_congr hbatteries _

/-- Where a request to receive puts a battery. -/
def Takes (c : Caller) (manifestId : String) (data : ManifestReceiveRequest) (s : Store)
    (b : Battery) (p : BatteryStatus × Option LocationType × Option ℕ) : Prop :=
  ∃ k m, Accepts c manifestId data s k m ∧ ∃ u ∈ data.items.filterMap updateOf,
    u.batteryId = sqlUpper b.serialNumber ∧
      ∃ status, arrival u.status = some status ∧ p = (status, some .warehouse, some k)

/-- **The batteries after a request to receive.** -/
theorem receive_place (c : Caller) (manifestId : String) (data : ManifestReceiveRequest)
    (hb : b ∈ s.fleet.batteries) :
    ∃ b' ∈ (step s (.receive c manifestId data)).fleet.batteries, b'.id = b.id ∧
      (∀ p, Takes c manifestId data s b p → place b' = p) ∧
      ((∀ p, ¬ Takes c manifestId data s b p) → place b' = place b) := by
  rcases step_cases s (.receive c manifestId data) with ⟨hno, hcore⟩ | ⟨hcarried, -⟩
  · rw [(core_eq hcore).1]
    refine ⟨b, hb, rfl, ?_, fun _ => rfl⟩
    rintro p ⟨k, m, haccepts, -⟩
    exact absurd (carriedOut_of_accepts haccepts) hno
  obtain ⟨k, m, haccepts, t₀, hreceived, hcore⟩ := accepts_of_carriedOut hcarried
  have hrounds := hreceived.rounds
  have hnodup := haccepts.wellFormed.serials.nodup
  have hrow : b ∈ batteriesOf s.fleet (sqlUpper b.serialNumber) := mem_batteriesOf.mpr ⟨hb, rfl⟩
  obtain ⟨b', hb', hid⟩ := rounds_battery hrounds hrow
  have hstays : batteriesOf t₀.fleet (sqlUpper b.serialNumber) =
      batteriesOf s.fleet (sqlUpper b.serialNumber) → place b' = place b := by
    intro hsame
    have hback : b' ∈ batteriesOf s.fleet (sqlUpper b.serialNumber) := by
      rw [← hsame]
      exact hb'
    rw [Table.eq_of_key (mem_batteriesOf.mp hback).1 hb hid]
  rw [(core_eq hcore).1]
  refine ⟨b', (mem_batteriesOf.mp hb').1, hid, ?_, fun hnone => ?_⟩
  · rintro p ⟨k', m', haccepts', u, hu, hserial, status, hstatus, rfl⟩
    obtain rfl : k' = k := Option.some.inj
      (haccepts'.receives.warehouse.symm.trans haccepts.receives.warehouse)
    obtain ⟨item, harrived⟩ := rounds_arrived hrounds hnodup hu
    obtain ⟨x, hone, -, -, hplace⟩ := harrived.battery status hstatus
    rw [hserial] at hone
    have hone' : batteriesOf t₀.fleet (sqlUpper b.serialNumber) = [x] := hone
    rw [hone'] at hb'
    rw [List.mem_singleton.mp hb', hplace]
  · refine hstays ?_
    by_cases hnamed : sqlUpper b.serialNumber ∈
        (data.items.filterMap updateOf).map ItemUpdate.batteryId
    · obtain ⟨u, hu, hserial⟩ := List.mem_map.mp hnamed
      rcases harrival : arrival u.status with _ | status
      · rw [← hserial]
        exact rounds_noted hrounds hnodup hu harrival
      · exact absurd ⟨k, m, haccepts, u, hu, hserial, status, harrival, rfl⟩ (hnone _)
    · exact (rounds_others hrounds hnamed).2

end

end WezuBackend.Manifests.Acceptance
