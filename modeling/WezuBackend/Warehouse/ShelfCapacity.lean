import WezuBackend.Lib.Interleaving
import WezuBackend.Warehouse.ShelfAssignment

/-!
# The capacity of a shelf

Requests that assign a battery to a shelf, and releases of orders that put their batteries back, at
the same time.  A request locks its batteries, moves one after the other and commits.  An assignment
has locked the row of its shelf before; a release locks no shelf.  A move counts the rows of the
shelf that are stored and those of its own request, so the rows of the others are seen only once
they are committed.

A shelf holds more than it can exactly if a request commits rows for which there is no room any
more: another request has committed since it has counted (`overtaken_of_full`).  Two assignments do
not overtake each other, as the row of the shelf is locked (`assignments_keep`); a release can
overtake an assignment, and an assignment a release (`capacity_iff`).
-/

namespace WezuBackend.Warehouse.ShelfCapacity

open Lib.Tables Lib.Atomicity Lib.Atomicity.Tx Lib.Runs Lib.Interleaving Core.Base
open Core.Letters Fleet.Model Fleet.Consistency Fleet.Transitions Orders.DispatchEvents
open Orders.Service Warehouse.ShelfAssignment

/-! ## Requests -/

/-- A request to assign a battery to a shelf. -/
structure Assignment where
  now : ℕ
  name : ℕ → String
  shelfId : ℕ
  batteryId : String
  currentUserId : ℕ

/-- The release of an order's batteries, once the order is `failed` or `cancelled`. -/
structure Release where
  now : ℕ
  order : Order
  newStatus : String
  failureReason : Option String := none
  actorId : Option ℕ := none

inductive Request where
  | assign (assignment : Assignment)
  | release (release : Release)

def Release.transition (r : Release) (place : LocationType × Option ℕ) : Transition :=
  let description := s!"Released from order {r.order.id} due to {r.newStatus}"
  let reason := if r.newStatus = "failed" then truthy r.failureReason else none
  { toStatus := some .available, toLocationType := some place.1, toLocationId := some place.2
    eventType := "released"
    eventDescription := (reason.map fun text => s!"{description}: {text}").getD description
    actorId := r.actorId, excludeOrderId := some r.order.id }

section

variable [Casing]

/-- The batteries that a request locks, once it has checked its shelf or its order. -/
def findBatteries : Request → FleetTx (List Battery)
  | .assign r => do
    let _ ← findShelf r.shelfId
    let found ← findBattery r.batteryId
    return [found.2]
  | .release r => do
    let batteryIds ← getOrderBatteryIds r.order
    fetchAssigned batteryIds

def checkBatteries : Request → List Battery → FleetTx Unit
  | .assign r, batteries => do
    let shelf ← findShelf r.shelfId
    let serial ← lift (normalizeBatterySerial r.batteryId)
    batteries.forM (checkAssignable r.shelfId shelf.2 serial)
  | .release _, _ => pure ()

def prepare : Request → Battery → FleetTx (Battery × Transition)
  | .assign r, battery =>
    pure (battery, shelfTransition r.name r.shelfId r.currentUserId battery)
  | .release r, battery => do
    let battery ← withSerial r.now battery
    let db ← query
    let place ← lift (resolveReleaseLocation db battery r.order)
    return (battery, r.transition place)

def Request.now : Request → ℕ
  | .assign r => r.now
  | .release r => r.now

def moveWith (now : ℕ) (battery : Battery) (args : Transition) : FleetTx Move := do
  let db ← look
  let _ ← applyBatteryTransition now battery args
  return ⟨now, args, battery, (shelfRows db (normal battery.serialNumber)).head?⟩

def moveBattery (request : Request) (battery : Battery) : FleetTx Move := do
  let prepared ← prepare request battery
  moveWith request.now prepared.1 prepared.2

end

/-! ## The steps of a request -/

inductive Stage where
  | called
  /-- the row of the shelf is locked -/
  | shelfLocked
  /-- the batteries are locked, and some of them are moved -/
  | moving (todo : List Battery) (moves : List Move)
  | ended (result : Except Exc Unit)

/-- The committed tables, and who has locked which rows. -/
structure Store (ι : Type) where
  db : Db
  shelfLock : ℕ → Option ι := fun _ => none
  batteryLock : ℕ → Option ι := fun _ => none

/-- A request, and where it is made to raise: a lost connection, a lock that is not given, an answer
from the idempotency record. -/
structure Call where
  request : Request
  raises : Stage → Option Exc := fun _ => none

section

variable {ι : Type} [DecidableEq ι]

/-- Nobody else has locked the row. -/
def Free (lock : ℕ → Option ι) (i : ι) (k : ℕ) : Prop := ∀ j ∈ lock k, j = i

instance (lock : ℕ → Option ι) (i : ι) (k : ℕ) : Decidable (Free lock i k) := by
  unfold Free
  infer_instance

def taken (lock : ℕ → Option ι) (i : ι) (ks : List ℕ) : ℕ → Option ι := fun k =>
  if k ∈ ks then some i else lock k

def released (lock : ℕ → Option ι) (i : ι) : ℕ → Option ι := fun k => (lock k).filter (· ≠ i)

/-- The end of a request: its locks are gone. -/
def endAs (i : ι) (store : Store ι) (result : Except Exc Unit) : Store ι × Stage :=
  ({ store with
      shelfLock := released store.shelfLock i, batteryLock := released store.batteryLock i },
    .ended result)

variable [Casing]

/-- What the request sees: the committed rows, and what it has written itself. -/
def view (db : Db) (moves : List Move) : Db := moves.foldl (fun db m => m.write db) db

def session (db : Db) (moves : List Move) : Session Db := ⟨db, view db moves⟩

def lockShelf (i : ι) (store : Store ι) : Request → Store ι × Stage
  | .release _ => (store, .shelfLocked)
  | .assign r =>
    match store.db.shelves.get? r.shelfId with
    | none => endAs i store (.error (.http 404 "Shelf not found"))
    | some _ =>
      if Free store.shelfLock i r.shelfId then
        ({ store with shelfLock := taken store.shelfLock i [r.shelfId] }, .shelfLocked)
      else (store, .called)

def lockBatteries (i : ι) (request : Request) (store : Store ι) : Store ι × Stage :=
  match ((findBatteries request).call store.db).1 with
  | .error e => endAs i store (.error e)
  | .ok batteries =>
    if ∀ b ∈ batteries, Free store.batteryLock i b.id then
      match ((checkBatteries request batteries).call store.db).1 with
      | .error e => endAs i store (.error e)
      | .ok _ =>
        ({ store with batteryLock := taken store.batteryLock i (batteries.map Battery.id) },
          .moving batteries [])
    else (store, .shelfLocked)

/-- The next step of a request that does not raise for reasons of its own. -/
def proceed (request : Request) (i : ι) (store : Store ι) : Stage → Store ι × Stage
  | .called => lockShelf i store request
  | .shelfLocked => lockBatteries i request store
  | .moving (battery :: todo) moves =>
    match (moveBattery request battery (session store.db moves)).1 with
    | .error e => endAs i store (.error e)
    | .ok m => (store, .moving todo (moves ++ [m]))
  | .moving [] moves =>
    if UniqueIndexes (view store.db moves) then
      endAs i { store with db := view store.db moves } (.ok ())
    else endAs i store (.error .integrityError)
  | .ended result => (store, .ended result)

/-- The next step of request `i`. -/
def advance (call : Call) (i : ι) (store : Store ι) (stage : Stage) : Store ι × Stage :=
  match stage, call.raises stage with
  | .ended result, _ => (store, .ended result)
  | _, some e => endAs i store (.error e)
  | stage, none => proceed call.request i store stage

def next (calls : ι → Call) (i : ι) : Store ι → Stage → Store ι × Stage := advance (calls i) i

def start (db : Db) : World ι (Store ι) Stage := .start { db } .called

end

/-! ## Rows on a shelf -/

/-- The number of rows of the shelf. -/
def onShelf (db : Db) (k : ℕ) : ℕ := (db.shelfBatteries.filter fun r => r.shelfId = k).length

/-- No shelf holds more than it can. -/
def WithinCapacity (db : Db) : Prop := ∀ shelf ∈ db.shelves, onShelf db shelf.id ≤ shelf.capacity

instance (db : Db) : Decidable (WithinCapacity db) := by
  unfold WithinCapacity
  infer_instance

theorem sublist_dropped (rows : Table ShelfBattery) (a : Option ShelfBattery) :
    (dropped rows a).rows.Sublist rows.rows := by
  rcases a with _ | r
  · exact List.Sublist.refl _
  · exact List.filter_sublist

theorem length_filter_add {α : Type} [Row α ℕ] {t : Table α} {mk : ℕ → α}
    {hmk : ∀ k, Row.key (mk k) = k} (p : α → Bool) :
    ((t.add mk hmk).filter p).length =
      (t.filter p).length + if p (mk t.freshKey) then 1 else 0 := by
  rw [Table.filter_add, List.length_append]
  split_ifs <;> rfl

section

variable [Casing]

@[simp] theorem shelves_view (db : Db) (moves : List Move) :
    (view db moves).shelves = db.shelves := by
  induction moves generalizing db with
  | nil => rfl
  | cons m moves ih => exact ih (m.write db)

theorem view_append (db : Db) (moves : List Move) (m : Move) :
    view db (moves ++ [m]) = m.write (view db moves) := List.foldl_concat ..

/-- A move puts at most one row on a shelf, and on one shelf only. -/
theorem onShelf_write_le (m : Move) (db : Db) (k : ℕ) :
    onShelf (m.write db) k ≤ onShelf db k + if m.adds = some k then 1 else 0 := by
  have hdropped : ((dropped db.shelfBatteries m.assignment).filter fun r => r.shelfId = k).length ≤
      onShelf db k := ((sublist_dropped _ _).filter _).length_le
  have hrows : (m.write db).shelfBatteries = m.rows db.shelfBatteries := rfl
  unfold onShelf at hdropped ⊢
  rw [hrows]
  unfold Move.rows Move.adds
  rcases m.target with _ | n
  · dsimp only
    omega
  · dsimp only
    by_cases hsame : m.assignment.map ShelfBattery.shelfId = some n
    · rw [if_pos hsame]
      omega
    · have hadds : (some n).filter
          (fun k => decide (m.assignment.map ShelfBattery.shelfId ≠ some k)) = some n := by
        simpa using hsame
      rw [if_neg hsame, hadds, length_filter_add]
      simp only [decide_eq_true_eq, Option.some.injEq]
      omega

theorem head?_shelfRows {db : Db} {serial : String} {a : Option ShelfBattery}
    (ha : ∀ r, (r ∈ db.shelfBatteries ∧ sqlUpper r.batteryId = serial) ↔ a = some r) :
    (shelfRows db serial).head? = a := by
  have hmem : ∀ r, r ∈ shelfRows db serial ↔ a = some r := by
    intro r
    rw [← ha]
    simp [shelfRows, Table.mem_def]
  rcases hrows : shelfRows db serial with _ | ⟨r, rows⟩
  · rcases a with _ | r
    · rfl
    · have hr := (hmem r).mpr rfl
      rw [hrows] at hr
      cases hr
  · have hr : r ∈ shelfRows db serial := hrows ▸ List.mem_cons_self
    rw [(hmem r).mp hr]
    rfl

/-! ## Commits -/

variable {ι : Type} [DecidableEq ι] {calls : ι → Call}

/-- The next step of the request commits its moves. -/
structure Commits (calls : ι → Call) (w : World ι (Store ι) Stage) (i : ι) (moves : List Move) :
    Prop where
  moved : w.position i = .moving [] moves
  unhindered : (calls i).raises (.moving [] moves) = none
  unique : UniqueIndexes (view w.store.db moves)

/-- What a step of a request can do. -/
inductive Advanced (call : Call) (i : ι) (store : Store ι) : Stage → Store ι × Stage → Prop where
  | ended (result : Except Exc Unit) : Advanced call i store (.ended result) (store, .ended result)
  | failed {stage : Stage} (e : Exc)
    (h : ∀ moves, stage = .moving [] moves → call.raises stage = none →
      ¬ UniqueIndexes (view store.db moves)) :
    Advanced call i store stage (endAs i store (.error e))
  | committed {moves : List Move} (hraises : call.raises (.moving [] moves) = none)
    (hunique : UniqueIndexes (view store.db moves)) :
    Advanced call i store (.moving [] moves)
      (endAs i { store with db := view store.db moves } (.ok ()))
  | locksNoShelf (r : Release) (h : call.request = .release r) :
    Advanced call i store .called (store, .shelfLocked)
  | waitsForShelf : Advanced call i store .called (store, .called)
  | locksShelf (r : Assignment) (h : call.request = .assign r)
    (hfree : Free store.shelfLock i r.shelfId) : Advanced call i store .called
      ({ store with shelfLock := taken store.shelfLock i [r.shelfId] }, .shelfLocked)
  | waitsForBatteries : Advanced call i store .shelfLocked (store, .shelfLocked)
  | locksBatteries {batteries : List Battery}
    (h : ((findBatteries call.request).call store.db).1 = .ok batteries) :
    Advanced call i store .shelfLocked
      ({ store with batteryLock := taken store.batteryLock i (batteries.map Battery.id) },
        .moving batteries [])
  | moves {b : Battery} {todo : List Battery} {done : List Move} {m : Move}
    (h : (moveBattery call.request b (session store.db done)).1 = .ok m) :
    Advanced call i store (.moving (b :: todo) done) (store, .moving todo (done ++ [m]))

theorem advanced_lockShelf (call : Call) (i : ι) (store : Store ι) :
    Advanced call i store .called (lockShelf i store call.request) := by
  rcases hrequest : call.request with r | r
  · unfold lockShelf
    dsimp only
    split
    · exact .failed _ nofun
    · split_ifs with hfree
      · exact .locksShelf r hrequest hfree
      · exact .waitsForShelf
  · exact .locksNoShelf r hrequest

theorem advanced_lockBatteries (call : Call) (i : ι) (store : Store ι) :
    Advanced call i store .shelfLocked (lockBatteries i call.request store) := by
  unfold lockBatteries
  split
  · exact .failed _ nofun
  · next batteries hfound =>
    split_ifs
    · split
      · exact .failed _ nofun
      · exact .locksBatteries hfound
    · exact .waitsForBatteries

theorem advanced_proceed {call : Call} {stage : Stage} (hraises : call.raises stage = none) (i : ι)
    (store : Store ι) : Advanced call i store stage (proceed call.request i store stage) := by
  rcases stage with _ | _ | ⟨_ | ⟨b, todo⟩, moves⟩ | result
  · exact advanced_lockShelf call i store
  · exact advanced_lockBatteries call i store
  · dsimp only [proceed]
    split_ifs with hunique
    · exact .committed hraises hunique
    · refine .failed _ fun moves' hmoves _ => ?_
      cases hmoves
      exact hunique
  · dsimp only [proceed]
    split
    · exact .failed _ nofun
    · next m hmove => exact .moves hmove
  · exact .ended result

theorem advanced (call : Call) (i : ι) (store : Store ι) (stage : Stage) :
    Advanced call i store stage (advance call i store stage) := by
  rcases hraises : call.raises stage with _ | e
  · have hadvance : advance call i store stage = proceed call.request i store stage := by
      unfold advance
      rw [hraises]
      cases stage <;> rfl
    rw [hadvance]
    exact advanced_proceed hraises i store
  · have hfailed : Advanced call i store stage (endAs i store (.error e)) :=
      .failed e fun _ _ hnone => absurd (hraises.symm.trans hnone) nofun
    unfold advance
    rw [hraises]
    cases stage with
    | ended result => exact .ended result
    | _ => exact hfailed

theorem step_db (calls : ι → Call) (w : World ι (Store ι) Stage) (i : ι) :
    (∃ moves, Commits calls w i moves ∧
      (turn (next calls) w i).store.db = view w.store.db moves) ∨
    ((∀ moves, ¬ Commits calls w i moves) ∧
      (turn (next calls) w i).store.db = w.store.db) := by
  have hstep := advanced (calls i) i w.store (w.position i)
  rw [turn_store]
  unfold next
  generalize advance (calls i) i w.store (w.position i) = x at hstep ⊢
  generalize hpos : w.position i = stage at hstep ⊢
  have hmoving : ∀ moves, Commits calls w i moves → stage = .moving [] moves := fun moves h =>
    hpos.symm.trans h.moved
  cases hstep with
  | committed hraises hunique => exact .inl ⟨_, ⟨hpos, hraises, hunique⟩, rfl⟩
  | failed e h =>
    refine .inr ⟨fun moves hcommits => ?_, rfl⟩
    obtain rfl := hmoving moves hcommits
    exact h moves rfl hcommits.unhindered hcommits.unique
  | _ => exact .inr ⟨fun moves hcommits => absurd (hmoving moves hcommits) nofun, rfl⟩

omit [DecidableEq ι] in
theorem Commits.unique_moves {w : World ι (Store ι) Stage} {i : ι} {moves moves' : List Move}
    (h : Commits calls w i moves) (h' : Commits calls w i moves') : moves = moves' := by
  have hsame := h.moved.symm.trans h'.moved
  cases hsame
  rfl

omit [DecidableEq ι] in
theorem onShelf_view_le {moves : List Move} {k : ℕ} (h : ∀ m ∈ moves, m.adds ≠ some k) (db : Db) :
    onShelf (view db moves) k ≤ onShelf db k := by
  induction moves generalizing db with
  | nil => exact le_rfl
  | cons m moves ih =>
    have hfirst := onShelf_write_le m db k
    rw [if_neg (h m List.mem_cons_self)] at hfirst
    exact (ih (fun m' hm' => h m' (List.mem_cons_of_mem _ hm')) (m.write db)).trans hfirst

end

/-! ## Counting -/

section

variable [Casing]

/-- The preparation of a move writes the serial of the battery, which the move writes again. -/
theorem prepare_ok {request : Request} {battery b : Battery} {args : Transition} {s t : Session Db}
    (h : prepare request battery s = (.ok (b, args), t)) :
    t.committed = s.committed ∧
      t.working = { s.working with batteries := t.working.batteries } ∧
      t.working.batteries.set (outcome request.now args b) =
        s.working.batteries.set (outcome request.now args b) := by
  cases request with
  | assign r =>
    obtain ⟨-, rfl⟩ := pure_ok.mp h
    exact ⟨rfl, rfl, rfl⟩
  | release r =>
    simp only [prepare, withSerial, bind_ok, lift_ok, saveBattery_ok, query_ok, pure_ok] at h
    obtain ⟨_, _, ⟨_, _, ⟨-, rfl⟩, _, _, rfl, rfl, rfl⟩, _, _, ⟨-, rfl, rfl⟩, _, _, ⟨-, rfl⟩,
      hpair, rfl⟩ := h
    obtain ⟨rfl, rfl⟩ := Prod.mk.inj hpair
    exact ⟨rfl, rfl, Table.set_set (outcome_id _ _ _).symm⟩

/-- A battery is moved: what it is moved with, and what the transition has found and written. -/
theorem moveBattery_ok {request : Request} {battery : Battery} {m : Move} {s t : Session Db}
    (h : moveBattery request battery s = (.ok m, t)) : ∃ s₁,
      prepare request battery s = (.ok (m.battery, m.args), s₁) ∧ m.now = request.now ∧
      t.committed = s₁.committed ∧
      Transitioned m.now m.args m.battery m.assignment s₁.working t.working := by
  rw [moveBattery] at h
  obtain ⟨⟨b, args⟩, s₁, hprepare, h⟩ := bind_ok.mp h
  obtain ⟨_, _, hlook, h⟩ := bind_ok.mp h
  obtain ⟨rfl, rfl⟩ := look_ok.mp hlook
  obtain ⟨b', s₂, htrans, h⟩ := bind_ok.mp h
  obtain ⟨rfl, rfl⟩ := pure_ok.mp h
  obtain ⟨-, hcommitted, a, htransitioned⟩ := applyBatteryTransition_ok htrans
  refine ⟨s₁, hprepare, rfl, hcommitted, ?_⟩
  rw [head?_shelfRows htransitioned.assigned]
  exact htransitioned

theorem moveBattery_written {request : Request} {battery : Battery} {m : Move} {s t : Session Db}
    (h : moveBattery request battery s = (.ok m, t)) :
    t = ⟨s.committed, m.write s.working⟩ := by
  obtain ⟨s₁, hprepare, hnow, hcommitted, htransitioned⟩ := moveBattery_ok h
  obtain ⟨hsame, hrest, hset⟩ := prepare_ok hprepare
  refine Session.ext (hcommitted.trans hsame) ?_
  rw [written_eq htransitioned]
  unfold Move.write
  dsimp only
  rw [hnow, hset, hrest]
  rfl

/-- A move that puts a row on a shelf has found room there. -/
theorem moveBattery_room {request : Request} {battery : Battery} {m : Move} {s t : Session Db}
    (h : moveBattery request battery s = (.ok m, t)) {k : ℕ} (hk : m.adds = some k) :
    ∃ shelf, s.working.shelves.get? k = some shelf ∧ onShelf s.working k < shelf.capacity := by
  obtain ⟨s₁, hprepare, -, -, htransitioned⟩ := moveBattery_ok h
  obtain ⟨-, hrest, -⟩ := prepare_ok hprepare
  obtain ⟨htarget, hmoves⟩ := Option.filter_eq_some_iff.mp hk
  have htype : targetLocationType m.args m.battery = some .shelf := by
    by_contra hne
    unfold Move.target at htarget
    rw [if_neg hne] at htarget
    cases htarget
  have hid : targetLocationId m.args m.battery = some k := by
    unfold Move.target at htarget
    rwa [if_pos htype] at htarget
  have hreshelved := htransitioned.reshelved
  rw [htype, hid, hrest] at hreshelved
  generalize t.working.shelfBatteries = rows at hreshelved
  cases hreshelved with
  | kept ha =>
    rw [ha] at hmoves
    simp at hmoves
  | shelved hs hne hroom => exact ⟨_, hs, hroom⟩
  | cleared ht => exact absurd rfl ht

/-- An assignment puts a row on its own shelf only. -/
theorem adds_assign {r : Assignment} {battery : Battery} {m : Move} {s t : Session Db}
    (h : moveBattery (.assign r) battery s = (.ok m, t)) {k : ℕ} (hk : m.adds = some k) :
    k = r.shelfId := by
  obtain ⟨s₁, hprepare, -⟩ := moveBattery_ok h
  obtain ⟨hpair, -⟩ := pure_ok.mp hprepare
  obtain ⟨hbattery, hargs⟩ := Prod.mk.inj hpair
  have htarget := (Option.filter_eq_some_iff.mp hk).1
  unfold Move.target at htarget
  rw [← hargs] at htarget
  split_ifs at htarget
  exact (Option.some.inj htarget).symm

/-! ## Who has counted -/

variable {ι : Type} [DecidableEq ι]

/-- What the request has moved so far, and has not committed. -/
def movesOf : Stage → List Move
  | .moving _ moves => moves
  | _ => []

def worldAfter (calls : ι → Call) (db : Db) (os : List ι) : World ι (Store ι) Stage :=
  run (turn (next calls)) (start db) os

/-- The request has counted the rows of the shelf and put one there. -/
def Adds (w : World ι (Store ι) Stage) (a : ι) (shelf : Shelf) : Prop :=
  ∃ m ∈ movesOf (w.position a), m.adds = some shelf.id

/-- The stored rows leave room on the shelf for what the request has moved. -/
def Fits (w : World ι (Store ι) Stage) (a : ι) (shelf : Shelf) : Prop :=
  onShelf (view w.store.db (movesOf (w.position a))) shelf.id ≤ shelf.capacity

/-- `b` commits after `a` has counted, and there is no room any more for what `a` has moved. -/
def Overtakes (calls : ι → Call) (db : Db) (a b : ι) (shelf : Shelf) (p : List ι) : Prop :=
  b ≠ a ∧ Adds (worldAfter calls db p) a shelf ∧ Fits (worldAfter calls db p) a shelf ∧
    (∃ moves, Commits calls (worldAfter calls db p) b moves) ∧
    ¬ Fits (worldAfter calls db (p ++ [b])) a shelf

/-- A request commits that has been overtaken, and there is still no room. -/
def CommitsOvertaken (calls : ι → Call) (db : Db) (os : List ι) : Prop :=
  ∃ p b q a r, os = p ++ b :: (q ++ a :: r) ∧ ∃ shelf ∈ db.shelves,
    Overtakes calls db a b shelf p ∧ ¬ Fits (worldAfter calls db (p ++ b :: q)) a shelf ∧
    ∃ moves, Commits calls (worldAfter calls db (p ++ b :: q)) a moves

variable {calls : ι → Call} {db : Db} {a : ι} {shelf : Shelf}

theorem worldAfter_concat (calls : ι → Call) (db : Db) (os : List ι) (o : ι) :
    worldAfter calls db (os ++ [o]) = turn (next calls) (worldAfter calls db os) o :=
  run_concat _ _ _

theorem shelves_turn (calls : ι → Call) (w : World ι (Store ι) Stage) (i : ι) :
    (turn (next calls) w i).store.db.shelves = w.store.db.shelves := by
  rcases step_db calls w i with ⟨moves, -, hdb⟩ | ⟨-, hdb⟩
  · rw [hdb, shelves_view]
  · rw [hdb]

theorem shelves_after (calls : ι → Call) (db : Db) (os : List ι) :
    (worldAfter calls db os).store.db.shelves = db.shelves :=
  run_invariant (I := fun w => w.store.db.shelves = db.shelves)
    (fun w i hw => (shelves_turn calls w i).trans hw) rfl os

/-- A step of the request itself leaves room: it has counted what it sees. -/
theorem full_of_turn {w : World ι (Store ι) Stage} (hmem : shelf ∈ w.store.db.shelves)
    (hadds : Adds (turn (next calls) w a) a shelf)
    (hfull : ¬ Fits (turn (next calls) w a) a shelf) : Adds w a shelf ∧ ¬ Fits w a shelf := by
  have hstep := advanced (calls a) a w.store (w.position a)
  unfold Adds at hadds ⊢
  unfold Fits at hfull ⊢
  rw [turn_position_self] at hadds hfull
  rw [turn_store] at hfull
  unfold next at hadds hfull
  generalize advance (calls a) a w.store (w.position a) = x at hstep hadds hfull
  generalize w.position a = stage at hstep ⊢
  have hnone : movesOf x.2 ≠ [] := by
    intro hnil
    rw [hnil] at hadds
    obtain ⟨_, hm, -⟩ := hadds
    cases hm
  cases hstep with
  | @moves b todo done m h =>
    dsimp only [movesOf] at hadds hfull ⊢
    rw [view_append] at hfull
    have hwrite := onShelf_write_le m (view w.store.db done) shelf.id
    by_cases hm : m.adds = some shelf.id
    · rw [if_pos hm] at hwrite
      obtain ⟨shelf', hget, hroom⟩ := moveBattery_room (Prod.ext h rfl) hm
      have hview : (session w.store.db done).working.shelves = w.store.db.shelves :=
        shelves_view w.store.db done
      rw [hview, ← key_shelf, Table.get?_of_mem hmem] at hget
      obtain rfl := Option.some.inj hget
      have hworking : (session w.store.db done).working = view w.store.db done := rfl
      rw [hworking] at hroom
      exact absurd (hwrite.trans hroom) hfull
    · rw [if_neg hm, add_zero] at hwrite
      refine ⟨?_, fun hfits => hfull (hwrite.trans hfits)⟩
      obtain ⟨m', hm', hk⟩ := hadds
      rcases List.mem_append.mp hm' with hm' | hm'
      · exact ⟨m', hm', hk⟩
      · rw [List.mem_singleton.mp hm'] at hk
        exact absurd hk hm
  | _ => exact absurd rfl hnone

/-- A request that has no room any more for what it has moved has been overtaken. -/
theorem overtaken_of_full (hmem : shelf ∈ db.shelves) {os : List ι}
    (hadds : Adds (worldAfter calls db os) a shelf)
    (hfull : ¬ Fits (worldAfter calls db os) a shelf) :
    ∃ p b q, os = p ++ b :: q ∧ Overtakes calls db a b shelf p := by
  induction os using List.reverseRecOn with
  | nil =>
    obtain ⟨_, hm, -⟩ := hadds
    cases hm
  | append_singleton os o ih =>
    have hearlier : Adds (worldAfter calls db os) a shelf →
        ¬ Fits (worldAfter calls db os) a shelf →
        ∃ p b q, os ++ [o] = p ++ b :: q ∧ Overtakes calls db a b shelf p := by
      intro hadds hfull
      obtain ⟨p, b, q, rfl, h⟩ := ih hadds hfull
      exact ⟨p, b, q ++ [o], by simp, h⟩
    have hconcat := worldAfter_concat calls db os o
    by_cases ho : o = a
    · subst ho
      rw [hconcat] at hadds hfull
      obtain ⟨hadds, hfull⟩ := full_of_turn (by rw [shelves_after]; exact hmem) hadds hfull
      exact hearlier hadds hfull
    · have hposition : (worldAfter calls db (os ++ [o])).position a =
          (worldAfter calls db os).position a := by
        rw [hconcat]
        exact turn_position_ne _ (Ne.symm ho)
      have hbefore : Adds (worldAfter calls db os) a shelf := by
        unfold Adds at hadds ⊢
        rwa [← hposition]
      by_cases hfits : Fits (worldAfter calls db os) a shelf
      · refine ⟨os, o, [], rfl, ho, hbefore, hfits, ?_, hfull⟩
        -- the step of the other request has changed the store
        rcases step_db calls (worldAfter calls db os) o with ⟨moves, hcommits, -⟩ | ⟨-, hdb⟩
        · exact ⟨moves, hcommits⟩
        · refine absurd ?_ hfull
          unfold Fits at hfits ⊢
          rwa [hposition, hconcat, hdb]
      · exact hearlier hbefore hfits

/-- Every state of the run keeps the capacity exactly if no overtaken request commits. -/
theorem kept_iff (hdb : WithinCapacity db) (os : List ι) :
    (∀ p q, os = p ++ q → WithinCapacity (worldAfter calls db p).store.db) ↔
      ¬ CommitsOvertaken calls db os := by
  constructor
  · rintro hkept ⟨p, b, q, a, r, rfl, shelf, hmem, -, hfull, moves, hcommits⟩
    have hlast := hkept (p ++ b :: q ++ [a]) r (by simp)
    rw [worldAfter_concat] at hlast
    rcases step_db calls (worldAfter calls db (p ++ b :: q)) a with ⟨moves', h', hafter⟩ | ⟨hno, -⟩
    · obtain rfl := hcommits.unique_moves h'
      rw [hafter] at hlast
      refine hfull ?_
      unfold Fits
      rw [hcommits.moved]
      refine hlast shelf ?_
      rw [shelves_view, shelves_after]
      exact hmem
    · exact hno moves hcommits
  · intro hnot p
    induction p using List.reverseRecOn with
    | nil => exact fun _ _ => hdb
    | append_singleton p o ih =>
      intro q hos
      have hsplit : os = p ++ o :: q := by
        rw [hos]
        simp
      have hbefore := ih (o :: q) hsplit
      rw [worldAfter_concat]
      rcases step_db calls (worldAfter calls db p) o with ⟨moves, hcommits, hafter⟩ | ⟨-, hafter⟩
      · rw [hafter]
        intro shelf hshelf
        rw [shelves_view] at hshelf
        by_cases hadds : ∃ m ∈ moves, m.adds = some shelf.id
        · by_contra hfull
          have hmoves : movesOf ((worldAfter calls db p).position o) = moves := by
            rw [hcommits.moved]
            rfl
          have hmem : shelf ∈ db.shelves := by rwa [shelves_after] at hshelf
          have hovertaken : ¬ Fits (worldAfter calls db p) o shelf := by
            unfold Fits
            rwa [hmoves]
          obtain ⟨p', b, q', rfl, hover⟩ :=
            overtaken_of_full hmem (by rw [Adds, hmoves]; exact hadds) hovertaken
          exact hnot ⟨p', b, q', o, q, by rw [hsplit]; simp, shelf, hmem, hover, hovertaken, moves,
            hcommits⟩
        · push Not at hadds
          exact (onShelf_view_le hadds _).trans (hbefore shelf hshelf)
      · rw [hafter]
        exact hbefore

/-! ## Assignments alone -/

/-- The request has locked the row of its shelf. -/
def holdsShelf : Stage → Prop
  | .shelfLocked => True
  | .moving _ _ => True
  | _ => False

/-- Every assignment has its shelf to itself, from the lock to the commit. -/
structure Exclusive (requests : ι → Assignment) (w : World ι (Store ι) Stage) : Prop where
  locked : ∀ i, holdsShelf (w.position i) → w.store.shelfLock (requests i).shelfId = some i
  single : ∀ i todo moves, w.position i = .moving todo moves → todo.length + moves.length ≤ 1
  room : ∀ i, ∀ m ∈ movesOf (w.position i), ∀ k, m.adds = some k → k = (requests i).shelfId ∧
    ∀ shelf ∈ w.store.db.shelves, shelf.id = k → onShelf w.store.db k < shelf.capacity

variable {requests : ι → Assignment} {w : World ι (Store ι) Stage} {i : ι}

/-- Another request keeps its shelf, whatever this one does. -/
theorem Advanced.keeps {call : Call} {store : Store ι} {stage : Stage} {x : Store ι × Stage}
    (h : Advanced call i store stage x) {j : ι} (hj : j ≠ i) {k : ℕ}
    (hlock : store.shelfLock k = some j) : x.1.shelfLock k = some j := by
  have hreleased : released store.shelfLock i k = some j := by
    rw [released, hlock]
    simp [hj]
  cases h with
  | failed e h => exact hreleased
  | committed hraises hunique => exact hreleased
  | locksShelf r h hfree =>
    dsimp only
    unfold taken
    split_ifs with hk
    · rw [List.mem_singleton.mp hk] at hlock
      exact absurd (hfree j hlock) hj
    · exact hlock
  | _ => exact hlock

/-- An assignment locks its shelf before it goes on. -/
theorem Advanced.locks {r : Assignment} {call : Call} (hcall : call.request = .assign r)
    {store : Store ι} {stage : Stage} {x : Store ι × Stage} (h : Advanced call i store stage x)
    (hlocked : holdsShelf stage → store.shelfLock r.shelfId = some i) (hholds : holdsShelf x.2) :
    x.1.shelfLock r.shelfId = some i := by
  cases h with
  | ended result => exact absurd hholds id
  | failed e h => exact absurd hholds id
  | committed hraises hunique => exact absurd hholds id
  | locksNoShelf r' h => exact nomatch hcall.symm.trans h
  | waitsForShelf => exact absurd hholds id
  | locksShelf r' h hfree =>
    obtain ⟨⟩ := hcall.symm.trans h
    exact if_pos (List.mem_singleton_self _)
  | waitsForBatteries => exact hlocked trivial
  | locksBatteries h => exact hlocked trivial
  | moves h => exact hlocked trivial

/-- An assignment moves one battery. -/
theorem Advanced.single {r : Assignment} {call : Call} (hcall : call.request = .assign r)
    {store : Store ι} {stage : Stage} {x : Store ι × Stage} (h : Advanced call i store stage x)
    (hsingle : ∀ todo moves, stage = .moving todo moves → todo.length + moves.length ≤ 1)
    {todo : List Battery} {moves : List Move} (hx : x.2 = .moving todo moves) :
    todo.length + moves.length ≤ 1 := by
  cases h with
  | @locksBatteries batteries h =>
    obtain ⟨rfl, rfl⟩ := Stage.moving.inj hx
    rw [hcall] at h
    obtain ⟨t, hfound, -⟩ := call_ok (Prod.ext h rfl)
    obtain ⟨_, _, -, hfound⟩ := bind_ok.mp hfound
    obtain ⟨_, _, -, hfound⟩ := bind_ok.mp hfound
    obtain ⟨rfl, -⟩ := pure_ok.mp hfound
    exact le_rfl
  | @moves b todo' done m h =>
    obtain ⟨rfl, rfl⟩ := Stage.moving.inj hx
    have hone := hsingle _ _ rfl
    rw [List.length_cons] at hone
    rw [List.length_append, List.length_singleton]
    omega
  | _ => cases hx

/-- What an assignment has moved has room on its shelf. -/
theorem Advanced.room {r : Assignment} {call : Call} (hcall : call.request = .assign r)
    {store : Store ι} {stage : Stage} {x : Store ι × Stage} (h : Advanced call i store stage x)
    (hsingle : ∀ todo moves, stage = .moving todo moves → todo.length + moves.length ≤ 1)
    {m : Move} (hm : m ∈ movesOf x.2) {k : ℕ} (hk : m.adds = some k) :
    k = r.shelfId ∧ ∀ shelf ∈ x.1.db.shelves, shelf.id = k → onShelf x.1.db k < shelf.capacity := by
  cases h with
  | @moves b todo done m' h =>
    have hone := hsingle _ _ rfl
    obtain rfl : done = [] := by
      rw [List.length_cons] at hone
      exact List.eq_nil_of_length_eq_zero (by omega)
    obtain rfl : m = m' := List.mem_singleton.mp hm
    rw [hcall] at h
    have hmove : moveBattery (.assign r) b (session store.db []) = (.ok m, _) := Prod.ext h rfl
    refine ⟨adds_assign hmove hk, fun shelf hshelf hid => ?_⟩
    obtain ⟨found, hget, hroom⟩ := moveBattery_room hmove hk
    have hworking : (session store.db []).working = store.db := rfl
    rw [hworking] at hget hroom
    obtain ⟨hfound, hkey⟩ := Table.get?_eq_some.mp hget
    obtain rfl := Table.eq_of_key hshelf hfound (hid.trans hkey.symm)
    exact hroom
  | _ => cases hm

/-- The commit of another assignment puts no row on the shelf of this one. -/
theorem Exclusive.onShelf_le (h : Exclusive requests w) {j : ι} (hj : j ≠ i)
    (hholds : holdsShelf (w.position j)) :
    onShelf (turn (next calls) w i).store.db (requests j).shelfId ≤
      onShelf w.store.db (requests j).shelfId := by
  rcases step_db calls w i with ⟨moves, hcommits, hdb⟩ | ⟨-, hdb⟩
  · rw [hdb]
    refine onShelf_view_le (fun m hm hk => hj ?_) _
    have hmoves : movesOf (w.position i) = moves := by
      rw [hcommits.moved]
      rfl
    have hown := (h.room i m (by rw [hmoves]; exact hm) _ hk).1
    have hlocked := h.locked i (by rw [hcommits.moved]; trivial)
    rw [← hown, h.locked j hholds] at hlocked
    exact Option.some.inj hlocked
  · rw [hdb]

theorem exclusive_turn (hcalls : ∀ i, (calls i).request = .assign (requests i))
    (h : Exclusive requests w) (i : ι) : Exclusive requests (turn (next calls) w i) := by
  have hstep := advanced (calls i) i w.store (w.position i)
  have hother : ∀ j, j ≠ i → (turn (next calls) w i).position j = w.position j :=
    fun j hj => turn_position_ne _ hj
  refine ⟨fun j hholds => ?_, fun j todo moves hmoving => ?_, fun j m hm k hk => ?_⟩
  · by_cases hj : j = i
    · subst hj
      rw [turn_position_self] at hholds
      exact hstep.locks (hcalls j) (h.locked j) hholds
    · rw [hother j hj] at hholds
      exact hstep.keeps hj (h.locked j hholds)
  · by_cases hj : j = i
    · subst hj
      rw [turn_position_self] at hmoving
      exact hstep.single (hcalls j) (h.single j) hmoving
    · rw [hother j hj] at hmoving
      exact h.single j todo moves hmoving
  · by_cases hj : j = i
    · subst hj
      rw [turn_position_self] at hm
      exact hstep.room (hcalls j) (h.single j) hm hk
    · rw [hother j hj] at hm
      obtain ⟨rfl, hroom⟩ := h.room j m hm k hk
      refine ⟨rfl, fun shelf hshelf hid => ?_⟩
      rw [shelves_turn] at hshelf
      have hholds : holdsShelf (w.position j) := by
        rcases hposition : w.position j with _ | _ | _ | _
        · rw [hposition] at hm
          cases hm
        · trivial
        · trivial
        · rw [hposition] at hm
          cases hm
      exact (h.onShelf_le hj hholds).trans_lt (hroom shelf hshelf hid)

theorem Exclusive.within_turn (hw : Exclusive requests w) (hwithin : WithinCapacity w.store.db) :
    WithinCapacity (turn (next calls) w i).store.db := by
  intro shelf hshelf
  rw [shelves_turn] at hshelf
  rcases step_db calls w i with ⟨moves, hcommits, hafter⟩ | ⟨-, hafter⟩
  · rw [hafter]
    by_cases hadds : ∃ m ∈ moves, m.adds = some shelf.id
    · obtain ⟨m, hm, hk⟩ := hadds
      have hmoves : movesOf (w.position i) = moves := by
        rw [hcommits.moved]
        rfl
      have hroom := (hw.room i m (by rw [hmoves]; exact hm) _ hk).2 shelf hshelf rfl
      have hlength := hw.single i _ _ hcommits.moved
      obtain rfl : moves = [m] := by
        rcases moves with _ | ⟨m', _ | ⟨m'', rest⟩⟩
        · cases hm
        · rw [List.mem_singleton.mp hm]
        · simp at hlength
      have hwrite := onShelf_write_le m w.store.db shelf.id
      rw [if_pos hk] at hwrite
      exact hwrite.trans hroom
    · push Not at hadds
      exact (onShelf_view_le hadds _).trans (hwithin shelf hshelf)
  · rw [hafter]
    exact hwithin shelf hshelf

/-- **Assignments alone keep the capacity**: the lock of the shelf orders them. -/
theorem assignments_keep (hcalls : ∀ i, (calls i).request = .assign (requests i))
    (hdb : WithinCapacity db) (os : List ι) :
    WithinCapacity (worldAfter calls db os).store.db := by
  have hstart : Exclusive requests (start db : World ι (Store ι) Stage) :=
    ⟨fun _ h => absurd h id, fun _ _ _ h => (nomatch h), fun _ _ h => (nomatch h)⟩
  have hstep : ∀ w i, Exclusive requests w ∧ WithinCapacity w.store.db →
      Exclusive requests (turn (next calls) w i) ∧
        WithinCapacity (turn (next calls) w i).store.db := fun w i ⟨hw, hwithin⟩ =>
    ⟨exclusive_turn hcalls hw i, hw.within_turn hwithin⟩
  exact (run_invariant hstep ⟨hstart, hdb⟩ os).2

end

/-! ## A request that runs alone -/

section

variable [Casing] {ι : Type} [DecidableEq ι]

theorem tentative_moveBattery (request : Request) (battery : Battery) :
    Tentative (moveBattery request battery) := by
  refine Tentative.bind ?_ fun p => readOnly_look.tentative.bind fun _ => ?_
  · cases request with
    | assign r => exact (readOnly_pure _).tentative
    | release r =>
      refine Tentative.bind ?_ fun b => readOnly_query.tentative.bind fun db => ?_
      · refine (readOnly_lift _).tentative.bind fun _ => (tentative_update _).bind fun _ => ?_
        exact (readOnly_pure _).tentative
      · exact (readOnly_lift _).tentative.bind fun _ => (readOnly_pure _).tentative
  · exact (tentative_applyBatteryTransition _ _ _).bind fun _ => (readOnly_pure _).tentative

def moveAll (request : Request) (batteries : List Battery) : FleetTx Unit := do
  batteries.forM fun b => do let _ ← moveBattery request b
  commitAll

theorem moveAll_cons (request : Request) (b : Battery) (todo : List Battery) :
    moveAll request (b :: todo) = (moveBattery request b >>= fun _ => moveAll request todo) := by
  unfold moveAll
  rw [List.forM_eq_forM, List.forM_cons, seq_assoc, seq_assoc]
  rfl

/-- The steps of a request, one after the other. -/
def alone (request : Request) (i : ι) (n : ℕ) (x : Store ι × Stage) : Store ι × Stage :=
  (fun x => proceed request i x.1 x.2)^[n] x

theorem alone_succ (request : Request) (i : ι) (n : ℕ) (store : Store ι) (stage : Stage) :
    alone request i (n + 1) (store, stage) = alone request i n (proceed request i store stage) :=
  Function.iterate_succ_apply _ _ _

theorem alone_ended (request : Request) (i : ι) (n : ℕ) (store : Store ι)
    (result : Except Exc Unit) :
    alone request i n (store, .ended result) = (store, .ended result) := by
  induction n with
  | zero => rfl
  | succ n ih => rw [alone_succ]; exact ih

/-- The request has ended with the result, and has left the tables. -/
def Leaves (x : Store ι × Stage) (result : Except Exc Unit) (db : Db) : Prop :=
  x.1.db = db ∧ x.2 = .ended result

theorem leaves_moveAll (request : Request) (i : ι) (todo : List Battery) (moves : List Move)
    (store : Store ι) :
    Leaves (alone request i (todo.length + 1) (store, .moving todo moves))
      (moveAll request todo (session store.db moves)).1
      (moveAll request todo (session store.db moves)).2.committed := by
  induction todo generalizing moves with
  | nil =>
    have hcommit := commitAll_eq (session store.db moves)
    have hprogram : moveAll request [] (session store.db moves) =
        commitAll (session store.db moves) := rfl
    have hunique : UniqueIndexes (session store.db moves).working ↔
        UniqueIndexes (view store.db moves) := Iff.rfl
    rw [hprogram, hcommit, List.length_nil, alone_succ]
    dsimp only [proceed]
    simp only [hunique]
    split_ifs
    · exact ⟨rfl, rfl⟩
    · exact ⟨rfl, rfl⟩
  | cons b todo ih =>
    rw [moveAll_cons, List.length_cons, alone_succ]
    dsimp only [proceed]
    rcases hmove : moveBattery request b (session store.db moves) with ⟨e | m, t⟩
    · have hcommitted : t.committed = store.db := (tentative_moveBattery _ _).eq hmove
      rw [bind_of_error hmove]
      dsimp only
      rw [endAs, alone_ended]
      exact ⟨hcommitted.symm, rfl⟩
    · have hwritten := moveBattery_written hmove
      have hsession : t = session store.db (moves ++ [m]) := by
        rw [hwritten, session, session, view_append]
      rw [bind_of_ok hmove, hsession]
      exact ih (moves ++ [m])

/-- What `assign_battery_to_shelf` does once it has checked the battery. -/
def assignTo (r : Assignment) (shelf : Shelf) (battery : Battery) : FleetTx ShelfResponse :=
  handle (do
      let _ ← applyBatteryTransition r.now battery
        (shelfTransition r.name r.shelfId r.currentUserId battery)
      let db ← query
      commitAll
      return {
        id := shelf.id, name := r.name r.shelfId, capacity := shelf.capacity
        batteryIds := (db.shelfBatteries.filter fun x => x.shelfId = r.shelfId).map
          ShelfBattery.batteryId })
    fun e => rollback >>= fun _ => raise (assignmentConflict e)

/-- The program answers, or has left the tables alone. -/
def Answers {α : Type} (x : Except Exc α × Db) (y : Except Exc Unit × Db) : Prop :=
  x.2 = y.2 ∧ ((∃ a, x.1 = .ok a) ↔ y.1 = .ok ())

theorem answers_assignTo (r : Assignment) (shelf : Shelf) (battery : Battery) (db : Db) :
    Answers ((assignTo r shelf battery).call db) ((moveAll (.assign r) [battery]).call db) := by
  have hnil : moveAll (.assign r) [] = commitAll := rfl
  rw [moveAll_cons, hnil]
  rcases htrans : applyBatteryTransition r.now battery
    (shelfTransition r.name r.shelfId r.currentUserId battery) (.fresh db) with ⟨e | b', t⟩
  · have hmove : moveBattery (.assign r) battery (.fresh db) = (.error e, t) :=
      bind_of_error (x := applyBatteryTransition _ _ _) htrans
    have hassign : assignTo r shelf battery (.fresh db) =
        (.error (assignmentConflict e), ⟨t.committed, t.committed⟩) :=
      handle_of_error (bind_of_error htrans)
    rw [call_eq hassign, call_eq (bind_of_error hmove)]
    exact ⟨rfl, iff_of_false (by rintro ⟨_, h⟩; cases h) (by rintro ⟨⟩)⟩
  · obtain ⟨m, hmove⟩ : ∃ m, moveBattery (.assign r) battery (.fresh db) = (.ok m, t) :=
      ⟨_, bind_of_ok (x := applyBatteryTransition _ _ _) htrans⟩
    have hcommit := commitAll_eq t
    split_ifs at hcommit with hu
    · have hquery : query t = (.ok t.working, t) := query_ok.mpr ⟨hu, rfl, rfl⟩
      have hassign : assignTo r shelf battery (.fresh db) = (.ok _, ⟨t.working, t.working⟩) :=
        handle_of_ok ((bind_of_ok htrans).trans ((bind_of_ok hquery).trans
          ((bind_of_ok hcommit).trans rfl)))
      rw [call_eq hassign, call_eq ((bind_of_ok hmove).trans hcommit)]
      exact ⟨rfl, iff_of_true ⟨_, rfl⟩ rfl⟩
    · have hquery : query t = (.error .integrityError, t) := by
        refine bind_of_error ?_
        show (look >>= fun db => ensure (UniqueIndexes db) Exc.integrityError) t = _
        rw [look_bind, ensure, if_neg hu]
        rfl
      have hassign : assignTo r shelf battery (.fresh db) =
          (.error (assignmentConflict .integrityError), ⟨t.committed, t.committed⟩) :=
        handle_of_error ((bind_of_ok htrans).trans (bind_of_error hquery))
      rw [call_eq hassign, call_eq ((bind_of_ok hmove).trans hcommit)]
      exact ⟨rfl, iff_of_false (by rintro ⟨_, h⟩; cases h) (by rintro ⟨⟩)⟩

omit [Casing] in
theorem readOnly_findShelf (shelfId : ℕ) : ReadOnly (findShelf shelfId) := by
  refine readOnly_query.bind fun _ => (readOnly_demand _ _).bind fun _ => ?_
  exact (readOnly_demand _ _).bind fun _ => (readOnly_ensure _ _).bind fun _ => readOnly_pure _

theorem readOnly_findBattery (batteryId : String) : ReadOnly (findBattery batteryId) := by
  refine (readOnly_lift _).bind fun _ => ReadOnly.bind ?_ fun _ =>
    (readOnly_demand _ _).bind fun _ => readOnly_pure _
  refine (readOnly_lift _).bind fun _ => readOnly_query.bind fun _ => ?_
  exact (readOnly_ensure _ _).bind fun _ => readOnly_pure _

theorem readOnly_checkAssignable (shelfId warehouseId : ℕ) (serial : String) (battery : Battery) :
    ReadOnly (checkAssignable shelfId warehouseId serial battery) := by
  refine (readOnly_ensure _ _).bind fun _ => ?_
  split_ifs
  · exact readOnly_ensure _ _
  · exact readOnly_query.bind fun _ => (readOnly_ensure _ _).bind fun _ => readOnly_ensure _ _
  · exact readOnly_raise _

/-- A request that has ended answers as the program does. -/
def EndsLike {α : Type} (x : Store ι × Stage) (y : Except Exc α × Db) : Prop :=
  ∃ result, x.2 = .ended result ∧ Answers y (result, x.1.db)

theorem endsLike_refused {α : Type} (request : Request) (i : ι) (n : ℕ) (store : Store ι)
    (e e' : Exc) : EndsLike (alone request i n (endAs i store (.error e)))
      ((.error e' : Except Exc α), store.db) := by
  unfold endAs
  rw [alone_ended]
  exact ⟨_, rfl, rfl, iff_of_false (by rintro ⟨_, h⟩; cases h) (by rintro ⟨⟩)⟩

theorem endsLike_shelfLocked (r : Assignment) (i : ι) (store : Store ι)
    (hfree : store.batteryLock = fun _ => none) :
    EndsLike (alone (.assign r) i 3 (store, .shelfLocked))
      ((findShelf r.shelfId >>= fun shelf => findBattery r.batteryId >>= fun found =>
        checkAssignable r.shelfId shelf.2 found.1 found.2 >>= fun _ =>
          assignTo r shelf.1 found.2).call store.db) := by
  rw [alone_succ]
  dsimp only [proceed]
  unfold lockBatteries
  rcases hshelf : findShelf r.shelfId (.fresh store.db) with ⟨e | shelf, s⟩
  · obtain rfl := (readOnly_findShelf _).eq hshelf
    have hfind : findBatteries (.assign r) (.fresh store.db) = (.error e, .fresh store.db) :=
      bind_of_error hshelf
    rw [call_eq (bind_of_error hshelf), call_eq hfind]
    exact endsLike_refused _ _ _ _ _ _
  obtain rfl := (readOnly_findShelf _).eq hshelf
  rcases hbattery : findBattery r.batteryId (.fresh store.db) with ⟨e | found, s⟩
  · obtain rfl := (readOnly_findBattery _).eq hbattery
    have hfind : findBatteries (.assign r) (.fresh store.db) = (.error e, .fresh store.db) :=
      (bind_of_ok hshelf).trans (bind_of_error hbattery)
    rw [call_eq ((bind_of_ok hshelf).trans (bind_of_error hbattery)), call_eq hfind]
    exact endsLike_refused _ _ _ _ _ _
  obtain rfl := (readOnly_findBattery _).eq hbattery
  have hfind : findBatteries (.assign r) (.fresh store.db) = (.ok [found.2], .fresh store.db) :=
    (bind_of_ok hshelf).trans ((bind_of_ok hbattery).trans rfl)
  have hserial : normalizeBatterySerial r.batteryId = .ok found.1 := by
    obtain ⟨serial, _, hserial, hrest⟩ := bind_ok.mp hbattery
    obtain ⟨hnormal, rfl⟩ := lift_ok.mp hserial
    obtain ⟨_, _, -, hrest⟩ := bind_ok.mp hrest
    obtain ⟨_, _, -, hrest⟩ := bind_ok.mp hrest
    obtain ⟨rfl, -⟩ := pure_ok.mp hrest
    exact hnormal
  have hlocks : ∀ b ∈ [found.2], Free store.batteryLock i b.id := by
    intro b _ j hj
    rw [hfree] at hj
    cases hj
  rw [call_eq hfind]
  dsimp only
  rw [if_pos hlocks]
  rcases hcheck : checkAssignable r.shelfId shelf.2 found.1 found.2 (.fresh store.db) with
    ⟨e | u, s⟩
  · obtain rfl := (readOnly_checkAssignable _ _ _ _).eq hcheck
    have hchecks : checkBatteries (.assign r) [found.2] (.fresh store.db) =
        (.error e, .fresh store.db) :=
      (bind_of_ok hshelf).trans ((lift_bind hserial _ _).trans (bind_of_error hcheck))
    rw [call_eq ((bind_of_ok hshelf).trans ((bind_of_ok hbattery).trans (bind_of_error hcheck))),
      call_eq hchecks]
    exact endsLike_refused _ _ _ _ _ _
  · obtain rfl := (readOnly_checkAssignable _ _ _ _).eq hcheck
    have hchecks : checkBatteries (.assign r) [found.2] (.fresh store.db) =
        (.ok (), .fresh store.db) :=
      (bind_of_ok hshelf).trans ((lift_bind hserial _ _).trans ((bind_of_ok hcheck).trans rfl))
    have hprogram : (findShelf r.shelfId >>= fun shelf => findBattery r.batteryId >>= fun found =>
        checkAssignable r.shelfId shelf.2 found.1 found.2 >>= fun _ =>
          assignTo r shelf.1 found.2).call store.db = (assignTo r shelf.1 found.2).call store.db :=
      call_eq ((bind_of_ok hshelf).trans ((bind_of_ok hbattery).trans (bind_of_ok hcheck)))
    rw [hprogram, call_eq hchecks]
    obtain ⟨hdb, hended⟩ := leaves_moveAll (.assign r) i [found.2] [] { store with
      batteryLock := taken store.batteryLock i ([found.2].map Battery.id) }
    have hanswers := answers_assignTo r shelf.1 found.2 store.db
    refine ⟨_, hended, ?_⟩
    exact hdb ▸ hanswers

/-- **An assignment that runs alone** is the program. -/
theorem assign_alone (r : Assignment) (i : ι) (db : Db) :
    EndsLike (alone (.assign r) i 4 ({ db }, .called))
      ((assignBatteryToShelf r.now r.name r.shelfId r.batteryId r.currentUserId).call db) := by
  have hprogram : assignBatteryToShelf r.now r.name r.shelfId r.batteryId r.currentUserId =
      (findShelf r.shelfId >>= fun shelf => findBattery r.batteryId >>= fun found =>
        checkAssignable r.shelfId shelf.2 found.1 found.2 >>= fun _ =>
          assignTo r shelf.1 found.2) := rfl
  rw [hprogram, alone_succ]
  dsimp only [proceed]
  unfold lockShelf
  dsimp only
  rcases hget : db.shelves.get? r.shelfId with _ | shelf
  · rcases hshelf : findShelf r.shelfId (.fresh db) with ⟨e | found, s⟩
    · rw [call_eq (bind_of_error hshelf), (readOnly_findShelf _).eq hshelf]
      exact endsLike_refused _ _ _ _ _ _
    · simp only [findShelf, bind_ok, query_ok, demand_ok] at hshelf
      obtain ⟨_, _, ⟨-, rfl, rfl⟩, shelf, _, ⟨hsome, -⟩, -⟩ := hshelf
      exact absurd (hget.symm.trans hsome) (by simp)
  · have hfree : Free (fun _ => none) i r.shelfId := by
      intro j hj
      cases hj
    dsimp only
    rw [if_pos hfree]
    exact endsLike_shelfLocked r i _ rfl

end

/-! ## The last place on a shelf -/

def failing : Order where
  id := "ORD-1"
  status := "failed"
  destination := "Depot"
  orderDate := 5
  updatedAt := 20

/-- A shelf with one place, a battery beside it, and one that was dispatched from it. -/
def lastPlace : Db where
  batteries := ⟨[{ id := 1, serialNumber := "B1", locationId := some 1 },
    { id := 2, serialNumber := "B2", status := .deployed, locationType := some .transit
      locationId := none }], by decide⟩
  warehouses := ⟨[{ id := 1 }], List.nodup_singleton _⟩
  racks := ⟨[{ id := 1, warehouseId := 1 }], List.nodup_singleton _⟩
  shelves := ⟨[{ id := 1, rackId := 1, capacity := 1 }], List.nodup_singleton _⟩
  orders := ⟨[{ failing with status := "in_transit" }], List.nodup_singleton _⟩
  orderBatteries := ⟨[⟨1, "ORD-1", "B2", some 2⟩], List.nodup_singleton _⟩
  batteryLifecycleEvents := ⟨[{
    id := 1, batteryId := 2, eventType := "dispatched", actorId := none, timestamp := 10
    description := some (buildDispatchEventDescription "ORD-1" .shelf (some 1)) }],
    List.nodup_singleton _⟩

/-- The first battery is assigned to the shelf while the second one's order fails. -/
def assignAndRelease (i : Bool) : Call where
  request := if i then .release { now := 20, order := failing, newStatus := "failed" }
    else .assign ⟨20, fun _ => "A1", 1, "b1", 1⟩

/-- Both count before either commits. -/
def countThenCommit : List Bool := [false, false, false, true, true, true, false, true]

end WezuBackend.Warehouse.ShelfCapacity
