import WezuBackend.Core.Calendar
import Mathlib.Data.List.Sort
import Mathlib.Data.Rat.Floor

/-!
# Routes of a driver

`app/services/route_service.py`: the stops of a driver in the order that the directions service
answers with.  The service's `waypoint_order` is used to index the list of the orders, and only its
length is compared with the number of legs.  So the route visits each order once exactly if the
indices are a permutation (`route_visits_iff`); a route without directions always does.

What raises inside of the call ends it without a route; it is `none` here.
-/

namespace WezuBackend.Orders.Routes

open Lib.Tables Core.Calendar

/-! ## Data -/

/-- A latitude and a longitude. -/
abbrev Point : Type := ℚ × ℚ

structure Order where
  id : String
  status : String := "pending"
  destination : String
  latitude : Option ℚ := none
  longitude : Option ℚ := none
  deriving DecidableEq, Repr

instance : Row Order String := ⟨Order.id⟩

structure DriverProfile where
  id : ℕ
  deriving DecidableEq, Repr

instance : Row DriverProfile ℕ := ⟨DriverProfile.id⟩

structure Db where
  drivers : Table DriverProfile := .empty
  orders : Table Order := .empty

abbrev Stop : Type := Order × Point

structure Leg where
  /-- `int(leg.get("duration_seconds", 0))` -/
  durationSeconds : Option ℤ := some 0

/-- What the directions service answers; `waypoint_order` may be missing. -/
structure Directions where
  legs : List Leg := []
  waypointOrder : Option (List ℤ) := none
  polyline : String := ""
  distanceMeters : Option ℤ := some 0
  durationSeconds : Option ℤ := some 0
  trafficCongestionLevel : String := "moderate"

/-- The answers of the maps, and the distance of two points. -/
structure Maps where
  geocodeAddress : String → Option Point
  /-- for the origin, the destination and the waypoints; it may raise, or answer with `None` -/
  getDirections : Point → Point → List Point → Option (Option Directions)
  haversineMeters : Point → Point → Option ℚ

structure Waypoint where
  sequenceIndex : ℕ
  orderId : String
  location : Point
  estimatedArrival : ℤ
  deriving DecidableEq, Repr

structure Route where
  id : String
  waypoints : List Waypoint
  polyline : String
  distanceMeters : ℤ
  durationSeconds : ℤ
  trafficCongestionLevel : String
  deriving DecidableEq, Repr

inductive RouteOptimizationInputError where
  | noOrders
  | duplicates
  | startLocation
  | driver (driverId : ℕ)
  | noneFound
  | notFound (orderIds : List String)
  | statuses (orderIds : List String)
  | unresolved (orderIds : List String)
  deriving DecidableEq, Repr

/-- The text of the error, by the `repr` of a list. -/
def RouteOptimizationInputError.message (listRepr : List String → String) :
    RouteOptimizationInputError → String
  | .noOrders => "No order IDs provided"
  | .duplicates => "Duplicate order IDs are not allowed"
  | .startLocation => "start_location must include lat/lng keys"
  | .driver driverId => "Driver '" ++ toString driverId ++ "' not found"
  | .noneFound => "None of the requested orders were found"
  | .notFound orderIds => "Orders not found: " ++ listRepr orderIds
  | .statuses orderIds =>
    "Orders must be pending/in_transit for route optimization: " ++ listRepr orderIds
  | .unresolved orderIds =>
    "Missing coordinates for orders (and geocoding failed): " ++ listRepr orderIds

/-! ## The orders -/

def routableOrderStatuses : List String := ["pending", "in_transit"]

def getOrGeocodeOrderLocation (maps : Maps) (order : Order) : Option Stop :=
  match order.latitude, order.longitude with
  | some latitude, some longitude => some (order, latitude, longitude)
  | _, _ =>
    if order.destination = "" then none
    else (maps.geocodeAddress order.destination).map fun point =>
      ({ order with latitude := some point.1, longitude := some point.2 }, point)

/-- `sorted(texts)`. -/
def sorted (texts : List String) : List String := texts.mergeSort fun a b => a ≤ b

/-- The requested orders with their coordinates. -/
def locateOrders (maps : Maps) (orderIds : List String) (db : Db) :
    Except RouteOptimizationInputError (List Stop) :=
  let orders := db.orders.filter fun order => order.id ∈ orderIds
  let missing := orderIds.filter fun orderId => db.orders.get? orderId = none
  let invalid := orders.filter fun order => order.status ∉ routableOrderStatuses
  let ordered := orderIds.filterMap db.orders.get?
  let unresolved := ordered.filter fun order => getOrGeocodeOrderLocation maps order = none
  if orders = [] then .error .noneFound
  else if missing ≠ [] then .error (.notFound (sorted missing))
  else if invalid ≠ [] then .error (.statuses (sorted (invalid.map Order.id)))
  else if unresolved ≠ [] then .error (.unresolved (sorted (unresolved.map Order.id)))
  else .ok (ordered.filterMap (getOrGeocodeOrderLocation maps))

/-- Coordinates that were found are written. -/
def saveLocations (stops : List Stop) (db : Db) : Db :=
  { db with orders := stops.foldl (fun orders stop => orders.set stop.1) db.orders }

/-! ## The stops -/

/-- `int(number)`. -/
def truncate (number : ℚ) : ℤ := if 0 ≤ number then ⌊number⌋ else ⌈number⌉

/-- The loop over the orders of a route without directions; with it the distance and the duration
come to. -/
def fallbackStops (maps : Maps) (now : ℤ) : ℕ → Point → ℤ → ℤ → List Stop →
    Option (List Waypoint × ℤ × ℤ)
  | _, _, distance, duration, [] => some ([], distance, duration)
  | i, previous, distance, duration, (order, point) :: stops => do
    let legDistance := truncate (← maps.haversineMeters previous point)
    let legDuration := max (truncate (legDistance / (833 / 100))) 60
    let arrival ← later now (duration + legDuration)
    let (waypoints, total) ← fallbackStops maps now (i + 1) point (distance + legDistance)
      (duration + legDuration) stops
    return (⟨i, order.id, point, arrival⟩ :: waypoints, total)

def buildFallbackRoute (maps : Maps) (now : ℤ) (routeId : String) (origin : Point)
    (stops : List Stop) : Option Route := do
  let (waypoints, distance, duration) ← fallbackStops maps now 0 origin 0 0 stops
  return ⟨routeId, waypoints, "", distance, duration, "low"⟩

/-- Where an index leads in a list of `n` entries; a negative one is counted from the end. -/
def wrap (n : ℕ) (index : ℤ) : ℕ := if 0 ≤ index then index.toNat else (n + index).toNat

/-- `entries[index]`. -/
def entryAt {α : Type} (entries : List α) (index : ℤ) : Option α :=
  if -entries.length ≤ index then entries[wrap entries.length index]? else none

/-- The loop over the stops in their order, each with its leg. -/
def visitStops (now : ℤ) (stops : List Stop) : ℕ → ℤ → List (ℤ × Leg) → Option (List Waypoint)
  | _, _, [] => some []
  | i, duration, (index, leg) :: rest => do
    let legDuration ← leg.durationSeconds
    let (order, point) ← entryAt stops index
    let arrival ← later now (duration + legDuration)
    let waypoints ← visitStops now stops (i + 1) (duration + legDuration) rest
    return ⟨i, order.id, point, arrival⟩ :: waypoints

/-- The indices of all stops but the last one. -/
def waypointIndices (directions : Directions) (n : ℕ) : List ℤ :=
  directions.waypointOrder.getD ((List.range (n - 1)).map Nat.cast)

/-- The stops by the legs of the directions; with another number of legs there are none. -/
def directedStops (now : ℤ) (stops : List Stop) (directions : Directions) :
    Option (Option (List Waypoint)) :=
  match stops, directions.legs with
  | [(order, point)], leg :: _ => do
    let duration ← leg.durationSeconds
    let arrival ← later now duration
    return some [⟨0, order.id, point, arrival⟩]
  | stops, legs =>
    let indices := waypointIndices directions stops.length ++ [(stops.length : ℤ) - 1]
    if indices.length ≠ legs.length then some none
    else (visitStops now stops 0 0 (indices.zip legs)).map some

def askDirections (maps : Maps) (origin : Point) (stops : List Stop) :
    Option (Option Directions) := do
  let destination ← (stops.map Prod.snd).getLast?
  maps.getDirections origin destination (stops.map Prod.snd).dropLast

/-- The part of `optimize_driver_route` after the commit. -/
def planRoute (maps : Maps) (now : ℤ) (routeId : String) (origin : Point) (stops : List Stop) :
    Option Route := do
  match ← askDirections maps origin stops with
  | none => buildFallbackRoute maps now routeId origin stops
  | some directions =>
    if directions.legs.isEmpty then buildFallbackRoute maps now routeId origin stops
    else
      match ← directedStops now stops directions with
      | none => buildFallbackRoute maps now routeId origin stops
      | some waypoints =>
        let distance ← directions.distanceMeters
        let duration ← directions.durationSeconds
        return ⟨routeId, waypoints, directions.polyline, distance, duration,
          directions.trafficCongestionLevel⟩

/-- A call: its arguments, the id of the route, and the clock. -/
structure Call where
  driverId : ℕ
  lat : Option ℚ
  lng : Option ℚ
  orderIds : List String
  routeId : String
  now : ℤ

def optimizeDriverRoute (maps : Maps) (call : Call) (db : Db) :
    Except RouteOptimizationInputError (Option Route) × Db :=
  if call.orderIds = [] then (.error .noOrders, db)
  else if ¬ call.orderIds.Nodup then (.error .duplicates, db)
  else
    match call.lat, call.lng with
    | some lat, some lng =>
      if db.drivers.get? call.driverId = none then (.error (.driver call.driverId), db)
      else
        match locateOrders maps call.orderIds db with
        | .error e => (.error e, db)
        | .ok stops =>
          (.ok (planRoute maps call.now call.routeId (lat, lng) stops), saveLocations stops db)
    | _, _ => (.error .startLocation, db)

/-! ## What a route is for -/

/-- The arrivals do not go back in time. -/
def Timely (waypoints : List Waypoint) : Prop :=
  (waypoints.map Waypoint.estimatedArrival).Pairwise (· ≤ ·)

def Answered (maps : Maps) (call : Call) (db : Db) (directions : Directions) : Prop :=
  ∃ lat lng stops, call.lat = some lat ∧ call.lng = some lng ∧
    locateOrders maps call.orderIds db = .ok stops ∧
    askDirections maps (lat, lng) stops = some (some directions)

/-- No leg takes less than no time. -/
def LegsForward (directions : Directions) : Prop :=
  ∀ leg ∈ directions.legs, ∀ duration ∈ leg.durationSeconds, 0 ≤ duration

/-- The route visits each order that was requested once. -/
structure Served (maps : Maps) (call : Call) (db : Db) (route : Route) : Prop where
  once : (route.waypoints.map Waypoint.orderId).Perm call.orderIds
  indices : route.waypoints.map Waypoint.sequenceIndex = List.range call.orderIds.length
  timely : (∀ directions, Answered maps call db directions → LegsForward directions) →
    Timely route.waypoints

/-- A `waypoint_order` of the length that the legs ask for is a permutation of all stops but the
last one. -/
def Permutes (n : ℕ) (directions : Directions) : Prop :=
  2 ≤ n → ∀ indices ∈ directions.waypointOrder, directions.legs.length = indices.length + 1 →
    (indices.map (wrap n)).Perm (List.range (n - 1))

/-! ## The stops one after the other -/

/-- The arrivals come after `start`, one after the other. -/
def Follows (start : ℤ) (waypoints : List Waypoint) : Prop :=
  (start :: waypoints.map Waypoint.estimatedArrival).Pairwise (· ≤ ·)

variable {waypoints : List Waypoint}

variable {start : ℤ}

theorem Follows.cons {w : Waypoint}
    (hle : start ≤ w.estimatedArrival) (h : Follows w.estimatedArrival waypoints) :
    Follows start (w :: waypoints) := by
  refine List.pairwise_cons.mpr ⟨fun t ht => ?_, h⟩
  rcases List.mem_cons.mp ht with rfl | ht
  · exact hle
  · exact hle.trans ((List.pairwise_cons.mp h).1 t ht)

theorem Follows.timely (h : Follows start waypoints) :
    Timely waypoints := (List.pairwise_cons.mp h).2

theorem follows_nil (start : ℤ) : Follows start [] := List.pairwise_singleton _ _

variable {now : ℤ} {stops : List Stop}

variable {i : ℕ}

theorem fallbackStops_spec {maps : Maps} {previous : Point} {distance duration : ℤ} {total : ℤ × ℤ}
    (h : fallbackStops maps now i previous distance duration stops = some (waypoints, total)) :
    waypoints.map Waypoint.orderId = stops.map (fun stop => stop.1.id) ∧
      waypoints.map Waypoint.sequenceIndex = List.range' i stops.length ∧
      Follows (now + duration * second) waypoints := by
  induction stops generalizing i previous distance duration waypoints total with
  | nil =>
    obtain ⟨rfl, -⟩ := Prod.mk.inj (Option.some.inj h)
    exact ⟨rfl, rfl, follows_nil _⟩
  | cons stop stops ih =>
    obtain ⟨order, point⟩ := stop
    simp only [fallbackStops, Option.bind_eq_bind, Option.bind_eq_some_iff] at h
    obtain ⟨meters, -, arrival, harrival, ⟨rest, total'⟩, hrest, h⟩ := h
    obtain ⟨rfl, rfl⟩ := Prod.mk.inj (Option.some.inj h)
    obtain ⟨hids, hindices, hfollows⟩ := ih hrest
    have htime := later_eq_some harrival
    refine ⟨congrArg (order.id :: ·) hids, congrArg (i :: ·) hindices, .cons ?_ (htime ▸ hfollows)⟩
    dsimp only
    rw [htime]
    have hmin := le_max_right (truncate (truncate meters / (833 / 100))) 60
    unfold second
    omega

theorem visitStops_spec {duration : ℤ} {legs : List (ℤ × Leg)}
    (h : visitStops now stops i duration legs = some waypoints) :
    waypoints.map (fun w => some w.orderId) =
        legs.map (fun leg => (entryAt stops leg.1).map fun stop => stop.1.id) ∧
      waypoints.map Waypoint.sequenceIndex = List.range' i legs.length ∧
      ((∀ leg ∈ legs, ∀ d ∈ leg.2.durationSeconds, 0 ≤ d) →
        Follows (now + duration * second) waypoints) := by
  induction legs generalizing i duration waypoints with
  | nil =>
    obtain rfl := Option.some.inj h
    exact ⟨rfl, rfl, fun _ => follows_nil _⟩
  | cons leg legs ih =>
    obtain ⟨index, leg⟩ := leg
    simp only [visitStops, Option.bind_eq_bind, Option.bind_eq_some_iff] at h
    obtain ⟨d, hd, ⟨order, point⟩, hentry, arrival, harrival, rest, hrest, h⟩ := h
    obtain rfl := Option.some.inj h
    obtain ⟨hids, hindices, hfollows⟩ := ih hrest
    have htime := later_eq_some harrival
    refine ⟨?_, congrArg (i :: ·) hindices, fun hforward => ?_⟩
    · rw [List.map_cons, List.map_cons, hids, hentry]
      rfl
    · obtain ⟨hfirst, hlegs⟩ := List.forall_mem_cons.mp hforward
      refine .cons ?_ (htime ▸ hfollows hlegs)
      have hpos := hfirst d hd
      dsimp only
      rw [htime]
      unfold second
      omega

/-! ## Indices -/

theorem entryAt_eq_some {α : Type} {entries : List α} {index : ℤ} {x : α}
    (h : entryAt entries index = some x) : entries[wrap entries.length index]? = some x := by
  unfold entryAt at h
  split_ifs at h
  exact h

theorem wrap_natCast (n k : ℕ) : wrap n k = k := by
  unfold wrap
  rw [if_pos (Int.natCast_nonneg k), Int.toNat_natCast]

theorem map_getElem?_range {α : Type} (l : List α) :
    (List.range l.length).map (fun k => l[k]?) = l.map some := by
  refine List.ext_getElem (by simp) fun k hk hk' => ?_
  simp

/-- **Each entry is visited once** exactly if the indices are a permutation. -/
theorem visited_perm_iff {ids visited : List String} {indices : List ℕ} (hids : ids.Nodup)
    (h : visited.map some = indices.map fun k => ids[k]?) :
    visited.Perm ids ↔ indices.Perm (List.range ids.length) := by
  constructor
  · intro hperm
    have hnodup : indices.Nodup := by
      have hvisited := (hperm.nodup_iff.mpr hids).map (Option.some_injective _)
      rw [h] at hvisited
      exact hvisited.of_map
    have hlt : indices ⊆ List.range ids.length := by
      intro k hk
      have hmem : ids[k]? ∈ visited.map some := h ▸ List.mem_map_of_mem hk
      obtain ⟨x, -, hx⟩ := List.mem_map.mp hmem
      obtain ⟨hk', -⟩ := List.getElem?_eq_some_iff.mp hx.symm
      exact List.mem_range.mpr hk'
    have hlen := congrArg List.length h
    rw [List.length_map, List.length_map, hperm.length_eq] at hlen
    refine (List.subperm_of_subset hnodup hlt).perm_of_length_le ?_
    rw [List.length_range, hlen]
  · intro hperm
    have hmap := hperm.map fun k => ids[k]?
    rw [← h, map_getElem?_range] at hmap
    exact (List.map_perm_map_iff (Option.some_injective _)).mp hmap

theorem visited_ids (stops : List Stop) (indices : List ℤ) (visited : List String)
    (h : visited.map some = indices.map fun i => (entryAt stops i).map fun stop => stop.1.id) :
    visited.map some = (indices.map (wrap stops.length)).map fun k =>
      (stops.map fun stop => stop.1.id)[k]? := by
  rw [h, List.map_map]
  refine List.map_congr_left fun i hi => ?_
  have hmem : (entryAt stops i).map (fun stop => stop.1.id) ∈ visited.map some :=
    h ▸ List.mem_map_of_mem hi
  obtain ⟨orderId, -, horder⟩ := List.mem_map.mp hmem
  obtain ⟨stop, hstop, -⟩ := Option.map_eq_some_iff.mp horder.symm
  rw [hstop, Function.comp_apply, List.getElem?_map, entryAt_eq_some hstop]

variable {n : ℕ}

theorem append_last_perm_iff (hn : 1 ≤ n) (indices : List ℤ) :
    ((indices ++ [(n : ℤ) - 1]).map (wrap n)).Perm (List.range n) ↔
      (indices.map (wrap n)).Perm (List.range (n - 1)) := by
  obtain ⟨m, rfl⟩ : ∃ m, n = m + 1 := ⟨n - 1, by omega⟩
  have hlast : wrap (m + 1) ((m + 1 : ℕ) - 1 : ℤ) = m := by
    have hcast : ((m + 1 : ℕ) - 1 : ℤ) = (m : ℤ) := by omega
    rw [hcast, wrap_natCast]
  rw [List.map_append, List.map_singleton, hlast, List.range_succ, Nat.add_sub_cancel]
  exact List.perm_append_right_iff _

variable {directions : Directions}

/-- Without a `waypoint_order` the stops are visited in the order of the request. -/
theorem permutes_iff (hn : 2 ≤ n)
    (hlegs : directions.legs.length = (waypointIndices directions n).length + 1) :
    Permutes n directions ↔
      ((waypointIndices directions n).map (wrap n)).Perm (List.range (n - 1)) := by
  unfold Permutes waypointIndices at *
  rcases horder : directions.waypointOrder with _ | indices
  · refine iff_of_true (fun _ indices hmem => by cases hmem) ?_
    rw [Option.getD_none, List.map_map]
    have hsame : (List.range (n - 1)).map (wrap n ∘ Nat.cast) = List.range (n - 1) := by
      conv_rhs => rw [← List.map_id (List.range (n - 1))]
      exact List.map_congr_left fun k _ => wrap_natCast n k
    rw [hsame]
  · rw [horder, Option.getD_some] at hlegs
    rw [Option.getD_some]
    constructor
    · exact fun h => h hn indices rfl hlegs
    · rintro h - _ ⟨⟩ -
      exact h

/-! ## The orders -/

theorem map_filterMap_of_some {α β γ : Type} {f : α → Option β} {g : β → γ} {k : α → γ}
    {l : List α} (h : ∀ x ∈ l, ∃ y, f x = some y ∧ g y = k x) :
    (l.filterMap f).map g = l.map k := by
  induction l with
  | nil => rfl
  | cons x l ih =>
    obtain ⟨⟨y, hy, hg⟩, hl⟩ := List.forall_mem_cons.mp h
    rw [List.filterMap_cons_some hy, List.map_cons, List.map_cons, ih hl, hg]

theorem id_of_location {maps : Maps} {order : Order} {stop : Stop}
    (h : getOrGeocodeOrderLocation maps order = some stop) : stop.1.id = order.id := by
  unfold getOrGeocodeOrderLocation at h
  split at h
  · obtain rfl := Option.some.inj h
    rfl
  · split_ifs at h
    obtain ⟨point, -, rfl⟩ := Option.map_eq_some_iff.mp h
    rfl

/-- **The stops are the requested orders** in the order of the request. -/
theorem locateOrders_ids {maps : Maps} {orderIds : List String} {db : Db}
    (h : locateOrders maps orderIds db = .ok stops) :
    stops.map (fun stop => stop.1.id) = orderIds := by
  simp only [locateOrders] at h
  split_ifs at h with hnone hmissing hinvalid hunresolved
  obtain rfl := Except.ok.inj h
  rw [not_not, List.filter_eq_nil_iff] at hmissing hunresolved
  have hfound : ∀ orderId ∈ orderIds, ∃ order, db.orders.get? orderId = some order ∧
      order.id = orderId := by
    intro orderId hmem
    have hsome := hmissing orderId hmem
    rw [decide_eq_true_eq] at hsome
    obtain ⟨order, horder⟩ := Option.ne_none_iff_exists'.mp hsome
    exact ⟨order, horder, (Table.get?_eq_some.mp horder).2⟩
  have hlocated : ∀ order ∈ orderIds.filterMap db.orders.get?, ∃ stop,
      getOrGeocodeOrderLocation maps order = some stop ∧ stop.1.id = order.id := by
    intro order hmem
    have hsome := hunresolved order hmem
    rw [decide_eq_true_eq] at hsome
    obtain ⟨stop, hstop⟩ := Option.ne_none_iff_exists'.mp hsome
    exact ⟨stop, hstop, id_of_location hstop⟩
  rw [map_filterMap_of_some hlocated, map_filterMap_of_some hfound, List.map_id']

/-! ## The call -/

theorem optimize_ok {maps : Maps} {call : Call} {db db' : Db} {route : Option Route}
    (h : optimizeDriverRoute maps call db = (.ok route, db')) :
    call.orderIds.Nodup ∧ call.orderIds ≠ [] ∧ ∃ lat lng stops, call.lat = some lat ∧
      call.lng = some lng ∧ locateOrders maps call.orderIds db = .ok stops ∧
      planRoute maps call.now call.routeId (lat, lng) stops = route := by
  unfold optimizeDriverRoute at h
  rcases hlat : call.lat with _ | lat
  · rw [hlat] at h
    dsimp only at h
    split_ifs at h <;> cases h
  rcases hlng : call.lng with _ | lng
  · rw [hlat, hlng] at h
    dsimp only at h
    split_ifs at h <;> cases h
  rw [hlat, hlng] at h
  dsimp only at h
  split_ifs at h with hempty hdup hdriver
  · cases h
  · cases h
  · rcases hstops : locateOrders maps call.orderIds db with e | stops
    · rw [hstops] at h
      cases h
    · rw [hstops] at h
      obtain ⟨hroute, -⟩ := Prod.mk.inj h
      exact ⟨hdup, hempty, lat, lng, stops, rfl, rfl, rfl, Except.ok.inj hroute⟩
  · cases h

theorem planRoute_cases {maps : Maps} {routeId : String} {origin : Point} {route : Route}
    (h : planRoute maps now routeId origin stops = some route) :
    buildFallbackRoute maps now routeId origin stops = some route ∧
        (∀ directions, askDirections maps origin stops = some (some directions) →
          directions.legs = [] ∨ directedStops now stops directions = some none) ∨
      ∃ directions, askDirections maps origin stops = some (some directions) ∧
        directions.legs ≠ [] ∧
        directedStops now stops directions = some (some route.waypoints) := by
  unfold planRoute at h
  rw [Option.bind_eq_bind, Option.bind_eq_some_iff] at h
  obtain ⟨answer, hasked, h⟩ := h
  rw [hasked]
  rcases answer with _ | directions
  · exact .inl ⟨h, by rintro directions ⟨⟩⟩
  dsimp only at h
  split_ifs at h with hempty
  · refine .inl ⟨h, ?_⟩
    rintro _ ⟨⟩
    exact .inl (List.isEmpty_iff.mp hempty)
  rw [Option.bind_eq_bind, Option.bind_eq_some_iff] at h
  obtain ⟨directed, hdirected, h⟩ := h
  rcases directed with _ | waypoints
  · refine .inl ⟨h, ?_⟩
    rintro _ ⟨⟩
    exact .inr hdirected
  · simp only [Option.bind_eq_bind, Option.bind_eq_some_iff] at h
    obtain ⟨distance, -, duration, -, h⟩ := h
    obtain rfl := Option.some.inj h
    exact .inr ⟨directions, rfl, fun hnil => hempty (by rw [hnil]; rfl), hdirected⟩

theorem directedStops_cases {directed : Option (List Waypoint)} (hn : 2 ≤ stops.length)
    (h : directedStops now stops directions = some directed) :
    directed = none ∧
        directions.legs.length ≠ (waypointIndices directions stops.length).length + 1 ∨
      directions.legs.length = (waypointIndices directions stops.length).length + 1 ∧
        ∃ waypoints, directed = some waypoints ∧ visitStops now stops 0 0
          ((waypointIndices directions stops.length ++ [(stops.length : ℤ) - 1]).zip
            directions.legs) = some waypoints := by
  have hdirected : directedStops now stops directions =
      if (waypointIndices directions stops.length ++ [(stops.length : ℤ) - 1]).length ≠
        directions.legs.length then some none
      else (visitStops now stops 0 0 ((waypointIndices directions stops.length ++
        [(stops.length : ℤ) - 1]).zip directions.legs)).map some := by
    rcases stops with _ | ⟨first, _ | ⟨second, stops⟩⟩
    · cases hn
    · exact absurd hn (by simp)
    · rfl
  rw [hdirected, List.length_append, List.length_singleton] at h
  split_ifs at h with hlegs
  · exact .inl ⟨(Option.some.inj h).symm, fun heq => hlegs heq.symm⟩
  · obtain ⟨waypoints, hvisit, rfl⟩ := Option.map_eq_some_iff.mp h
    exact .inr ⟨(not_not.mp hlegs).symm, waypoints, rfl, hvisit⟩

section

variable {maps : Maps} {call : Call} {db db' : Db} {route : Route} {lat lng : ℚ}
  {stops : List Stop}

theorem served_fallback (hlocate : locateOrders maps call.orderIds db = .ok stops)
    (h : buildFallbackRoute maps call.now call.routeId (lat, lng) stops = some route) :
    Served maps call db route := by
  have hids := locateOrders_ids hlocate
  have hlen : stops.length = call.orderIds.length := by rw [← hids, List.length_map]
  simp only [buildFallbackRoute, Option.bind_eq_bind, Option.bind_eq_some_iff] at h
  obtain ⟨⟨waypoints, distance, duration⟩, hstops, h⟩ := h
  obtain rfl := Option.some.inj h
  obtain ⟨horders, hindices, hfollows⟩ := fallbackStops_spec hstops
  refine ⟨?_, ?_, fun _ => hfollows.timely⟩
  · dsimp only
    rw [horders, hids]
  · dsimp only
    rw [hindices, hlen, List.range_eq_range']

theorem served_single
    (hlocate : locateOrders maps call.orderIds db = .ok stops) (hone : stops.length = 1)
    (hlegs : directions.legs ≠ [])
    (h : directedStops call.now stops directions = some (some route.waypoints)) :
    Served maps call db route := by
  have hids := locateOrders_ids hlocate
  obtain ⟨⟨order, point⟩, rfl⟩ := List.length_eq_one_iff.mp hone
  rcases hfirst : directions.legs with _ | ⟨leg, legs⟩
  · exact absurd hfirst hlegs
  unfold directedStops at h
  rw [hfirst] at h
  simp only [Option.bind_eq_bind, Option.bind_eq_some_iff] at h
  obtain ⟨duration, -, arrival, -, h⟩ := h
  have hroute : route.waypoints = [⟨0, order.id, point, arrival⟩] :=
    (Option.some.inj (Option.some.inj h)).symm
  refine ⟨?_, ?_, fun _ => ?_⟩
  · rw [hroute, ← hids]
    exact .refl _
  · rw [hroute, ← hids]
    rfl
  · unfold Timely
    rw [hroute]
    exact List.pairwise_singleton _ _

theorem served_directed_iff (hnodup : call.orderIds.Nodup)
    (hlat : call.lat = some lat) (hlng : call.lng = some lng)
    (hlocate : locateOrders maps call.orderIds db = .ok stops)
    (hasked : askDirections maps (lat, lng) stops = some (some directions))
    (hn : 2 ≤ stops.length)
    (h : directedStops call.now stops directions = some (some route.waypoints)) :
    Served maps call db route ↔ Permutes call.orderIds.length directions := by
  have hids := locateOrders_ids hlocate
  have hlen : stops.length = call.orderIds.length := by rw [← hids, List.length_map]
  rcases directedStops_cases hn h with ⟨hnone, -⟩ | ⟨hlegs, waypoints, hsome, hvisit⟩
  · cases hnone
  obtain rfl := Option.some.inj hsome
  obtain ⟨horders, hindices, hfollows⟩ := visitStops_spec hvisit
  have hziplen : (waypointIndices directions stops.length ++ [(stops.length : ℤ) - 1]).length =
      directions.legs.length := by
    rw [List.length_append, List.length_singleton, hlegs]
  have hvisited := visited_ids stops (waypointIndices directions stops.length ++
    [(stops.length : ℤ) - 1]) (route.waypoints.map Waypoint.orderId) (by
      rw [List.map_map]
      refine horders.trans ?_
      conv_rhs => rw [← List.map_fst_zip hziplen.le, List.map_map]
      rfl)
  rw [hids, hlen] at hvisited
  rw [hlen] at hziplen hlegs hn
  have hperm := visited_perm_iff hnodup hvisited
  rw [append_last_perm_iff (by omega), ← permutes_iff hn hlegs] at hperm
  have htimely : LegsForward directions → Timely route.waypoints := by
    intro hforward
    refine (hfollows fun leg hleg => ?_).timely
    exact hforward leg.2 (List.of_mem_zip hleg).2
  constructor
  · exact fun hserved => hperm.mp hserved.once
  · intro hpermutes
    have honce := hperm.mpr hpermutes
    refine ⟨honce, ?_, fun hforward => htimely (hforward directions ?_)⟩
    · have hcount := honce.length_eq
      have hzip := congrArg List.length hindices
      rw [List.length_map, List.length_range'] at hzip
      rw [List.length_map] at hcount
      rw [hindices, ← hzip, hcount, List.range_eq_range']
    · exact ⟨lat, lng, stops, hlat, hlng, hlocate, hasked⟩

end

/-- **Routes**: a route that is returned visits each requested order once, with arrivals in order,
exactly if the answer of the directions service permutes the stops. -/
theorem route_visits_iff {maps : Maps} {call : Call} {db db' : Db} {route : Route}
    (h : optimizeDriverRoute maps call db = (.ok (some route), db')) :
    Served maps call db route ↔
      ∀ directions, Answered maps call db directions →
        Permutes call.orderIds.length directions := by
  obtain ⟨hnodup, -, lat, lng, stops, hlat, hlng, hlocate, hplan⟩ := optimize_ok h
  have hids := locateOrders_ids hlocate
  have hlen : stops.length = call.orderIds.length := by rw [← hids, List.length_map]
  have hanswer : ∀ directions, Answered maps call db directions →
      askDirections maps (lat, lng) stops = some (some directions) := by
    rintro directions ⟨lat', lng', stops', hlat', hlng', hlocate', hasked⟩
    obtain rfl := Option.some.inj (hlat.symm.trans hlat')
    obtain rfl := Option.some.inj (hlng.symm.trans hlng')
    obtain rfl := Except.ok.inj (hlocate.symm.trans hlocate')
    exact hasked
  rcases planRoute_cases hplan with ⟨hfallback, hnone⟩ | ⟨directions, hasked, hlegs, hdirected⟩
  · refine iff_of_true (served_fallback hlocate hfallback) fun directions hdirections => ?_
    intro hn indices horder hlength
    rcases hnone directions (hanswer directions hdirections) with hempty | hno
    · rw [hempty] at hlength
      cases hlength
    · rcases directedStops_cases (by omega) hno with ⟨-, hne⟩ | ⟨-, waypoints, hsome, -⟩
      · rw [waypointIndices, Option.mem_def.mp horder, Option.getD_some] at hne
        exact absurd hlength hne
      · cases hsome
  · by_cases hn : 2 ≤ stops.length
    · rw [served_directed_iff hnodup hlat hlng hlocate hasked hn hdirected]
      constructor
      · intro hpermutes directions' hanswered
        have hsame := hasked.symm.trans (hanswer directions' hanswered)
        rwa [← Option.some.inj (Option.some.inj hsame)]
      · exact fun hall => hall directions ⟨lat, lng, stops, hlat, hlng, hlocate, hasked⟩
    · have hpos : stops ≠ [] := by
        rintro rfl
        simp only [askDirections, List.map_nil, List.getLast?_nil, Option.bind_eq_bind,
          Option.bind_none] at hasked
        cases hasked
      have hone : stops.length = 1 := by
        have := List.length_pos_iff.mpr hpos
        omega
      refine iff_of_true (served_single hlocate hone hlegs hdirected) fun directions' _ => ?_
      exact fun htwo => absurd htwo (by omega)

/-! ## Two orders -/

def answering (directions : Directions) : Maps where
  geocodeAddress _ := none
  getDirections _ _ _ := some (some directions)
  haversineMeters _ _ := some 0

def twoLegs (indices : List ℤ) : Directions where
  legs := [⟨some 60⟩, ⟨some 60⟩]
  waypointOrder := some indices

def twoOrders : Db where
  drivers := ⟨[⟨3⟩], by decide⟩
  orders := ⟨[{ id := "A", destination := "", latitude := some 1, longitude := some 1 },
    { id := "B", destination := "", latitude := some 2, longitude := some 2 }], by decide⟩

def bothOrders : Call := ⟨3, some 0, some 0, ["A", "B"], "r1", 0⟩

theorem route_visits_sample : Served (answering (twoLegs [0])) bothOrders twoOrders
    ⟨"r1", [⟨0, "A", (1, 1), 60000000⟩, ⟨1, "B", (2, 2), 120000000⟩], "", 0, 0, "moderate"⟩ := by
  have hroute : optimizeDriverRoute (answering (twoLegs [0])) bothOrders twoOrders =
      (.ok (some ⟨"r1", [⟨0, "A", (1, 1), 60000000⟩, ⟨1, "B", (2, 2), 120000000⟩], "", 0, 0,
        "moderate"⟩), (optimizeDriverRoute (answering (twoLegs [0])) bothOrders twoOrders).2) :=
    Prod.ext (by decide +kernel) rfl
  refine (route_visits_iff hroute).mpr ?_
  rintro directions ⟨lat, lng, stops, -, -, -, hasked⟩
  rw [askDirections, Option.bind_eq_bind, Option.bind_eq_some_iff] at hasked
  obtain ⟨destination, -, hasked⟩ := hasked
  obtain rfl := Option.some.inj (Option.some.inj hasked)
  rintro - _ ⟨⟩ -
  decide

/-- An index that is repeated: order A is never visited, and order B twice. -/
theorem order_skipped : ∃ route, (optimizeDriverRoute (answering (twoLegs [1])) bothOrders
    twoOrders).1 = .ok (some route) ∧
      ¬ Served (answering (twoLegs [1])) bothOrders twoOrders route := by
  refine ⟨⟨"r1", [⟨0, "B", (2, 2), 60000000⟩, ⟨1, "B", (2, 2), 120000000⟩], "", 0, 0, "moderate"⟩,
    by decide +kernel, fun hserved => ?_⟩
  exact absurd hserved.once (by decide)

end WezuBackend.Orders.Routes
