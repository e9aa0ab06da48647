import WezuBackend.Streams.JsonNumbers
import Mathlib.Algebra.Order.Archimedean.Basic

/-!
# Clusters of stations

`ClusteringService` puts the stations inside some bounds into the cells of a grid: a cell with one
station is shown as that station, another one as a cluster, whose id names the cell.  To expand a
cluster, the stations of the cell are selected by ranges of coordinates.  The cells of both sides
are the same (`inCell_iff`), and the ids are read back, so that an id selects the stations of its
cell (`expandCluster_clusterId`).

The service leaves out two fields that the response requires, and none of its responses passes its
validation (`clusters_expand_iff`).  Coordinates are exact rationals.
-/

namespace WezuBackend.Stations.Clusters

open Lib.Tables Lib.Results Core.Base Core.Text Streams.JsonNumbers

/-! ## The data -/

structure Station where
  id : ℕ
  latitude : ℚ
  longitude : ℚ
  deriving DecidableEq, Repr

instance : Row Station ℕ := ⟨Station.id⟩

structure LatLng where
  lat : ℚ
  lng : ℚ
  deriving DecidableEq, Repr

structure ClusterBounds where
  sw : LatLng
  ne : LatLng
  deriving DecidableEq, Repr

/-- A `NearbyStationResponse`, by its station. -/
structure NearbyStationResponse where
  station : Station
  deriving DecidableEq, Repr

structure ClusterResponse where
  id : String
  center : LatLng
  stationCount : ℕ
  bounds : ClusterBounds
  stations : List NearbyStationResponse := []
  deriving DecidableEq, Repr

inductive Entry where
  | cluster (cluster : ClusterResponse)
  | station (response : NearbyStationResponse)
  deriving DecidableEq, Repr

structure ClusteringResult where
  clusters : List Entry
  totalStations : ℕ
  zoomLevel : ℤ
  deriving DecidableEq, Repr

/-- `ValueError`, and the `ValidationError` of missing fields. -/
inductive ClusterError where
  | raised (exc : Exc)
  | missing (fields : List String)
  deriving DecidableEq, Repr

/-! ## Responses -/

/-- The fields without a default of `NearbyStationResponse` and its bases. -/
def requiredFields : List String :=
  ["name", "address", "latitude", "longitude", "id", "rating", "total_reviews", "distance"]

/-- The keywords that `_build_station_response` passes. -/
def stationKeywords : List String :=
  ["id", "name", "latitude", "longitude", "distance_km", "address", "zone_id", "station_type",
    "status", "is_24x7", "available_batteries", "available_slots", "rating", "images"]

/-- The required fields that are not among the keywords; other keywords are ignored. -/
def missingFields (keywords : List String) : List String :=
  requiredFields.filter fun field => field ∉ keywords

/-- The distance and what else is shown of a station are left out. -/
def buildStationResponse (keywords : List String) (station : Station) :
    Except ClusterError NearbyStationResponse :=
  if missingFields keywords = [] then .ok ⟨station⟩ else .error (.missing (missingFields keywords))

/-! ## The service -/

def raiseValueError {α : Type} (message : String) : Except ClusterError α :=
  .error (.raised (.valueError message))

/-- `_parse_bounds`; `float` is a parameter. -/
def parseBounds (float : String → Except Exc ℚ) (boundsStr : String) :
    Except ClusterError ClusterBounds :=
  match (boundsStr.toList.splitOn ',').map String.ofList with
  | [swLat, swLng, neLat, neLng] => Except.mapError ClusterError.raised do
    return ⟨⟨← float swLat, ← float swLng⟩, ⟨← float neLat, ← float neLng⟩⟩
  | _ => raiseValueError "Invalid bounds format. Expected sw_lat,sw_lng,ne_lat,ne_lng"

def Inside (b : ClusterBounds) (s : Station) : Prop :=
  b.sw.lat ≤ s.latitude ∧ s.latitude ≤ b.ne.lat ∧ b.sw.lng ≤ s.longitude ∧ s.longitude ≤ b.ne.lng

instance (b : ClusterBounds) (s : Station) : Decidable (Inside b s) :=
  inferInstanceAs (Decidable (_ ∧ _))

def gridSize (zoomLevel : ℤ) : ℚ := 360 / 2 ^ zoomLevel

/-- The cell of a station, `cell_x` and `cell_y`. -/
def cell (zoomLevel : ℤ) (s : Station) : ℤ × ℤ :=
  (⌊s.longitude / gridSize zoomLevel⌋, ⌊s.latitude / gridSize zoomLevel⌋)

/-- `str` of an integer. -/
def textOfInt (n : ℤ) : Except ClusterError String :=
  if n.natAbs < 10 ^ maxDigits then .ok (toString n) else .error (.raised tooLong)

def clusterId (zoomLevel : ℤ) (c : ℤ × ℤ) : Except ClusterError String := do
  let zoom ← textOfInt zoomLevel
  let x ← textOfInt c.1
  let y ← textOfInt c.2
  return s!"cluster_{zoom}_{x}_{y}"

/-- `sum(xs) / len(xs)`. -/
def average (xs : List ℚ) : ℚ := xs.sum / xs.length

def clusterOf (id : String) (stations : List Station) : ClusterResponse where
  id := id
  center := ⟨average (stations.map Station.latitude), average (stations.map Station.longitude)⟩
  stationCount := stations.length
  bounds :=
    ⟨⟨((stations.map Station.latitude).min?).getD 0,
        ((stations.map Station.longitude).min?).getD 0⟩,
      ⟨((stations.map Station.latitude).max?).getD 0,
        ((stations.map Station.longitude).max?).getD 0⟩⟩

section

variable {α κ : Type} [DecidableEq κ]

/-- The groups, where the one of the key `k` has the further member `a`. -/
def insertAt (k : κ) (a : α) : List (κ × List α) → List (κ × List α)
  | [] => [(k, [a])]
  | (k', as) :: groups =>
    if k' = k then (k', as ++ [a]) :: groups else (k', as) :: insertAt k a groups

/-- The members by their keys, as a dictionary of lists has them. -/
def group (key : α → κ) (l : List α) : List (κ × List α) :=
  l.foldl (fun groups a => insertAt (key a) a groups) []

end

/-- What is shown of a cell. -/
def entryOf (keywords : List String) (zoomLevel : ℤ) (c : (ℤ × ℤ) × List Station) :
    Except ClusterError Entry :=
  match c.2 with
  | [station] => .station <$> buildStationResponse keywords station
  | stations => (fun id => .cluster (clusterOf id stations)) <$> clusterId zoomLevel c.1

def getClusters (float : String → Except Exc ℚ) (keywords : List String) (db : Table Station)
    (zoomLevel : ℤ) (boundsStr : String) : Except ClusterError ClusteringResult := do
  let b ← parseBounds float boundsStr
  let stations := db.filter fun s => Inside b s
  let clusters ← (group (cell zoomLevel) stations).mapM (entryOf keywords zoomLevel)
  return { clusters, totalStations := stations.length, zoomLevel }

/-- The ranges of coordinates of a cell. -/
def InCell (zoomLevel cellX cellY : ℤ) (s : Station) : Prop :=
  cellY * gridSize zoomLevel ≤ s.latitude ∧ s.latitude < (cellY + 1) * gridSize zoomLevel ∧
    cellX * gridSize zoomLevel ≤ s.longitude ∧ s.longitude < (cellX + 1) * gridSize zoomLevel

instance (zoomLevel cellX cellY : ℤ) (s : Station) : Decidable (InCell zoomLevel cellX cellY s) :=
  inferInstanceAs (Decidable (_ ∧ _))

def expandCluster (float : String → Except Exc ℚ) (keywords : List String) (db : Table Station)
    (id : String) (zoomLevel : ℤ) (boundsStr : String) :
    Except ClusterError (List NearbyStationResponse) := do
  let b ← parseBounds float boundsStr
  match (id.toList.splitOn '_').map String.ofList with
  | ["cluster", _, x, y] =>
    let cellX ← (intOfText x).mapError ClusterError.raised
    let cellY ← (intOfText y).mapError ClusterError.raised
    (db.filter fun s => InCell zoomLevel cellX cellY s ∧ Inside b s).mapM
      (buildStationResponse keywords)
  | _ => raiseValueError "Invalid cluster ID format"

/-! ## The property -/

def Represents (zoomLevel : ℤ) (s : Station) : Entry → Prop
  | .station r => r.station = s
  | .cluster c => clusterId zoomLevel (cell zoomLevel s) = .ok c.id

instance (zoomLevel : ℤ) (s : Station) : DecidablePred (Represents zoomLevel s)
  | .station _ => inferInstanceAs (Decidable (_ = _))
  | .cluster _ => inferInstanceAs (Decidable (_ = _))

def Entry.stationCount : Entry → ℕ
  | .station _ => 1
  | .cluster c => c.stationCount

/-- The centre lies in the bounds. -/
def ClusterResponse.Centred (c : ClusterResponse) : Prop :=
  c.bounds.sw.lat ≤ c.center.lat ∧ c.center.lat ≤ c.bounds.ne.lat ∧
    c.bounds.sw.lng ≤ c.center.lng ∧ c.center.lng ≤ c.bounds.ne.lng

/-- The clusters are a partition that expands back. -/
structure Expandable (float : String → Except Exc ℚ) (keywords : List String) (db : Table Station)
    (zoomLevel : ℤ) (boundsStr : String) (b : ClusterBounds) (result : ClusteringResult) :
    Prop where
  parsed : parseBounds float boundsStr = .ok b
  returns : getClusters float keywords db zoomLevel boundsStr = .ok result
  total : result.totalStations = (db.filter fun s => Inside b s).length
  counts : (result.clusters.map Entry.stationCount).sum = result.totalStations
  once : ∀ s ∈ db, Inside b s → result.clusters.countP (Represents zoomLevel s) = 1
  centred : ∀ c, .cluster c ∈ result.clusters → c.Centred
  expands : ∀ c, .cluster c ∈ result.clusters → ∃ responses,
    expandCluster float keywords db c.id zoomLevel boundsStr = .ok responses ∧
    responses.length = c.stationCount ∧ responses.map NearbyStationResponse.station =
      db.filter fun s => Inside b s ∧ Represents zoomLevel s (.cluster c)

theorem gridSize_pos (zoomLevel : ℤ) : 0 < gridSize zoomLevel :=
  div_pos (by norm_num) (zpow_pos (by norm_num) _)

variable {c : ℤ × ℤ} {s : Station} {zoomLevel : ℤ}

/-- **The ranges of a cell** select its stations, on its borders and for negative cells too. -/
theorem inCell_iff :
    InCell zoomLevel c.1 c.2 s ↔ cell zoomLevel s = c := by
  have hpos := gridSize_pos zoomLevel
  rw [cell, Prod.ext_iff, Int.floor_eq_iff, Int.floor_eq_iff, le_div_iff₀ hpos, div_lt_iff₀ hpos,
    le_div_iff₀ hpos, div_lt_iff₀ hpos]
  exact ⟨fun ⟨h₁, h₂, h₃, h₄⟩ => ⟨⟨h₃, h₄⟩, h₁, h₂⟩, fun ⟨⟨h₃, h₄⟩, h₁, h₂⟩ => ⟨h₁, h₂, h₃, h₄⟩⟩

/-! ## Ids -/

theorem textOfInt_ok {n : ℤ} {text : String} (h : textOfInt n = .ok text) :
    intOfText text = .ok n ∧ '_' ∉ text.toList := by
  unfold textOfInt at h
  split_ifs at h with hlt
  obtain rfl := Except.ok.inj h
  refine ⟨intOfText_toString_int hlt, ?_⟩
  rcases n with m | m
  · change '_' ∉ (toString (m : ℤ)).toList
    rw [toList_toString_ofNat]
    exact Nat.underscore_not_in_toDigits
  · change '_' ∉ (toString (-((m + 1 : ℕ) : ℤ))).toList
    rw [toList_toString_neg, List.mem_cons, not_or]
    exact ⟨by decide, Nat.underscore_not_in_toDigits⟩

variable {id : String}

theorem clusterId_ok (h : clusterId zoomLevel c = .ok id) : ∃ zoom x y, intOfText x = .ok c.1 ∧
      intOfText y = .ok c.2 ∧
      (id.toList.splitOn '_').map String.ofList = ["cluster", zoom, x, y] := by
  obtain ⟨zoom, hzoom, h⟩ := except_bind_ok.mp h
  obtain ⟨x, hx, h⟩ := except_bind_ok.mp h
  obtain ⟨y, hy, h⟩ := except_bind_ok.mp h
  obtain rfl := Except.ok.inj h
  refine ⟨zoom, x, y, (textOfInt_ok hx).1, (textOfInt_ok hy).1, ?_⟩
  have hlist : (s!"cluster_{zoom}_{x}_{y}").toList =
      ['_'].intercalate ["cluster".toList, zoom.toList, x.toList, y.toList] := by
    simp [List.intercalate]
    rfl
  rw [hlist, List.splitOn_intercalate]
  · simp [String.ofList_toList]
  · simp only [List.forall_mem_cons]
    exact ⟨by decide, (textOfInt_ok hzoom).2, (textOfInt_ok hx).2, (textOfInt_ok hy).2, nofun⟩
  · exact List.cons_ne_nil _ _

/-- Different cells have different ids. -/
theorem clusterId_inj {c c' : ℤ × ℤ}
    (h : clusterId zoomLevel c = .ok id) (h' : clusterId zoomLevel c' = .ok id) : c = c' := by
  obtain ⟨_, x, y, hx, hy, hsplit⟩ := clusterId_ok h
  obtain ⟨_, x', y', hx', hy', hsplit'⟩ := clusterId_ok h'
  have hparts := hsplit.symm.trans hsplit'
  simp only [List.cons.injEq, true_and, and_true] at hparts
  obtain ⟨-, rfl, rfl⟩ := hparts
  exact Prod.ext (Except.ok.inj (hx.symm.trans hx')) (Except.ok.inj (hy.symm.trans hy'))

section

variable {float : String → Except Exc ℚ} {keywords : List String} {db : Table Station}
  {zoomLevel : ℤ} {boundsStr : String} {b : ClusterBounds}

/-- **An id is expanded** to the stations of its cell inside the bounds. -/
theorem expandCluster_clusterId (hparsed : parseBounds float boundsStr = .ok b)
    (h : clusterId zoomLevel c = .ok id) :
    expandCluster float keywords db id zoomLevel boundsStr =
      (db.filter fun s => Inside b s ∧ cell zoomLevel s = c).mapM
        (buildStationResponse keywords) := by
  obtain ⟨_, x, y, hx, hy, hsplit⟩ := clusterId_ok h
  have hsame : (fun s => decide (InCell zoomLevel c.1 c.2 s ∧ Inside b s)) =
      fun s => decide (Inside b s ∧ cell zoomLevel s = c) := by
    funext s
    exact decide_eq_decide.mpr (by rw [inCell_iff, and_comm])
  unfold expandCluster
  rw [hparsed, hsplit]
  simp only [bind, Except.bind, hx, hy, Except.mapError, hsame]

theorem missing_of_build {r : NearbyStationResponse}
    (h : buildStationResponse keywords s = .ok r) : missingFields keywords = [] := by
  unfold buildStationResponse at h
  split_ifs at h with hnone
  exact hnone

/-! ## What the service does -/

theorem expandCluster_missing (hmissing : missingFields keywords ≠ [])
    {responses : List NearbyStationResponse}
    (h : expandCluster float keywords db id zoomLevel boundsStr = .ok responses) :
    responses = [] := by
  obtain ⟨_, -, h⟩ := except_bind_ok.mp h
  split at h
  · obtain ⟨_, -, h⟩ := except_bind_ok.mp h
    obtain ⟨_, -, h⟩ := except_bind_ok.mp h
    refine List.eq_nil_iff_forall_not_mem.mpr fun r hr => ?_
    obtain ⟨s, -, hs⟩ := mem_of_mapM h hr
    exact hmissing (missing_of_build hs)
  · cases h

theorem Expandable.nothing {result : ClusteringResult} (hmissing : missingFields keywords ≠ [])
    (h : Expandable float keywords db zoomLevel boundsStr b result) : ∀ s ∈ db, ¬ Inside b s := by
  intro s hs hin
  obtain ⟨entry, hentry, hrepresents⟩ := List.countP_pos_iff.mp (h.once s hs hin ▸ Nat.one_pos)
  replace hrepresents := of_decide_eq_true hrepresents
  rcases entry with c | r
  · obtain ⟨responses, hexpand, -, hsame⟩ := h.expands c hentry
    rw [expandCluster_missing hmissing hexpand, List.map_nil] at hsame
    have hmem : s ∈ db.filter fun s => Inside b s ∧ Represents zoomLevel s (.cluster c) :=
      Table.mem_filter.mpr ⟨hs, decide_eq_true ⟨hin, hrepresents⟩⟩
    rw [← hsame] at hmem
    cases hmem
  · obtain ⟨_, -, hreturns⟩ := except_bind_ok.mp h.returns
    obtain ⟨entries, hentries, hreturns⟩ := except_bind_ok.mp hreturns
    obtain rfl := Except.ok.inj hreturns
    obtain ⟨⟨c, stations⟩, -, hc⟩ := mem_of_mapM hentries hentry
    unfold entryOf at hc
    split at hc
    · obtain ⟨r', hbuild, -⟩ := except_map_ok.mp hc
      exact hmissing (missing_of_build hbuild)
    · obtain ⟨_, -, hcluster⟩ := except_map_ok.mp hc
      cases hcluster

theorem missing_stationKeywords :
    missingFields stationKeywords = ["total_reviews", "distance"] := by
  decide

/-- **The clusters** are a partition that expands back exactly if no station is inside the
bounds. -/
theorem clusters_expand_iff (float : String → Except Exc ℚ) (db : Table Station) (zoomLevel : ℤ)
    (boundsStr : String) :
    (∃ b result, Expandable float stationKeywords db zoomLevel boundsStr b result) ↔
      ∃ b, parseBounds float boundsStr = .ok b ∧ ∀ s ∈ db, ¬ Inside b s := by
  constructor
  · rintro ⟨b, result, h⟩
    exact ⟨b, h.parsed, h.nothing (by rw [missing_stationKeywords]; exact List.cons_ne_nil _ _)⟩
  · rintro ⟨b, hparsed, hnone⟩
    have hempty : (db.filter fun s => Inside b s) = [] :=
      List.filter_eq_nil_iff.mpr fun s hs hin => hnone s hs (of_decide_eq_true hin)
    refine ⟨b, ⟨[], 0, zoomLevel⟩, hparsed, ?_, by rw [hempty]; rfl, rfl,
      fun s hs hin => absurd hin (hnone s hs), nofun, nofun⟩
    unfold getClusters
    rw [hparsed]
    simp [hempty, group, bind, Except.bind, pure, Except.pure]

end

def closeStations : Table Station :=
  ⟨[⟨1, 1297 / 100, 7759 / 100⟩, ⟨2, 1298 / 100, 7760 / 100⟩], by decide⟩

/-- `float` of the text of an integer. -/
def floatOfInt (text : String) : Except Exc ℚ := (intOfText text).map fun n => (n : ℚ)

/-- Their cluster cannot be expanded, and without it they are not shown at all. -/
theorem close_stations_missing :
    expandCluster floatOfInt stationKeywords closeStations "cluster_5_6_1" 5 "-90,-180,90,180" =
        .error (.missing ["total_reviews", "distance"]) ∧
      getClusters floatOfInt stationKeywords closeStations 15 "-90,-180,90,180" =
        .error (.missing ["total_reviews", "distance"]) ∧
      ¬ ∃ b result, Expandable floatOfInt stationKeywords closeStations 15 "-90,-180,90,180" b
        result := by
  have hmissing : getClusters floatOfInt stationKeywords closeStations 15 "-90,-180,90,180" =
      .error (.missing ["total_reviews", "distance"]) := by
    decide +kernel
  refine ⟨by decide +kernel, hmissing, ?_⟩
  rintro ⟨b, result, h⟩
  cases hmissing.symm.trans h.returns

end WezuBackend.Stations.Clusters
