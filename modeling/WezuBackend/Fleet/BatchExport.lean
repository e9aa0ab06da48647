import WezuBackend.Fleet.BatchImport
import WezuBackend.Streams.JsonNumbers

/-!
# The export of batteries, read back

`generate_export_csv` and `parse_import_csv` list the columns of the file independently of each
other.  What is exported is parsed again into one row for each battery, with the columns that both
of them have (`export_import`); the columns that only the parser has get their defaults.

The texts of `csv`, of floating point numbers and of datetimes are parameters; that they are read
back is what `ReadBack` says of the ones that are written.
-/

namespace WezuBackend.Fleet.BatchExport

open Lib.Results Core.Base Core.Text Fleet.Model Fleet.BatchImport Streams.JsonNumbers

/-- The texts of files, numbers and datetimes. -/
structure Formats (φ δ : Type) where
  /-- `csv.writer` into a text -/
  writerows : List (List String) → String
  /-- `csv.reader` of a text -/
  reader : String → List (List String)
  repr : φ → String
  float : String → Except Exc φ
  /-- `100.0` -/
  hundred : φ
  isoformat : δ → String
  fromisoformat : String → Except Exc δ

variable {φ δ : Type} (F : Formats φ δ)

/-! ## The file -/

def exportHeader : List String :=
  ["id", "serial_number", "status", "health_percentage", "cycle_count", "manufacturer",
    "location_type", "notes", "manufacture_date", "station_id", "created_at"]

def optional {α : Type} (text : α → String) (value : Option α) : String := (value.map text).getD ""

def exportRow (b : BatteryRow φ δ) : List String :=
  [toString b.id, b.serialNumber, b.status.text, F.repr b.healthPercentage, toString b.cycleCount,
    optional id b.manufacturer, b.locationType.text, optional id b.notes,
    optional F.isoformat b.manufactureDate, optional toString b.stationId,
    optional F.isoformat b.createdAt]

def generateExportCsv (batteries : List (BatteryRow φ δ)) : String :=
  F.writerows (exportHeader :: batteries.map (exportRow F))

/-! ## The parser -/

/-- `row.get(key)` of a row of `csv.DictReader`: the last column of the name counts, and a row that
is too short has `None` there. -/
def cell (fieldnames row : List String) (key : String) : Option (Option String) :=
  (fieldnames.zipIdx.reverse.find? fun column => column.1 = key).map fun column => row[column.2]?

/-- `row.get(key, default).strip()`. -/
def stripped (default : String) : Option (Option String) → Except Exc String
  | none => .ok (strip default)
  | some (some text) => .ok (strip text)
  | some none => .error .attributeError

/-- `convert(row.get(key)) if row.get(key) else None`. -/
def converted {α : Type} (convert : String → Except Exc α) (value : Option (Option String)) :
    Except Exc (Option α) :=
  match truthy value.join with
  | none => .ok none
  | some text => some <$> convert text

/-- `float(row.get("health_percentage", 100.0))`. -/
def percentage : Option (Option String) → Except Exc φ
  | none => .ok F.hundred
  | some (some text) => F.float text
  | some none => .error .typeError

def parseRow (fieldnames row : List String) : Except Exc (Item φ δ) := do
  let get := cell fieldnames row
  let serialNumber ← stripped "" (get "serial_number")
  let skuId ← converted intOfText (get "sku_id")
  let status ← stripped BatteryStatus.available.text (get "status")
  let healthStatus ← stripped BatteryHealth.good.text (get "health_status")
  let healthPercentage ← percentage F (get "health_percentage")
  let stationId ← converted intOfText (get "station_id")
  let manufacturer ← stripped "" (get "manufacturer")
  let locationType ← stripped "warehouse" (get "location_type")
  let notes ← stripped "" (get "notes")
  let manufactureDate ← converted F.fromisoformat (get "manufacture_date")
  return { serialNumber, skuId, status, healthStatus, healthPercentage, stationId, manufacturer
           locationType, notes, manufactureDate }

/-- `parse_import_csv`; the reader's empty rows are passed over. -/
def parseImportCsv (content : String) : Except Exc (List (Item φ δ)) :=
  match F.reader content with
  | [] => .ok []
  | fieldnames :: rows => (rows.filter fun row => row ≠ []).mapM (parseRow F fieldnames)

/-! ## The round trip -/

/-- What the columns of a battery can hold, and a serial without blanks around it. -/
structure Exportable (b : BatteryRow φ δ) : Prop where
  serial : strip b.serialNumber = b.serialNumber
  named : b.serialNumber ≠ ""
  status : ∀ text, b.status ≠ .other text
  locationType : ∀ text, b.locationType ≠ .other text
  station : ∀ n ∈ b.stationId, -2 ^ 31 ≤ n ∧ n < 2 ^ 31

/-- What is written is read back: the rows of the file, and the numbers and dates in it. -/
structure ReadBack (batteries : List (BatteryRow φ δ)) : Prop where
  rows : F.reader (generateExportCsv F batteries) = exportHeader :: batteries.map (exportRow F)
  floats : ∀ b ∈ batteries, F.float (F.repr b.healthPercentage) = .ok b.healthPercentage
  dates : ∀ b ∈ batteries, ∀ date ∈ b.manufactureDate,
    F.isoformat date ≠ "" ∧ F.fromisoformat (F.isoformat date) = .ok date

def reimported (b : BatteryRow φ δ) : Item φ δ where
  serialNumber := b.serialNumber
  status := b.status.text
  healthPercentage := b.healthPercentage
  stationId := b.stationId
  manufacturer := strip (b.manufacturer.getD "")
  locationType := b.locationType.text
  notes := strip (b.notes.getD "")
  manufactureDate := b.manufactureDate

theorem strip_status {status : BatteryStatus} (h : ∀ text, status ≠ .other text) :
    strip status.text = status.text := by
  cases status <;> first | rfl | exact absurd rfl (h _)

theorem strip_locationType {type : LocationType} (h : ∀ text, type ≠ .other text) :
    strip type.text = type.text := by
  cases type <;> first | rfl | exact absurd rfl (h _)

theorem converted_optional {α : Type} {convert : String → Except Exc α} {text : α → String}
    {value : Option α} (h : ∀ a ∈ value, text a ≠ "" ∧ convert (text a) = .ok a) :
    converted convert (some (some (optional text value))) = .ok value := by
  rcases value with _ | a
  · rfl
  · obtain ⟨hne, hread⟩ := h a rfl
    have htruthy : truthy (some (text a)) = some (text a) := truthy_eq_some.mpr ⟨rfl, hne⟩
    change (match truthy (some (text a)) with | none => _ | some text => _) = _
    rw [htruthy]
    dsimp only
    rw [hread]
    rfl

theorem optional_id (value : Option String) : optional id value = value.getD "" := by
  cases value <;> rfl

theorem parseRow_exportRow {b : BatteryRow φ δ} (hb : Exportable b)
    (hfloat : F.float (F.repr b.healthPercentage) = .ok b.healthPercentage)
    (hdate : ∀ date ∈ b.manufactureDate,
      F.isoformat date ≠ "" ∧ F.fromisoformat (F.isoformat date) = .ok date) :
    parseRow F exportHeader (exportRow F b) = .ok (reimported b) := by
  have hstation : ∀ n ∈ b.stationId, toString n ≠ "" ∧ intOfText (toString n) = .ok n := by
    intro n hn
    have hread := intOfText_toString_int (n := n) (by
      obtain ⟨hlow, hhigh⟩ := hb.station n hn
      have hsmall : n.natAbs < 10 ^ 10 := by omega
      exact hsmall.trans_le (Nat.pow_le_pow_right (by omega) (by decide)))
    refine ⟨fun hempty => ?_, hread⟩
    rw [hempty] at hread
    cases hread
  have hserial : stripped "" (cell exportHeader (exportRow F b) "serial_number") =
      .ok b.serialNumber := congrArg Except.ok hb.serial
  have hstatus : stripped BatteryStatus.available.text
      (cell exportHeader (exportRow F b) "status") = .ok b.status.text :=
    congrArg Except.ok (strip_status hb.status)
  have hpercentage : percentage F (cell exportHeader (exportRow F b) "health_percentage") =
      .ok b.healthPercentage := hfloat
  have hstationId : converted intOfText (cell exportHeader (exportRow F b) "station_id") =
      .ok b.stationId := converted_optional hstation
  have hlocation : stripped "warehouse" (cell exportHeader (exportRow F b) "location_type") =
      .ok b.locationType.text := congrArg Except.ok (strip_locationType hb.locationType)
  have hmanufactured : converted F.fromisoformat
      (cell exportHeader (exportRow F b) "manufacture_date") = .ok b.manufactureDate :=
    converted_optional hdate
  unfold parseRow
  dsimp only
  rw [hserial, hstatus, hpercentage, hstationId, hlocation, hmanufactured]
  unfold reimported
  rw [← optional_id, ← optional_id]
  rfl

/-- **The export is read back**: one row for each battery, in their order, with all that both sides
of the file know; texts lose the blanks around them, and missing ones are empty. -/
theorem export_import {batteries : List (BatteryRow φ δ)}
    (hbatteries : ∀ b ∈ batteries, Exportable b) (hread : ReadBack F batteries) :
    parseImportCsv F (generateExportCsv F batteries) = .ok (batteries.map reimported) := by
  have hrows : (batteries.map (exportRow F)).filter (fun row => row ≠ []) =
      batteries.map (exportRow F) := by
    refine List.filter_eq_self.mpr fun row hrow => ?_
    obtain ⟨b, -, rfl⟩ := List.mem_map.mp hrow
    exact decide_eq_true (List.cons_ne_nil _ _)
  rw [parseImportCsv, hread.rows]
  dsimp only
  rw [hrows, List.mapM_map]
  exact mapM_of_forall fun b hb =>
    parseRow_exportRow F (hbatteries b hb) (hread.floats b hb) (hread.dates b hb)

/-! ## A small file -/

/-- Formats for texts without separators, numbers with one decimal, and days of one month. -/
def plainFormats : Formats ℕ ℕ where
  writerows rows := String.join (rows.map fun row => ",".intercalate row ++ "\r\n")
  reader text := (text.toList.splitOn '\n').dropLast.map fun line =>
    (line.dropLast.splitOn ',').map String.ofList
  repr tenths := s!"{tenths / 10}.{tenths % 10}"
  float text := (intOfText (String.ofList (text.toList.filter (· ≠ '.')))).map Int.toNat
  hundred := 1000
  isoformat day := s!"2026-01-{10 + day}T00:00:00"
  fromisoformat text :=
    (intOfText (String.ofList ((text.toList.drop 8).take 2))).map fun n => n.toNat - 10

def plainBatteries : List (BatteryRow ℕ ℕ) :=
  [{ id := 1, serialNumber := "BAT-1", skuId := none, status := .inTransit, healthStatus := .fair
     healthPercentage := 955, stationId := some 12, manufacturer := none
     locationType := .serviceCenter, notes := some " spare ", manufactureDate := some 5
     createdAt := some 7 },
    { id := 2, serialNumber := "BAT-2", skuId := some 3, status := .new, healthStatus := .good
      healthPercentage := 1000, stationId := none, manufacturer := some "Amaron"
      locationType := .warehouse, notes := none, manufactureDate := none, createdAt := some 8 }]

theorem export_import_sample :
    parseImportCsv plainFormats (generateExportCsv plainFormats plainBatteries) =
      .ok (plainBatteries.map reimported) := by
  refine export_import plainFormats ?_ ⟨by decide +kernel, by decide +kernel, by decide +kernel⟩
  intro b hb
  rcases List.mem_cons.mp hb with rfl | hb
  · exact ⟨by decide, by decide, nofun, nofun, by decide⟩
  · obtain rfl := List.mem_singleton.mp hb
    exact ⟨by decide, by decide, nofun, nofun, by decide⟩

end WezuBackend.Fleet.BatchExport
