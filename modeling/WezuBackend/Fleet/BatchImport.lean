import WezuBackend.Fleet.Model
import WezuBackend.Lib.Results

/-!
# The import of batteries

`process_import` of `app/services/battery_batch_service.py` checks the rows of a file one by one
against the database and inserts what it has accepted at the end, in one commit.  The checks of a
row know nothing of the rows before it, and the commit checks more than they do: the import keeps
its promises exactly if no accepted row repeats a serial and all of them can be stored
(`import_sound_iff`).

Floating point numbers `φ` and datetimes `δ` are not looked into.
-/

namespace WezuBackend.Fleet.BatchImport

open Lib.Tables Lib.Results Fleet.Model

/-! ## The tables -/

inductive BatteryHealth where
  | good
  | fair
  | poor
  | critical
  | excellent
  | damaged
  deriving DecidableEq, Repr

def BatteryHealth.text : BatteryHealth → String
  | .good => "GOOD"
  | .fair => "FAIR"
  | .poor => "POOR"
  | .critical => "CRITICAL"
  | .excellent => "EXCELLENT"
  | .damaged => "DAMAGED"

/-- The columns of `batteries` that a file has. -/
structure BatteryRow (φ δ : Type) where
  id : ℕ
  serialNumber : String
  skuId : Option ℤ
  status : BatteryStatus
  healthStatus : BatteryHealth
  healthPercentage : φ
  cycleCount : ℤ := 0
  stationId : Option ℤ
  manufacturer : Option String
  locationType : LocationType
  notes : Option String
  manufactureDate : Option δ
  createdAt : Option δ
  deriving DecidableEq, Repr

instance {φ δ : Type} : Row (BatteryRow φ δ) ℕ := ⟨BatteryRow.id⟩

/-- The batteries, and the ids that the foreign keys refer to. -/
structure Db (φ δ : Type) where
  batteries : Table (BatteryRow φ δ) := Table.empty
  skus : List ℤ := []
  stations : List ℤ := []

/-- An item of `parsed_data`. -/
structure Item (φ δ : Type) where
  serialNumber : String
  skuId : Option ℤ := none
  status : String := "available"
  healthStatus : String := "GOOD"
  healthPercentage : φ
  stationId : Option ℤ := none
  manufacturer : String := ""
  locationType : String := "warehouse"
  notes : String := ""
  manufactureDate : Option δ := none
  deriving DecidableEq, Repr

variable {φ δ : Type}

/-! ## The commit -/

/-- What a commit raises: for a value that the driver cannot send, for one that the column does not
take, and for a constraint that is violated. -/
inductive CommitError where
  | valueError
  | dataError
  | integrityError
  deriving DecidableEq, Repr

/-- The member of an enumeration that a text stands for, which is its name or its value. -/
def member {α : Type} (members : List (String × α)) (value : α → String) (text : String) :
    Option α :=
  (members.find? fun m => m.1 = text ∨ value m.2 = text).map Prod.snd

def statusOf : String → Option BatteryStatus :=
  member [("AVAILABLE", .available), ("RENTED", .rented), ("MAINTENANCE", .maintenance),
    ("CHARGING", .charging), ("RETIRED", .retired), ("DEPLOYED", .deployed),
    ("RESERVED", .reserved), ("IN_TRANSIT", .inTransit), ("FAULTY", .faulty), ("NEW", .new),
    ("READY", .ready)] BatteryStatus.text

def healthOf : String → Option BatteryHealth :=
  member [("GOOD", .good), ("FAIR", .fair), ("POOR", .poor), ("CRITICAL", .critical),
    ("EXCELLENT", .excellent), ("DAMAGED", .damaged)] BatteryHealth.text

def locationTypeOf : String → Option LocationType :=
  member [("STATION", .station), ("WAREHOUSE", .warehouse), ("SERVICE_CENTER", .serviceCenter),
    ("RECYCLING", .recycling), ("CUSTOMER", .customer), ("TRANSIT", .transit), ("SHELF", .shelf)]
    LocationType.text

/-- The text has a character that the database has no place for. -/
def HasNul (text : String) : Prop := Char.ofNat 0 ∈ text.toList

instance (text : String) : Decidable (HasNul text) := inferInstanceAs (Decidable (_ ∈ _))

/-- A foreign key: nothing, or an id that exists. -/
def Refers (ids : List ℤ) (id : Option ℤ) : Prop := ∀ n ∈ id, n ∈ ids

instance (ids : List ℤ) (id : Option ℤ) : Decidable (Refers ids id) :=
  inferInstanceAs (Decidable (∀ n ∈ id, n ∈ ids))

/-- `Battery(**item)`, inserted. -/
def insertBattery (now : δ) (db : Db φ δ) (item : Item φ δ) : Except CommitError (Db φ δ) :=
  match statusOf item.status, healthOf item.healthStatus, locationTypeOf item.locationType with
  | some status, some healthStatus, some locationType =>
    if HasNul item.serialNumber ∨ HasNul item.manufacturer ∨ HasNul item.notes then
      .error .valueError
    else if ∃ b ∈ db.batteries, b.serialNumber = item.serialNumber then .error .integrityError
    else if Refers db.skus item.skuId ∧ Refers db.stations item.stationId then
      .ok { db with
        batteries := db.batteries.add fun id => {
          id, serialNumber := item.serialNumber, skuId := item.skuId, status, healthStatus
          healthPercentage := item.healthPercentage, stationId := item.stationId
          manufacturer := some item.manufacturer, locationType, notes := some item.notes
          manufactureDate := item.manufactureDate, createdAt := some now } }
    else .error .integrityError
  | _, _, _ => .error .dataError

/-! ## The import -/

structure ImportError where
  row : ℕ
  error : String
  deriving DecidableEq, Repr

structure ImportResult where
  successCount : ℕ
  errorCount : ℕ
  errors : List ImportError
  deriving DecidableEq, Repr

/-- The body of the loop up to the new battery; an exception is its text. -/
def checkItem (db : Db φ δ) (item : Item φ δ) : Except String Unit := do
  if item.serialNumber = "" then throw "serial_number is required"
  if HasNul item.serialNumber then
    throw "A string literal cannot contain NUL (0x00) characters."
  if ∃ b ∈ db.batteries, b.serialNumber = item.serialNumber then
    throw s!"Battery with serial '{item.serialNumber}' already exists"
  match item.skuId with
  | none => return
  | some n => if n ≠ 0 ∧ n ∉ db.skus then throw s!"SKU ID '{n}' not found"

/-- The variables of the loop. -/
structure Progress (φ δ : Type) where
  successCount : ℕ := 0
  errorCount : ℕ := 0
  errors : List ImportError := []
  newBatteries : List (Item φ δ) := []

/-- One round of the loop. -/
def importRow (db : Db φ δ) (p : Progress φ δ) (row : Item φ δ × ℕ) : Progress φ δ :=
  match checkItem db row.1 with
  | .ok () =>
    { p with successCount := p.successCount + 1, newBatteries := p.newBatteries ++ [row.1] }
  | .error e =>
    { p with errorCount := p.errorCount + 1, errors := p.errors ++ [⟨row.2 + 2, e⟩] }

/-- `process_import`, with the database after it. -/
def processImport (now : δ) (dryRun : Bool) (db : Db φ δ) (parsedData : List (Item φ δ)) :
    Except CommitError ImportResult × Db φ δ :=
  let p := parsedData.zipIdx.foldl (importRow db) {}
  let result : ImportResult := ⟨p.successCount, p.errorCount, p.errors⟩
  if p.newBatteries ≠ [] ∧ dryRun = false then
    match p.newBatteries.foldlM (insertBattery now) db with
    | .ok db' => (.ok result, db')
    | .error e => (.error e, db)
  else (.ok result, db)

/-! ## What is accepted -/

variable {now : δ} {db db' : Db φ δ} {item : Item φ δ} {items : List (Item φ δ)}

/-- The checks of the loop pass. -/
def Accepted (db : Db φ δ) (item : Item φ δ) : Prop := checkItem db item = .ok ()

theorem Accepted.serial (h : Accepted db item) : ¬ HasNul item.serialNumber ∧
    ∀ b ∈ db.batteries, b.serialNumber ≠ item.serialNumber := by
  unfold Accepted checkItem at h
  by_cases hempty : item.serialNumber = ""
  · rw [if_pos hempty] at h
    cases h
  rw [if_neg hempty] at h
  by_cases hnul : HasNul item.serialNumber
  · rw [if_pos hnul] at h
    cases h
  rw [if_neg hnul] at h
  by_cases hold : ∃ b ∈ db.batteries, b.serialNumber = item.serialNumber
  · rw [if_pos hold] at h
    cases h
  exact ⟨hnul, fun b hb hserial => hold ⟨b, hb, hserial⟩⟩

def accepted (db : Db φ δ) (items : List (Item φ δ)) : List (Item φ δ) :=
  items.filter fun item => (checkItem db item).isOk

theorem isOk_checkItem : (checkItem db item).isOk = true ↔ Accepted db item := by
  unfold Accepted
  rcases checkItem db item with e | ⟨⟨⟩⟩ <;> simp [Except.isOk, Except.toBool]

theorem mem_accepted : item ∈ accepted db items ↔ item ∈ items ∧ Accepted db item := by
  rw [accepted, List.mem_filter, isOk_checkItem]

theorem accepted_ok (h : Accepted db item) :
    accepted db (item :: items) = item :: accepted db items :=
  List.filter_cons_of_pos (isOk_checkItem.mpr h)

variable {e : String}

theorem accepted_error (h : checkItem db item = .error e) :
    accepted db (item :: items) = accepted db items :=
  List.filter_cons_of_neg (by simp [h, Except.isOk, Except.toBool])

/-- The errors of the other rows, of which the first one is number `n`. -/
def rejected (db : Db φ δ) (items : List (Item φ δ)) (n : ℕ) : List ImportError :=
  (items.zipIdx n).filterMap fun row =>
    match checkItem db row.1 with
    | .ok () => none
    | .error e => some ⟨row.2 + 2, e⟩

variable {n : ℕ}

theorem rejected_ok (h : Accepted db item) :
    rejected db (item :: items) n = rejected db items (n + 1) := by
  unfold Accepted at h
  unfold rejected
  rw [List.zipIdx_cons, List.filterMap_cons_none (by rw [h])]

theorem rejected_error (h : checkItem db item = .error e) :
    rejected db (item :: items) n = ⟨n + 2, e⟩ :: rejected db items (n + 1) := by
  unfold rejected
  rw [List.zipIdx_cons, List.filterMap_cons_some (b := ⟨n + 2, e⟩) (by rw [h])]

theorem length_accepted_rejected (db : Db φ δ) (items : List (Item φ δ)) (n : ℕ) :
    (accepted db items).length + (rejected db items n).length = items.length := by
  induction items generalizing n with
  | nil => rfl
  | cons item items ih =>
    have hrest := ih (n + 1)
    rcases h : checkItem db item with e | ⟨⟨⟩⟩
    · rw [accepted_error h, rejected_error h, List.length_cons, List.length_cons]
      omega
    · rw [accepted_ok h, rejected_ok h, List.length_cons, List.length_cons]
      omega

theorem row_mem_rejected {i : ℕ} :
    (∃ e ∈ rejected db items 0, e.row = i + 2) ↔
      ∃ item, items[i]? = some item ∧ ¬ Accepted db item := by
  constructor
  · rintro ⟨e, he, hrow⟩
    obtain ⟨⟨item, j⟩, hmem, hitem⟩ := List.mem_filterMap.mp he
    have hat := List.mem_zipIdx_iff_getElem?.mp hmem
    dsimp only at hitem hat
    rcases h : checkItem db item with err | ⟨⟨⟩⟩
    · rw [h] at hitem
      cases hitem
      have hij : j = i := Nat.add_right_cancel hrow
      exact ⟨item, hij ▸ hat, by rw [Accepted, h]; exact fun h => nomatch h⟩
    · rw [h] at hitem
      cases hitem
  · rintro ⟨item, hat, hnot⟩
    rcases h : checkItem db item with err | ⟨⟨⟩⟩
    · exact ⟨⟨i + 2, err⟩, List.mem_filterMap.mpr
        ⟨(item, i), List.mem_zipIdx_iff_getElem?.mpr hat, by rw [h]⟩, rfl⟩
    · exact absurd h hnot

theorem importRow_foldl (db : Db φ δ) (items : List (Item φ δ)) (n : ℕ) (p : Progress φ δ) :
    (items.zipIdx n).foldl (importRow db) p =
      ⟨p.successCount + (accepted db items).length, p.errorCount + (rejected db items n).length,
        p.errors ++ rejected db items n, p.newBatteries ++ accepted db items⟩ := by
  induction items generalizing n p with
  | nil => simp [accepted, rejected]
  | cons item items ih =>
    rw [List.zipIdx_cons, List.foldl_cons, ih]
    rcases h : checkItem db item with e | ⟨⟨⟩⟩
    · rw [accepted_error h, rejected_error h]
      simp [importRow, h]
      omega
    · rw [accepted_ok h, rejected_ok h]
      simp [importRow, h]
      omega

/-- The result of a run whose commit goes through. -/
def resultOf (db : Db φ δ) (items : List (Item φ δ)) : ImportResult :=
  ⟨(accepted db items).length, (rejected db items 0).length, rejected db items 0⟩

theorem processImport_dry (now : δ) (db : Db φ δ) (items : List (Item φ δ)) :
    processImport now true db items = (.ok (resultOf db items), db) := by
  simp [processImport, importRow_foldl, resultOf]

theorem processImport_real (now : δ) (db : Db φ δ) (items : List (Item φ δ)) :
    processImport now false db items =
      match (accepted db items).foldlM (insertBattery now) db with
      | .ok db' => (.ok (resultOf db items), db')
      | .error e => (.error e, db) := by
  simp only [processImport, importRow_foldl, resultOf, List.nil_append, Nat.zero_add, and_true]
  by_cases hnone : accepted db items = []
  · rw [hnone, if_neg (fun h => h rfl)]
    rfl
  · rw [if_pos hnone]

/-! ## What is stored -/

/-- The commit takes the values of the row. -/
structure Storable (db : Db φ δ) (item : Item φ δ) : Prop where
  status : (statusOf item.status).isSome
  healthStatus : (healthOf item.healthStatus).isSome
  locationType : (locationTypeOf item.locationType).isSome
  manufacturer : ¬ HasNul item.manufacturer
  notes : ¬ HasNul item.notes
  sku : Refers db.skus item.skuId
  station : Refers db.stations item.stationId

structure Inserted (db : Db φ δ) (item : Item φ δ) (db' : Db φ δ) : Prop where
  added : ∃ b, b.serialNumber = item.serialNumber ∧
    db'.batteries.rows = db.batteries.rows ++ [b]
  skus : db'.skus = db.skus
  stations : db'.stations = db.stations

theorem insertBattery_ok (h : insertBattery now db item = .ok db') :
    Inserted db item db' ∧ Storable db item ∧ ¬ HasNul item.serialNumber ∧
      ∀ b ∈ db.batteries, b.serialNumber ≠ item.serialNumber := by
  unfold insertBattery at h
  split at h
  case h_2 => cases h
  rename_i status health location hstatus hhealth hlocation
  split_ifs at h with hnul hold hrefers
  cases h
  simp only [not_or] at hnul
  exact ⟨⟨⟨_, rfl, rfl⟩, rfl, rfl⟩, ⟨by simp [hstatus], by simp [hhealth], by simp [hlocation],
    hnul.2.1, hnul.2.2, hrefers.1, hrefers.2⟩, hnul.1, fun b hb hserial => hold ⟨b, hb, hserial⟩⟩

theorem insertBattery_of (now : δ) (hstorable : Storable db item)
    (hnul : ¬ HasNul item.serialNumber)
    (hnew : ∀ b ∈ db.batteries, b.serialNumber ≠ item.serialNumber) :
    ∃ db', insertBattery now db item = .ok db' := by
  obtain ⟨status, hstatus⟩ := Option.isSome_iff_exists.mp hstorable.status
  obtain ⟨health, hhealth⟩ := Option.isSome_iff_exists.mp hstorable.healthStatus
  obtain ⟨location, hlocation⟩ := Option.isSome_iff_exists.mp hstorable.locationType
  rcases hrun : insertBattery now db item with e | db'
  · rw [insertBattery, hstatus, hhealth, hlocation] at hrun
    dsimp only at hrun
    rw [if_neg (by simp [hnul, hstorable.manufacturer, hstorable.notes]),
      if_neg (by simpa using hnew), if_pos ⟨hstorable.sku, hstorable.station⟩] at hrun
    cases hrun
  · exact ⟨db', rfl⟩

theorem Inserted.storable_iff {other : Item φ δ} (h : Inserted db item db') :
    Storable db' other ↔ Storable db other := by
  constructor <;> rintro ⟨h₁, h₂, h₃, h₄, h₅, h₆, h₇⟩
  · exact ⟨h₁, h₂, h₃, h₄, h₅, h.skus ▸ h₆, h.stations ▸ h₇⟩
  · exact ⟨h₁, h₂, h₃, h₄, h₅, h.skus.symm ▸ h₆, h.stations.symm ▸ h₇⟩

theorem Inserted.free_iff {serial : String} (h : Inserted db item db') :
    (∀ b ∈ db'.batteries, b.serialNumber ≠ serial) ↔
      (∀ b ∈ db.batteries, b.serialNumber ≠ serial) ∧ item.serialNumber ≠ serial := by
  obtain ⟨b, hb, hrows⟩ := h.added
  simp only [Table.mem_def, hrows, List.mem_append, List.mem_singleton, or_imp, forall_and,
    forall_eq, hb]

/-- **The commit** goes through exactly if every row can be stored, and the serials are new and
different. -/
theorem insertAll_iff (now : δ) (db : Db φ δ) (hnul : ∀ item ∈ items, ¬ HasNul item.serialNumber) :
    (∃ db', items.foldlM (insertBattery now) db = .ok db') ↔
      (∀ item ∈ items, Storable db item) ∧ (items.map Item.serialNumber).Nodup ∧
        ∀ item ∈ items, ∀ b ∈ db.batteries, b.serialNumber ≠ item.serialNumber := by
  induction items generalizing db with
  | nil => exact iff_of_true ⟨db, rfl⟩ ⟨by simp, List.nodup_nil, by simp⟩
  | cons item items ih =>
    have hrest : ∀ {db₁}, _ ↔ _ :=
      fun {db₁} => ih db₁ fun i hi => hnul i (List.mem_cons_of_mem _ hi)
    rw [List.map_cons, List.nodup_cons, List.forall_mem_cons, List.forall_mem_cons]
    constructor
    · rintro ⟨db', h⟩
      rw [List.foldlM_cons] at h
      obtain ⟨db₁, hfirst, hafter⟩ := except_bind_ok.mp h
      obtain ⟨hinserted, hstorable, -, hfree⟩ := insertBattery_ok hfirst
      obtain ⟨hall, hnodup, hnew⟩ := hrest.mp ⟨db', hafter⟩
      refine ⟨⟨hstorable, fun i hi => hinserted.storable_iff.mp (hall i hi)⟩, ⟨?_, hnodup⟩, hfree,
        fun i hi => (hinserted.free_iff.mp (hnew i hi)).1⟩
      intro hmem
      obtain ⟨i, hi, hserial⟩ := List.mem_map.mp hmem
      exact (hinserted.free_iff.mp (hnew i hi)).2 hserial.symm
    · rintro ⟨⟨hstorable, hall⟩, ⟨hnot, hnodup⟩, hfree, hnew⟩
      obtain ⟨db₁, hfirst⟩ := insertBattery_of now hstorable
        (hnul item List.mem_cons_self) hfree
      obtain ⟨hinserted, -⟩ := insertBattery_ok hfirst
      obtain ⟨db', hafter⟩ := hrest.mpr
        ⟨fun i hi => hinserted.storable_iff.mpr (hall i hi), hnodup, fun i hi =>
          hinserted.free_iff.mpr ⟨hnew i hi, fun hserial =>
            hnot (List.mem_map.mpr ⟨i, hi, hserial.symm⟩)⟩⟩
      refine ⟨db', ?_⟩
      rw [List.foldlM_cons]
      exact except_bind_ok.mpr ⟨db₁, hfirst, hafter⟩

theorem insertAll_ok (h : items.foldlM (insertBattery now) db = .ok db') :
    ∃ created, db'.batteries.rows = db.batteries.rows ++ created ∧
      created.map BatteryRow.serialNumber = items.map Item.serialNumber := by
  induction items generalizing db with
  | nil =>
    cases h
    exact ⟨[], (List.append_nil _).symm, rfl⟩
  | cons item items ih =>
    rw [List.foldlM_cons] at h
    obtain ⟨db₁, hfirst, hafter⟩ := except_bind_ok.mp h
    obtain ⟨b, hb, hrows⟩ := (insertBattery_ok hfirst).1.added
    obtain ⟨created, hcreated, hserials⟩ := ih hafter
    exact ⟨b :: created, by rw [hcreated, hrows, List.append_assoc]; rfl, by simp [hb, hserials]⟩

/-! ## The promises -/

/-- The serial of row `i` is in the database, or in an earlier row. -/
def Taken (db : Db φ δ) (items : List (Item φ δ)) (i : ℕ) (item : Item φ δ) : Prop :=
  (∃ b ∈ db.batteries, b.serialNumber = item.serialNumber) ∨
    ∃ j < i, ∃ other, items[j]? = some other ∧ other.serialNumber = item.serialNumber

structure Sound (now : δ) (db : Db φ δ) (items : List (Item φ δ)) (result : ImportResult)
    (db' : Db φ δ) : Prop where
  returns : processImport now false db items = (.ok result, db')
  counts : result.successCount + result.errorCount = items.length
  creates : ∃ created, db'.batteries.rows = db.batteries.rows ++ created ∧
    created.length = result.successCount ∧ (created.map BatteryRow.serialNumber).Nodup
  reports : ∀ i item, items[i]? = some item → Taken db items i item →
    ∃ e ∈ result.errors, e.row = i + 2
  dry : processImport now true db items = (.ok result, db)

/-- **The import** keeps its promises exactly if every accepted row has a serial that no earlier row
has, and values that can be stored. -/
theorem import_sound_iff (now : δ) (db : Db φ δ) (items : List (Item φ δ)) :
    (∃ result db', Sound now db items result db') ↔
      ∀ (i : ℕ) (item : Item φ δ), items[i]? = some item → Accepted db item →
        (∀ j < i, ∀ other : Item φ δ, items[j]? = some other →
          other.serialNumber ≠ item.serialNumber) ∧
          Storable db item := by
  have hnul : ∀ item ∈ accepted db items, ¬ HasNul item.serialNumber :=
    fun item h => (mem_accepted.mp h).2.serial.1
  constructor
  · rintro ⟨result, db', h⟩ i item hat haccepted
    obtain rfl : result = resultOf db items := by
      have hdry := h.dry
      rw [processImport_dry] at hdry
      exact (Except.ok.inj (congrArg Prod.fst hdry)).symm
    constructor
    · intro j hj other hother hserial
      obtain ⟨item', hat', hrejected⟩ := row_mem_rejected.mp
        (h.reports i item hat (.inr ⟨j, hj, other, hother, hserial⟩))
      exact hrejected (Option.some.inj (hat.symm.trans hat') ▸ haccepted)
    · have hstored : ∃ db', (accepted db items).foldlM (insertBattery now) db = .ok db' := by
        have hreal := h.returns
        rw [processImport_real] at hreal
        rcases hrun : (accepted db items).foldlM (insertBattery now) db with e | db₁
        · rw [hrun] at hreal
          cases congrArg Prod.fst hreal
        · exact ⟨db₁, rfl⟩
      exact ((insertAll_iff now db hnul).mp hstored).1 item
        (mem_accepted.mpr ⟨List.mem_of_getElem? hat, haccepted⟩)
  · intro h
    have hserials : ((accepted db items).map Item.serialNumber).Nodup := by
      rw [List.Nodup, List.pairwise_map, accepted, List.pairwise_filter,
        List.pairwise_iff_getElem]
      intro j i hj hi hji _ hok hserial
      exact (h i items[i] (List.getElem?_eq_getElem hi) (isOk_checkItem.mp hok)).1 j hji _
        (List.getElem?_eq_getElem hj) hserial
    obtain ⟨db', hrun⟩ := (insertAll_iff now db hnul).mpr ⟨fun item hitem => by
        obtain ⟨hmem, haccepted⟩ := mem_accepted.mp hitem
        obtain ⟨i, hat⟩ := List.getElem?_of_mem hmem
        exact (h i item hat haccepted).2,
      hserials, fun item hitem => (mem_accepted.mp hitem).2.serial.2⟩
    obtain ⟨created, hrows, hcreated⟩ := insertAll_ok hrun
    refine ⟨resultOf db items, db', ?_, length_accepted_rejected db items 0,
      ⟨created, hrows, ?_, hcreated ▸ hserials⟩, ?_, processImport_dry now db items⟩
    · rw [processImport_real, hrun]
    · simpa [resultOf] using congrArg List.length hcreated
    · rintro i item hat htaken
      refine row_mem_rejected.mpr ⟨item, hat, fun haccepted => ?_⟩
      rcases htaken with ⟨b, hb, hserial⟩ | ⟨j, hj, other, hother, hserial⟩
      · exact haccepted.serial.2 b hb hserial
      · exact (h i item hat haccepted).1 j hj other hother hserial

/-- The same serial twice in one file. -/
def repeatedSerial : List (Item ℚ ℕ) :=
  [{ serialNumber := "BAT-1", healthPercentage := 100 },
    { serialNumber := "BAT-1", healthPercentage := 90 }]

theorem repeated_serial_raises :
    processImport 0 true {} repeatedSerial = (.ok ⟨2, 0, []⟩, {}) ∧
      processImport 0 false {} repeatedSerial = (.error .integrityError, {}) ∧
      ¬ ∃ result db', Sound 0 {} repeatedSerial result db' := by
  have hraises : processImport 0 false {} repeatedSerial = (.error .integrityError, {}) := rfl
  refine ⟨rfl, hraises, ?_⟩
  rintro ⟨result, db', h⟩
  cases hraises.symm.trans h.returns

end WezuBackend.Fleet.BatchImport
