import WezuBackend.Fleet.Model
import Mathlib.Algebra.Ring.Rat
import Mathlib.Data.List.Sort

/-!
# The dealer ledger

`app/services/dealer_ledger_service.py` lists and shows the rentals and commissions of a dealer, and
`app/core/dealer_scope.py` says which of them are the dealer's.  A station belongs to a dealer
profile, a commission to the user who owns the profile; the list looks for commissions by the number
of the profile.  It agrees with the scope check on every request exactly for a dealer without
stations, a profile with the number of its user, and a dealer with neither number on a commission
(`ledger_isolated_iff`).
-/

namespace WezuBackend.Dealers.Ledger

open Lib.Tables Core.Base Core.Text
open Fleet.Model (RentalStatus)

/-! ## Rows -/

/-- A row of `dealer_profiles`. -/
structure DealerProfile where
  id : ℕ
  userId : ℕ
  deriving DecidableEq, Repr

instance : Row DealerProfile ℕ := ⟨DealerProfile.id⟩

/-- A row of `users`. -/
structure User where
  id : ℕ
  fullName : Option String
  phoneNumber : Option String
  deriving DecidableEq, Repr

instance : Row User ℕ := ⟨User.id⟩

/-- A row of `stations`. -/
structure Station where
  id : ℕ
  name : String
  /-- a dealer profile -/
  dealerId : Option ℕ
  deriving DecidableEq, Repr

instance : Row Station ℕ := ⟨Station.id⟩

/-- A row of `rentals`. -/
structure Rental where
  id : ℕ
  userId : ℕ
  batteryId : ℕ
  startStationId : ℕ
  startTime : ℤ
  endTime : Option ℤ
  totalAmount : ℚ
  status : RentalStatus
  createdAt : ℤ
  deriving DecidableEq, Repr

instance : Row Rental ℕ := ⟨Rental.id⟩

/-- A row of `commission_logs`. -/
structure CommissionLog where
  id : ℕ
  /-- a user -/
  dealerId : Option ℕ
  amount : ℚ
  status : String
  createdAt : ℤ
  deriving DecidableEq, Repr

instance : Row CommissionLog ℕ := ⟨CommissionLog.id⟩

/-- A row of `transactions`. -/
structure Transaction where
  id : ℕ
  rentalId : Option ℕ
  paymentGatewayRef : Option String
  paymentMethod : Option String
  deriving DecidableEq, Repr

instance : Row Transaction ℕ := ⟨Transaction.id⟩

/-- The tables the ledger reads. -/
structure Db where
  profiles : Table DealerProfile := .empty
  users : Table User := .empty
  stations : Table Station := .empty
  rentals : Table Rental := .empty
  commissions : Table CommissionLog := .empty
  transactions : Table Transaction := .empty

/-- What the database engine decides. -/
structure Engine where
  /-- `value ILIKE pattern` -/
  ilike : String → String → Bool
  /-- `status IN texts`, of a status as it is stored -/
  statusIn : RentalStatus → List String → Bool

/-! ## The scope check -/

/-- `db.get`, of a number that may be negative. -/
def rowAt {α : Type} [Row α ℕ] (rows : Table α) (id : ℤ) : Option α :=
  if 0 ≤ id then rows.get? id.toNat else none

/-- The stations of a dealer profile. -/
def stationsOf (db : Db) (dealerId : ℕ) : List ℕ :=
  (db.stations.filter fun st => st.dealerId = some dealerId).map Station.id

/-- The stations of the caller. -/
def dealerStationIds (db : Db) (dealer : DealerProfile) : List ℕ := stationsOf db dealer.id

/-- `txn_in_dealer_scope` -/
def txnInDealerScope (db : Db) (dealer : DealerProfile) (kind : String) (dbId : ℤ) : Bool :=
  if kind = "RENTAL" then
    match rowAt db.rentals dbId with
    | none => false
    | some rental => rental.startStationId ∈ dealerStationIds db dealer
  else if kind = "COMM" then
    match rowAt db.commissions dbId with
    | none => false
    | some entry => entry.dealerId = some dealer.userId
  else false

/-! ## The list -/

/-- A line of the ledger. -/
structure LedgerEntry where
  id : String
  transactionId : String
  date : ℤ
  customerName : Option String := none
  customerPhone : Option String := none
  stationName : Option String := none
  batteryId : Option String := none
  type : String
  duration : Option String := none
  amount : ℚ
  status : String
  deriving DecidableEq, Repr

/-- The lines of a page, and the totals of all. -/
structure LedgerResponse where
  data : List LedgerEntry
  total : ℕ
  totalAmount : ℚ

/-- The filters of the query string. -/
structure Filters where
  startDate : Option ℤ := none
  endDate : Option ℤ := none
  txnTypes : Option (List String) := none
  stationId : Option ℕ := none
  search : Option String := none
  amountMin : Option ℚ := none
  amountMax : Option ℚ := none
  statusTypes : Option (List String) := none

/-- `not txn_types or type in txn_types`. -/
def Filters.wants (f : Filters) (type : String) : Bool :=
  f.txnTypes.getD [] = [] ∨ type ∈ f.txnTypes.getD []

/-- The dates and amounts that are asked for. -/
def Filters.within (f : Filters) (createdAt : ℤ) (amount : ℚ) : Bool :=
  (∀ d ∈ f.startDate, d ≤ createdAt) ∧ (∀ d ∈ f.endDate, createdAt ≤ d) ∧
    (∀ a ∈ f.amountMin, a ≤ amount) ∧ ∀ a ∈ f.amountMax, amount ≤ a

/-- `text.replace(pattern, "")`, where the next `skip` characters belong to an occurrence. -/
def removeFrom (pattern : List Char) : ℕ → List Char → List Char
  | _, [] => []
  | skip + 1, _ :: cs => removeFrom pattern skip cs
  | 0, c :: cs =>
    if pattern.isPrefixOf (c :: cs) then removeFrom pattern (pattern.length - 1) cs
    else c :: removeFrom pattern 0 cs

/-- `text.replace(pattern, "")` -/
def remove (pattern text : String) : String :=
  String.ofList (removeFrom pattern.toList 0 text.toList)

/-- The statuses of a column that the standard ones stand for. -/
def mapped (completed pending : String) (statusTypes : List String) : List String :=
  statusTypes.flatMap fun s =>
    if s = "completed" then [completed] else if s = "pending" then [pending] else []

/-- The search's test on a rental. -/
def rentalSearched (engine : Engine) (db : Db) (search : String) (r : Rental) : Bool :=
  match intOfText (remove "bat-" (remove "txn-r" (lower search))) with
  | .ok searchId => (r.id : ℤ) = searchId ∨ (r.batteryId : ℤ) = searchId
  | .error _ =>
    -- the join is an inner one, and the pattern matches no NULL
    match (db.users.get? r.userId).bind User.fullName with
    | none => false
    | some fullName => engine.ilike fullName ("%" ++ search ++ "%")

/-- The search's test on a commission. -/
def commissionSearched (search : String) (c : CommissionLog) : Bool :=
  match intOfText (remove "txn-c" (lower search)) with
  | .ok searchId => (c.id : ℤ) = searchId
  | .error _ => true

/-- A rental passes the filters. -/
def rentalAsked (engine : Engine) (db : Db) (f : Filters) (r : Rental) : Bool :=
  f.within r.createdAt r.totalAmount ∧
    (mapped "completed" "active" (f.statusTypes.getD []) = [] ∨
      engine.statusIn r.status (mapped "completed" "active" (f.statusTypes.getD []))) ∧
    ∀ search ∈ truthy f.search, rentalSearched engine db search r

/-- A commission passes the filters. -/
def commissionAsked (f : Filters) (c : CommissionLog) : Bool :=
  f.within c.createdAt c.amount ∧
    (mapped "paid" "pending" (f.statusTypes.getD []) = [] ∨
      c.status ∈ mapped "paid" "pending" (f.statusTypes.getD [])) ∧
    ∀ search ∈ truthy f.search, commissionSearched search c

/-- `order_by(desc(date)).offset(skip).limit(limit)`. -/
def page {α : Type} (date : α → ℤ) (rows : List α) (skip limit : ℕ) : List α :=
  ((rows.mergeSort fun x y => date y ≤ date x).drop skip).take limit

/-- In microseconds. -/
def minute : ℤ := 60000000

/-- How long a rental took. -/
def durationText (startTime endTime : ℤ) : String :=
  toString ((endTime - startTime) / (60 * minute)) ++ "h " ++
    toString ((endTime - startTime) % (60 * minute) / minute) ++ "m"

/-- `str.capitalize`, of the text of a status. -/
def capitalize (text : String) : String :=
  match text.toList with
  | [] => ""
  | c :: cs => String.ofList (c.toUpper :: cs.map Char.toLower)

/-- The id a row is listed under. -/
def entryId (kind : String) (id : ℕ) : String := kind ++ "-" ++ toString id

/-- The name of the station the rental started at. -/
def stationName (db : Db) (r : Rental) : String :=
  ((db.stations.get? r.startStationId).map Station.name).getD "Unknown"

/-- The name of the user who rents. -/
def customerName (db : Db) (r : Rental) : Option String :=
  match db.users.get? r.userId with
  | none => some "Unknown"
  | some user => user.fullName

/-- The phone number of the user who rents. -/
def customerPhone (db : Db) (r : Rental) : Option String :=
  (db.users.get? r.userId).bind User.phoneNumber

/-- The line of a rental. -/
def rentalEntry (db : Db) (r : Rental) : LedgerEntry where
  id := entryId "RENTAL" r.id
  transactionId := "TXN-R" ++ toString r.id
  date := r.createdAt
  customerName := customerName db r
  customerPhone := customerPhone db r
  stationName := some (stationName db r)
  batteryId := some ("BAT-" ++ toString r.batteryId)
  type := "Rental Income"
  duration := r.endTime.map (durationText r.startTime)
  amount := r.totalAmount
  status := capitalize r.status.text

/-- The line of a commission. -/
def commissionEntry (c : CommissionLog) : LedgerEntry where
  id := entryId "COMM" c.id
  transactionId := "TXN-C" ++ toString c.id
  date := c.createdAt
  type := "Commission"
  amount := c.amount
  status := if c.status = "paid" then "Completed" else "Pending"

/-- The dealer's stations, or the one asked for. -/
def chosenStations (db : Db) (dealerId : ℕ) (f : Filters) : List ℕ :=
  (stationsOf db dealerId).filter fun id => ∀ k ∈ f.stationId, k ≠ 0 → id = k

/-- The lines of the rentals read for a page. -/
def rentalEntries (engine : Engine) (db : Db) (stationIds : List ℕ) (f : Filters)
    (limit skip : ℕ) : List LedgerEntry :=
  -- the rentals are also read for penalties, which nothing is listed for
  if f.wants "Rental Income" then
    (page Rental.createdAt (db.rentals.filter fun r =>
      r.startStationId ∈ stationIds ∧ rentalAsked engine db f r) skip limit).map (rentalEntry db)
  else []

/-- The lines of the commissions read for a page. -/
def commissionEntries (db : Db) (dealerId : ℕ) (f : Filters) (limit skip : ℕ) :
    List LedgerEntry :=
  if f.wants "Commission" then
    (page CommissionLog.createdAt (db.commissions.filter fun c =>
      c.dealerId = some dealerId ∧ commissionAsked f c) skip limit).map commissionEntry
  else []

/-- `get_ledger_entries` -/
def getLedgerEntries (engine : Engine) (db : Db) (dealerId : ℕ) (f : Filters) (limit skip : ℕ) :
    LedgerResponse :=
  let stationIds := chosenStations db dealerId f
  if stationIds.isEmpty then ⟨[], 0, 0⟩
  else
    let entries := rentalEntries engine db stationIds f limit skip ++
      commissionEntries db dealerId f limit skip
    let paginated := (entries.mergeSort fun x y => y.date ≤ x.date).take limit
    ⟨paginated, entries.length, (paginated.map LedgerEntry.amount).sum⟩

/-! ## The detail view -/

/-- A step in the course of a rental or a commission. -/
structure TimelineEvent where
  name : String
  status : String
  date : Option ℤ
  deriving DecidableEq, Repr

/-- What one line of the ledger opens to. -/
structure LedgerDetailResponse where
  id : String
  transactionId : String
  date : ℤ
  customerName : Option String
  customerPhone : Option String
  batteryId : Option String
  stationName : Option String
  terminalNumber : Option String
  rentalStartTime : Option ℤ
  rentalEndTime : Option ℤ
  duration : Option String
  grossAmount : ℚ
  platformFee : ℚ
  commissionRate : ℚ
  commissionAmount : ℚ
  netAmount : ℚ
  paymentMethod : Option String
  paymentGatewayRef : Option String
  settlementStatus : String
  expectedSettlementDate : Option ℤ
  type : String
  status : String
  events : List TimelineEvent

/-- The name of a member of `RentalStatus`. -/
def statusName (status : RentalStatus) : String :=
  String.ofList (status.text.toList.map Char.toUpper)

/-- The detail of a rental. -/
def rentalDetail (db : Db) (entry : String) (r : Rental) (now : ℤ) : LedgerDetailResponse :=
  let txn := db.transactions.find? fun t => t.rentalId = some r.id
  let completed : Bool := r.status = .completed
  { id := entry
    transactionId := "TXN-R" ++ toString r.id
    date := r.createdAt
    customerName := customerName db r
    customerPhone := customerPhone db r
    batteryId := some ("BAT-" ++ toString r.batteryId)
    stationName := some (stationName db r)
    terminalNumber := some "Slot 1"
    rentalStartTime := some r.startTime
    rentalEndTime := r.endTime
    duration := r.endTime.map (durationText r.startTime)
    grossAmount := r.totalAmount
    platformFee := r.totalAmount * (1 / 10)
    commissionRate := 0
    commissionAmount := 0
    netAmount := r.totalAmount * (9 / 10)
    paymentMethod := txn.bind Transaction.paymentMethod
    paymentGatewayRef := txn.bind Transaction.paymentGatewayRef
    settlementStatus := "Pending"
    expectedSettlementDate := some (now + 2 * 24 * 60 * minute)
    type := "Rental Income"
    status := if completed then "Completed" else statusName r.status
    events :=
      [⟨"Rental Started", "completed", some r.startTime⟩,
        ⟨"Payment Captured", if completed then "completed" else "pending",
          some (r.endTime.getD r.createdAt)⟩,
        ⟨"Settlement Queued", "pending", some now⟩] }

/-- The error of an id that opens nothing. -/
def notFound : Exc := .valueError "Not found"

/-- `entry_id.split("-", 1)`, and the number after the dash. -/
def parsedEntry (entry : String) : Option (String × ℤ) :=
  let cs := entry.toList
  match cs.dropWhile (· ≠ '-') with
  | [] => none
  | _ :: rest =>
    ((intOfText (String.ofList rest)).toOption).map fun n =>
      (String.ofList (cs.takeWhile (· ≠ '-')), n)

/-- `get_ledger_detail` -/
def getLedgerDetail (db : Db) (dealerId : ℕ) (entry : String) (now : ℤ) :
    Except Exc LedgerDetailResponse :=
  match parsedEntry entry with
  | none => .error notFound
  | some (kind, dbId) =>
    if kind = "RENTAL" then
      match rowAt db.rentals dbId with
      | none => .error notFound
      | some r =>
        if r.startStationId ∈ stationsOf db dealerId then .ok (rentalDetail db entry r now)
        else .error notFound
    else if kind = "COMM" then
      match rowAt db.commissions dbId with
      | none => .error notFound
      | some c =>
        if c.dealerId ≠ (db.profiles.get? dealerId).map DealerProfile.userId then .error notFound
        else .error (.valueError "Unsupported detail view for this type")
    else .error notFound

/-! ## What is listed -/

theorem rowAt_natCast {α : Type} [Row α ℕ] (rows : Table α) (id : ℕ) :
    rowAt rows id = rows.get? id := by simp [rowAt]

theorem mem_of_mem_page {α : Type} {date : α → ℤ} {rows : List α} {skip limit : ℕ} {x : α}
    (h : x ∈ page date rows skip limit) : x ∈ rows :=
  List.mem_mergeSort.mp (List.mem_of_mem_drop (List.mem_of_mem_take h))

variable {limit : ℕ}

theorem mem_page {α : Type} {date : α → ℤ} {rows : List α} {x : α}
    (h : rows.length ≤ limit) : x ∈ page date rows 0 limit ↔ x ∈ rows := by
  rw [page, List.drop_zero, List.take_of_length_le (by rwa [List.length_mergeSort]),
    List.mem_mergeSort]

theorem length_page_le {α : Type} (date : α → ℤ) (rows : List α) (skip limit : ℕ) :
    (page date rows skip limit).length ≤ rows.length := by
  simp only [page, List.length_take, List.length_drop, List.length_mergeSort]
  omega

variable {f : Filters}

theorem mem_chosenStations {db : Db} {dealerId id : ℕ}
    (h : id ∈ chosenStations db dealerId f) : id ∈ stationsOf db dealerId :=
  List.mem_of_mem_filter h

theorem chosenStations_default (db : Db) (dealerId : ℕ) :
    chosenStations db dealerId {} = stationsOf db dealerId :=
  List.filter_eq_self.mpr fun _ _ => by simp

section

variable {engine : Engine} {db : Db} {dealerId : ℕ}

variable {e : LedgerEntry}

theorem entry_of_mem {limit skip : ℕ}
    (h : e ∈ (getLedgerEntries engine db dealerId f limit skip).data) :
    (∃ r ∈ db.rentals, r.startStationId ∈ stationsOf db dealerId ∧ e = rentalEntry db r) ∨
      ∃ c ∈ db.commissions, c.dealerId = some dealerId ∧ e = commissionEntry c := by
  simp only [getLedgerEntries] at h
  split_ifs at h
  · cases h
  rcases List.mem_append.mp (List.mem_mergeSort.mp (List.mem_of_mem_take h)) with h | h
  · unfold rentalEntries at h
    split_ifs at h
    · obtain ⟨r, hr, rfl⟩ := List.mem_map.mp h
      obtain ⟨hr, hasked⟩ := Table.mem_filter.mp (mem_of_mem_page hr)
      rw [decide_eq_true_eq] at hasked
      exact .inl ⟨r, hr, mem_chosenStations hasked.1, rfl⟩
    · cases h
  · unfold commissionEntries at h
    split_ifs at h
    · obtain ⟨c, hc, rfl⟩ := List.mem_map.mp h
      obtain ⟨hc, hasked⟩ := Table.mem_filter.mp (mem_of_mem_page hc)
      rw [decide_eq_true_eq] at hasked
      exact .inr ⟨c, hc, hasked.1, rfl⟩
    · cases h

theorem length_filter_le (rows : List LedgerEntry) (limit : ℕ) (h : rows.length ≤ limit)
    (e : LedgerEntry) :
    e ∈ (rows.mergeSort fun x y => y.date ≤ x.date).take limit ↔ e ∈ rows := by
  rw [List.take_of_length_le (by rwa [List.length_mergeSort]), List.mem_mergeSort]

theorem mem_default (hstations : stationsOf db dealerId ≠ [])
    (hlimit : db.rentals.rows.length + db.commissions.rows.length ≤ limit) :
    e ∈ (getLedgerEntries engine db dealerId {} limit 0).data ↔
      (∃ r ∈ db.rentals, r.startStationId ∈ stationsOf db dealerId ∧ e = rentalEntry db r) ∨
      ∃ c ∈ db.commissions, c.dealerId = some dealerId ∧ e = commissionEntry c := by
  refine ⟨entry_of_mem, fun h => ?_⟩
  have hrentals : ∀ p : Rental → Bool, (db.rentals.filter p).length ≤ db.rentals.rows.length :=
    fun p => List.length_filter_le p _
  have hcommissions : ∀ p : CommissionLog → Bool,
      (db.commissions.filter p).length ≤ db.commissions.rows.length :=
    fun p => List.length_filter_le p _
  unfold getLedgerEntries
  rw [chosenStations_default, if_neg (by simpa using hstations)]
  refine (length_filter_le _ limit ?_ e).mpr (List.mem_append.mpr ?_)
  · have hr := length_page_le Rental.createdAt (db.rentals.filter fun r =>
      r.startStationId ∈ stationsOf db dealerId ∧ rentalAsked engine db {} r) 0 limit
    have hc := length_page_le CommissionLog.createdAt (db.commissions.filter fun c =>
      c.dealerId = some dealerId ∧ commissionAsked {} c) 0 limit
    simp only [rentalEntries, commissionEntries, Filters.wants, Option.getD_none, true_or,
      decide_true, if_true, List.length_append, List.length_map]
    have := hrentals fun r => r.startStationId ∈ stationsOf db dealerId ∧ rentalAsked engine db {} r
    have := hcommissions fun c => c.dealerId = some dealerId ∧ commissionAsked {} c
    omega
  · rcases h with ⟨r, hr, hstation, rfl⟩ | ⟨c, hc, hdealer, rfl⟩
    · refine .inl ?_
      simp only [rentalEntries, Filters.wants, Option.getD_none, true_or, decide_true, if_true]
      refine List.mem_map_of_mem ((mem_page ?_).mpr (Table.mem_filter.mpr ⟨hr, ?_⟩))
      · exact (hrentals _).trans (by omega)
      · simp [hstation, rentalAsked, Filters.within, mapped, truthy]
    · refine .inr ?_
      simp only [commissionEntries, Filters.wants, Option.getD_none, true_or, decide_true, if_true]
      refine List.mem_map_of_mem ((mem_page ?_).mpr (Table.mem_filter.mpr ⟨hc, ?_⟩))
      · exact (hcommissions _).trans (by omega)
      · simp [hdealer, commissionAsked, Filters.within, mapped, truthy]

end

/-! ## The list and the scope check -/

/-- The id is one the scope check admits. -/
def Accepted (db : Db) (dealer : DealerProfile) (entry : String) : Prop :=
  ∃ kind, ∃ id : ℕ, entry = entryId kind id ∧ txnInDealerScope db dealer kind id = true

variable {dealer : DealerProfile}

variable {id : ℕ}

theorem scope_rental {db : Db} :
    txnInDealerScope db dealer "RENTAL" id = true ↔
      ∃ r ∈ db.rentals, r.id = id ∧ r.startStationId ∈ stationsOf db dealer.id := by
  rw [txnInDealerScope, if_pos rfl, rowAt_natCast]
  cases hr : db.rentals.get? id with
  | none =>
    rw [Table.get?_eq_none] at hr
    simp only [Bool.false_eq_true, false_iff]
    rintro ⟨r, hmem, hid, -⟩
    exact hr r hmem hid
  | some r =>
    obtain ⟨hmem, hid⟩ := Table.get?_eq_some.mp hr
    rw [dealerStationIds, decide_eq_true_eq]
    constructor
    · exact fun h => ⟨r, hmem, hid, h⟩
    · rintro ⟨x, hx, hxid, h⟩
      rwa [Table.eq_of_key hx hmem (hxid.trans hid.symm)] at h

theorem scope_commission {db : Db} :
    txnInDealerScope db dealer "COMM" id = true ↔
      ∃ c ∈ db.commissions, c.id = id ∧ c.dealerId = some dealer.userId := by
  rw [txnInDealerScope, if_neg (by decide), if_pos rfl, rowAt_natCast]
  cases hc : db.commissions.get? id with
  | none =>
    rw [Table.get?_eq_none] at hc
    simp only [Bool.false_eq_true, false_iff]
    rintro ⟨c, hmem, hid, -⟩
    exact hc c hmem hid
  | some c =>
    obtain ⟨hmem, hid⟩ := Table.get?_eq_some.mp hc
    rw [decide_eq_true_eq]
    constructor
    · exact fun h => ⟨c, hmem, hid, h⟩
    · rintro ⟨x, hx, hxid, h⟩
      rwa [Table.eq_of_key hx hmem (hxid.trans hid.symm)] at h

variable {kind : String}

theorem kind_of_scope {db : Db} {id : ℤ}
    (h : txnInDealerScope db dealer kind id = true) : kind = "RENTAL" ∨ kind = "COMM" := by
  unfold txnInDealerScope at h
  split_ifs at h with hrental hcomm
  · exact .inl hrental
  · exact .inr hcomm

theorem entryId_inj {m n : ℕ} (h : entryId kind m = entryId kind n) : m = n := by
  have hlist := congrArg String.toList h
  simp only [entryId, String.toList_append, List.append_assoc, List.append_cancel_left_eq] at hlist
  exact eq_of_toString_eq (String.toList_injective hlist)

theorem rental_ne_comm (m n : ℕ) : entryId "RENTAL" m ≠ entryId "COMM" n := by
  intro h
  have hhead := congrArg (fun s : String => s.toList.head?) h
  simp [entryId] at hhead

/-- An entry that the scope check accepts names a rental at a station of the dealer, or a commission
of the user. -/
theorem accepted_rental {db : Db} {r : Rental} (hr : r ∈ db.rentals) :
    Accepted db dealer (entryId "RENTAL" r.id) ↔ r.startStationId ∈ stationsOf db dealer.id := by
  constructor
  · rintro ⟨kind, id, hid, hscope⟩
    rcases kind_of_scope hscope with rfl | rfl
    · obtain ⟨x, hx, hxid, hstation⟩ := scope_rental.mp hscope
      rwa [Table.eq_of_key hx hr (hxid.trans (entryId_inj hid).symm)] at hstation
    · exact absurd hid (rental_ne_comm r.id id)
  · exact fun h => ⟨"RENTAL", r.id, rfl, scope_rental.mpr ⟨r, hr, rfl, h⟩⟩

theorem accepted_commission {db : Db} {c : CommissionLog} (hc : c ∈ db.commissions) :
    Accepted db dealer (entryId "COMM" c.id) ↔ c.dealerId = some dealer.userId := by
  constructor
  · rintro ⟨kind, id, hid, hscope⟩
    rcases kind_of_scope hscope with rfl | rfl
    · exact absurd hid.symm (rental_ne_comm id c.id)
    · obtain ⟨x, hx, hxid, hdealer⟩ := scope_commission.mp hscope
      rwa [Table.eq_of_key hx hc (hxid.trans (entryId_inj hid).symm)] at hdealer
  · exact fun h => ⟨"COMM", c.id, rfl, scope_commission.mpr ⟨c, hc, rfl, h⟩⟩

/-- Every entry of every list of the dealer is one that the scope check accepts. -/
def Sound (engine : Engine) (db : Db) (dealer : DealerProfile) : Prop :=
  ∀ f limit skip, ∀ e ∈ (getLedgerEntries engine db dealer.id f limit skip).data,
    Accepted db dealer e.id

/-- Without filters, and on a page that is large enough, a dealer with a station finds every rental
and commission that the scope check accepts. -/
def Complete (engine : Engine) (db : Db) (dealer : DealerProfile) : Prop :=
  dealerStationIds db dealer ≠ [] →
    ∀ limit, db.rentals.rows.length + db.commissions.rows.length ≤ limit →
      ∀ kind, ∀ id : ℕ, txnInDealerScope db dealer kind id = true →
        ∃ e ∈ (getLedgerEntries engine db dealer.id {} limit 0).data, e.id = entryId kind id

/-- Some commission is stored for that number. -/
def Commissioned (db : Db) (number : ℕ) : Prop := ∃ c ∈ db.commissions, c.dealerId = some number

/-- **The list agrees with the scope check** exactly if the dealer has no station, the profile has
the number of its user, or no commission bears either number. -/
theorem ledger_isolated_iff (engine : Engine) (db : Db) (dealer : DealerProfile) :
    Sound engine db dealer ∧ Complete engine db dealer ↔
      dealerStationIds db dealer = [] ∨ dealer.id = dealer.userId ∨
        ¬ Commissioned db dealer.id ∧ ¬ Commissioned db dealer.userId := by
  constructor
  · rintro ⟨hsound, hcomplete⟩
    rcases eq_or_ne (dealerStationIds db dealer) [] with hnone | hstations
    · exact .inl hnone
    rcases eq_or_ne dealer.id dealer.userId with heq | hne
    · exact .inr (.inl heq)
    refine .inr (.inr ⟨?_, ?_⟩)
    · rintro ⟨c, hc, hdealer⟩
      have hlisted : commissionEntry c ∈ (getLedgerEntries engine db dealer.id {} _ 0).data :=
        (mem_default hstations (Nat.le_refl _)).mpr (.inr ⟨c, hc, hdealer, rfl⟩)
      have huser := (accepted_commission hc).mp (hsound _ _ _ _ hlisted)
      exact hne (Option.some.inj (hdealer.symm.trans huser))
    · rintro ⟨c, hc, huser⟩
      obtain ⟨e, he, hid⟩ := hcomplete hstations _ (Nat.le_refl _) "COMM" c.id
        (scope_commission.mpr ⟨c, hc, rfl, huser⟩)
      rcases entry_of_mem he with ⟨r, -, -, rfl⟩ | ⟨x, hx, hdealer, rfl⟩
      · exact rental_ne_comm _ _ hid
      · obtain rfl : x = c := Table.eq_of_key hx hc (entryId_inj hid)
        exact hne (Option.some.inj (hdealer.symm.trans huser))
  · intro hcond
    constructor
    · intro f limit skip e he
      have hstation : dealerStationIds db dealer ≠ [] := by
        intro hnone
        have hchosen : chosenStations db dealer.id f = [] := by
          rw [chosenStations, show stationsOf db dealer.id = [] from hnone, List.filter_nil]
        rw [getLedgerEntries, hchosen, List.isEmpty_nil, if_pos rfl] at he
        cases he
      rcases entry_of_mem he with ⟨r, hr, hmem, rfl⟩ | ⟨c, hc, hdealer, rfl⟩
      · exact (accepted_rental hr).mpr hmem
      · refine (accepted_commission hc).mpr ?_
        rcases hcond with hnone | heq | ⟨hnot, -⟩
        · exact absurd hnone hstation
        · rw [hdealer, heq]
        · exact absurd ⟨c, hc, hdealer⟩ hnot
    · intro hstations limit hlimit kind id hscope
      rcases kind_of_scope hscope with rfl | rfl
      · obtain ⟨r, hr, rfl, hmem⟩ := scope_rental.mp hscope
        exact ⟨rentalEntry db r, (mem_default hstations hlimit).mpr (.inl ⟨r, hr, hmem, rfl⟩), rfl⟩
      · obtain ⟨c, hc, rfl, huser⟩ := scope_commission.mp hscope
        refine ⟨commissionEntry c, (mem_default hstations hlimit).mpr (.inr ⟨c, hc, ?_, rfl⟩), rfl⟩
        rcases hcond with hnone | heq | ⟨-, hnot⟩
        · exact absurd hnone hstations
        · rw [huser, heq]
        · exact absurd ⟨c, hc, huser⟩ hnot

/-- A detail is shown exactly for the rentals that the scope check accepts. -/
theorem detail_shown_iff {db : Db} {entry : String} {now : ℤ} :
    (∃ detail, getLedgerDetail db dealer.id entry now = .ok detail) ↔
      ∃ dbId, parsedEntry entry = some ("RENTAL", dbId) ∧
        txnInDealerScope db dealer "RENTAL" dbId = true := by
  unfold getLedgerDetail txnInDealerScope
  simp only [if_true, dealerStationIds]
  rcases parsedEntry entry with _ | ⟨kind, dbId⟩
  · simp
  by_cases hkind : kind = "RENTAL"
  · subst hkind
    cases hr : rowAt db.rentals dbId with
    | none => simp [hr]
    | some r => by_cases hstation : r.startStationId ∈ stationsOf db dealer.id <;>
        simp [hr, hstation]
  · have hnone : ∀ c : CommissionLog, ∀ detail : LedgerDetailResponse,
        (if c.dealerId ≠ (db.profiles.get? dealer.id).map DealerProfile.userId then
          .error notFound
        else .error (.valueError "Unsupported detail view for this type") : Except Exc _) ≠
          .ok detail := by
      intro c detail
      split_ifs <;> simp
    simp only [hkind, if_false, Option.some.injEq, Prod.mk.injEq, false_and, exists_false,
      iff_false]
    rintro ⟨detail, hdetail⟩
    by_cases hcomm : kind = "COMM"
    · rw [if_pos hcomm] at hdetail
      rcases hrow : rowAt db.commissions dbId with _ | c
      · simp [hrow] at hdetail
      · rw [hrow] at hdetail
        exact hnone c detail hdetail
    · simp [hcomm] at hdetail

/-! ## A profile and a user of one number -/

/-- A database that matches nothing, and compares texts as they stand. -/
def sampleEngine : Engine := ⟨fun _ _ => false, fun status texts => status.text ∈ texts⟩

/-- Profile 4 belongs to user 7, and profile 7 to user 4; each user has earned a commission. -/
def crossed : Db where
  profiles := ⟨[⟨4, 7⟩, ⟨7, 4⟩], by decide⟩
  stations := ⟨[⟨1, "North", some 4⟩], by decide⟩
  commissions := ⟨[⟨1, some 7, 50, "paid", 10⟩, ⟨2, some 4, 80, "pending", 20⟩], by decide⟩

theorem commission_of_another :
    ¬ (Sound sampleEngine crossed ⟨4, 7⟩ ∧ Complete sampleEngine crossed ⟨4, 7⟩) := by
  rintro ⟨hsound, -⟩
  have hmem : commissionEntry ⟨2, some 4, 80, "pending", 20⟩ ∈
      (getLedgerEntries sampleEngine crossed 4 {} 2 0).data :=
    (mem_default (by decide) (by decide)).mpr (.inr ⟨_, .tail _ (.head _), rfl, rfl⟩)
  have hrow : (⟨2, some 4, 80, "pending", 20⟩ : CommissionLog) ∈ crossed.commissions :=
    .tail _ (.head _)
  exact absurd ((accepted_commission hrow).mp (hsound {} 2 0 _ hmem)) (by decide)

end WezuBackend.Dealers.Ledger
