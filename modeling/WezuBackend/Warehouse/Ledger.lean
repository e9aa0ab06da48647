import WezuBackend.Warehouse.Service
import WezuBackend.Lib.Runs

/-!
# The warehouse ledger

A stock row is in order (`InOrder`) if what is on hand is what is available, reserved or damaged,
and nothing of it is negative; it is booked if what is available is what came in less what went out.

Every request posts at most two movements, each with a change of its row (`post`).  From a ledger in
which all rows are in order and booked, a post keeps it so if and only if the new row is in order
and its availability has moved by the movement (`accounted_post_iff`); so each request has an exact
condition (`Meets`), and the ledger is kept in a run if and only if each of its requests meets it
(`ledger_kept_iff`).  A transfer keeps the units of each product whatever it is asked for
(`transfer_total`).
-/

namespace WezuBackend.Warehouse.Ledger

open Lib.Tables Lib.Runs Lib.Atomicity Lib.Atomicity.Tx Warehouse.Service

/-- Nothing is negative, and the units on hand add up. -/
structure InOrder (s : Stock) : Prop where
  onHand : s.quantityOnHand = s.quantityAvailable + s.quantityReserved + s.quantityDamaged
  onHand_nonneg : 0 ≤ s.quantityOnHand
  available_nonneg : 0 ≤ s.quantityAvailable
  reserved_nonneg : 0 ≤ s.quantityReserved
  damaged_nonneg : 0 ≤ s.quantityDamaged

def signed (direction : StockMovementDirection) (quantity : ℤ) : ℤ :=
  if direction = .inward then quantity else -quantity

/-- What came in less what went out, by the movements of the row. -/
def balance (stockId : ℕ) (db : Db) : ℤ :=
  db.movements.sum fun m => if m.stockId = stockId then signed m.direction m.quantity else 0

/-- All rows are in order and booked. -/
structure Accounted (db : Db) : Prop where
  inOrder : ∀ s ∈ db.stocks, InOrder s
  booked : ∀ s ∈ db.stocks, s.quantityAvailable = balance s.id db

/-- Each movement belongs to a row. -/
def Linked (db : Db) : Prop := ∀ m ∈ db.movements, ∃ s ∈ db.stocks, s.id = m.stockId

structure Books (db : Db) : Prop extends Accounted db where
  linked : Linked db

/-- The units of the product on hand in all warehouses. -/
def total (productId : ℕ) (db : Db) : ℤ :=
  db.stocks.sum fun s => if s.productId = productId then s.quantityOnHand else 0

def available (warehouseId productId : ℕ) (db : Db) : ℤ :=
  (stockOf warehouseId productId db).elim 0 Stock.quantityAvailable

/-- There is a row, or it can be created. -/
def Stocking (warehouseId productId : ℕ) (db : Db) : Prop :=
  stockOf warehouseId productId db = none → Known warehouseId productId db

/-- What an adjustment needs of its row. -/
def Adjusts (s : Stock) (quantity : ℤ) : StockTransactionType → Prop
  | .damaged => quantity ≤ s.quantityAvailable → 0 ≤ s.quantityDamaged + quantity
  | .adjustmentAdd => 0 ≤ s.quantityAvailable + quantity
  | .adjustmentSub => True
  | _ => quantity = 0

/-- The condition under which a request keeps the ledger. -/
def Meets (db : Db) : Request → Prop
  | .receive request _ => Stocking request.warehouseId request.productId db →
      0 ≤ available request.warehouseId request.productId db + request.quantity
  | .transfer request _ => (sourceOf request db).isSome →
      request.fromWarehouseId ≠ request.toWarehouseId →
      Stocking request.toWarehouseId request.productId db →
      0 ≤ available request.toWarehouseId request.productId db + request.quantity
  | .adjust request _ => ∀ s ∈ stockOf request.warehouseId request.productId db,
      Adjusts s request.quantity request.type

/-! ## Rows and movements -/

variable {m : MovementData} {s : Stock}

section

variable {db : Db}

variable {w p : ℕ}

theorem stockOf_mem (h : stockOf w p db = some s) :
    s ∈ db.stocks ∧ s.warehouseId = w ∧ s.productId = p := by
  exact Table.find?_spec h

/-- **A post** keeps the ledger if and only if its row is in order and has moved by the movement. -/
theorem accounted_post_iff (h : Accounted db) {s s' : Stock} (hs : s ∈ db.stocks)
    (hid : s'.id = s.id) : Accounted (post s' m db) ↔
      InOrder s' ∧ s'.quantityAvailable = s.quantityAvailable + signed m.direction m.quantity := by
  have hmem : ∀ x, x ∈ (post s' m db).stocks ↔ (x ∈ db.stocks ∧ x.id ≠ s'.id) ∨ x = s' := by
    intro x
    have hset : x ∈ (post s' m db).stocks ↔ _ := Table.mem_set
    have hold : ∃ y ∈ db.stocks, Row.key y = Row.key s' := ⟨s, hs, hid.symm⟩
    rw [hset, and_iff_left hold]
    rfl
  have hbalance : ∀ k, balance k (post s' m db) =
      balance k db + if s'.id = k then signed m.direction m.quantity else 0 := fun k =>
    Table.sum_add_mk (key_newMovement s'.id m) _
  have hnew : s'.quantityAvailable = balance s'.id (post s' m db) ↔
      s'.quantityAvailable = s.quantityAvailable + signed m.direction m.quantity := by
    rw [hbalance, if_pos rfl, hid, ← h.booked s hs]
  constructor
  · intro hpost
    exact ⟨hpost.inOrder s' ((hmem s').mpr (.inr rfl)),
      hnew.mp (hpost.booked s' ((hmem s').mpr (.inr rfl)))⟩
  · rintro ⟨horder, hmoved⟩
    constructor
    · intro x hx
      rcases (hmem x).mp hx with ⟨hx, -⟩ | rfl
      · exact h.inOrder x hx
      · exact horder
    · intro x hx
      rcases (hmem x).mp hx with ⟨hx, hne⟩ | rfl
      · rw [hbalance, if_neg (Ne.symm hne), add_zero]
        exact h.booked x hx
      · exact hnew.mpr hmoved

theorem linked_post (h : Linked db) {s s' : Stock} (hs : s ∈ db.stocks)
    (hid : s'.id = s.id) : Linked (post s' m db) := by
  have hkeep : ∀ k, (∃ x ∈ db.stocks, x.id = k) → ∃ x ∈ (post s' m db).stocks, x.id = k := by
    rintro k ⟨x, hx, rfl⟩
    by_cases hk : x.id = s'.id
    · exact ⟨s', Table.mem_set.mpr (.inr ⟨rfl, s, hs, hid.symm⟩), hk.symm⟩
    · exact ⟨x, Table.mem_set.mpr (.inl ⟨hx, hk⟩), rfl⟩
  intro x hx
  rcases (Table.mem_add_mk (key_newMovement s'.id m)).mp hx with hx | rfl
  · exact hkeep _ (h x hx)
  · exact hkeep _ ⟨s, hs, hid.symm⟩

theorem inOrder_newStock (w p id : ℕ) : InOrder (newStock w p id) := by
  constructor <;> simp [newStock]

theorem mem_withStock : s ∈ (withStock w p db).stocks ↔
    s ∈ db.stocks ∨ s = newStock w p db.stocks.freshKey :=
  Table.mem_add_mk (key_newStock w p)

theorem accounted_withStock (h : Accounted db) (hl : Linked db) (w p : ℕ) :
    Accounted (withStock w p db) := by
  constructor
  · intro s hs
    rcases mem_withStock.mp hs with hs | rfl
    · exact h.inOrder s hs
    · exact inOrder_newStock _ _ _
  · intro s hs
    rcases mem_withStock.mp hs with hs | rfl
    · exact h.booked s hs
    · refine (Table.sum_eq_zero fun m hm => if_neg fun hk => ?_).symm
      obtain ⟨s, hs, hid⟩ := hl m hm
      have hlt : s.id < db.stocks.freshKey := Table.key_lt_freshKey hs
      have hfresh : m.stockId = db.stocks.freshKey := hk
      omega

theorem linked_withStock (hl : Linked db) (w p : ℕ) : Linked (withStock w p db) := by
  intro m hm
  obtain ⟨s, hs, hid⟩ := hl m hm
  exact ⟨s, mem_withStock.mpr (.inl hs), hid⟩

theorem total_withStock (productId w p : ℕ) :
    total productId (withStock w p db) = total productId db := by
  have hsum : total productId (withStock w p db) = _ := Table.sum_add_mk (key_newStock w p) _
  have hzero : (newStock w p db.stocks.freshKey).quantityOnHand = 0 := rfl
  rw [hsum, hzero, ite_self, add_zero]
  rfl

theorem total_post {s s' : Stock} (hs : s ∈ db.stocks) (hid : s'.id = s.id)
    (hproduct : s'.productId = s.productId) (productId : ℕ) : total productId (post s' m db) =
      total productId db +
        if s.productId = productId then s'.quantityOnHand - s.quantityOnHand else 0 := by
  have hget : db.stocks.get? (Row.key s') = some s := Table.get?_eq_some.mpr ⟨hs, hid.symm⟩
  have hsum : total productId (post s' m db) = _ := Table.sum_set hget _
  rw [hsum, hproduct]
  unfold total
  split_ifs <;> omega

theorem assignBatteries_eq (db : Db) (w : ℕ) (serials : List String) :
    ∃ batteries, assignBatteries w serials db = { db with batteries } := by
  induction serials generalizing db with
  | nil => exact ⟨db.batteries, rfl⟩
  | cons serial serials ih =>
    have hstep : ∃ batteries, assignBattery w serial db = { db with batteries } := by
      unfold assignBattery
      split
      · exact ⟨_, rfl⟩
      · exact ⟨db.batteries, rfl⟩
    obtain ⟨batteries, hb⟩ := hstep
    obtain ⟨batteries', hb'⟩ := ih { db with batteries }
    refine ⟨batteries', ?_⟩
    show assignBatteries w serials (assignBattery w serial db) = _
    rw [hb, hb']

theorem accounted_batteries {batteries : Table Battery} :
    Accounted { db with batteries } ↔ Accounted db :=
  ⟨fun h => ⟨h.inOrder, h.booked⟩, fun h => ⟨h.inOrder, h.booked⟩⟩

end

theorem inOrder_add (h : InOrder s) (n : ℤ) :
    InOrder (s.add n) ↔ 0 ≤ s.quantityAvailable + n := by
  have hon := h.onHand
  have hreserved := h.reserved_nonneg
  have hdamaged := h.damaged_nonneg
  constructor
  · exact fun hadd => hadd.available_nonneg
  · intro hn
    constructor <;> simp only [Stock.add] <;> omega

variable {n : ℤ}

theorem inOrder_spoil (h : InOrder s) (hn : n ≤ s.quantityAvailable) :
    InOrder (s.spoil n) ↔ 0 ≤ s.quantityDamaged + n := by
  have hon := h.onHand
  have hnonneg := h.onHand_nonneg
  have hreserved := h.reserved_nonneg
  constructor
  · exact fun hspoil => hspoil.damaged_nonneg
  · intro hd
    constructor <;> simp only [Stock.spoil] <;> omega

theorem accounted_add_iff {db : Db} (h : Accounted db) (hs : s ∈ db.stocks)
    (hm : signed m.direction m.quantity = n) :
    Accounted (post (s.add n) m db) ↔ 0 ≤ s.quantityAvailable + n := by
  have hid : (s.add n).id = s.id := rfl
  rw [accounted_post_iff h hs hid, hm, inOrder_add (h.inOrder s hs)]
  exact and_iff_left rfl

/-- The row that is used, and the tables with it. -/
structure Opens (w p : ℕ) (db : Db) (stock : Stock) (db' : Db) : Prop where
  mem : stock ∈ db'.stocks
  product : stock.productId = p
  available : stock.quantityAvailable = available w p db
  kept : Linked db → Accounted db → Accounted db'
  linked : Linked db → Linked db'
  total : ∀ k, total k db' = total k db

theorem getOrCreate_cases (w p : ℕ) (s : Session Db) :
    (¬ Stocking w p s.working ∧ getOrCreate w p s = (.error .integrityError, s)) ∨
    ∃ c stock db', Stocking w p s.working ∧ getOrCreate w p s = (.ok stock, ⟨c, db'⟩) ∧
      Opens w p s.working stock db' := by
  unfold getOrCreate createStock
  rw [look_bind]
  rcases hstock : stockOf w p s.working with _ | stock
  · dsimp only
    rw [look_bind]
    by_cases hknown : Known w p s.working
    · refine .inr ⟨withStock w p s.working, newStock w p s.working.stocks.freshKey,
        withStock w p s.working, fun _ => hknown, ?_, ?_⟩
      · rw [ensure_bind hknown, update_bind]
        rfl
      · exact
          { mem := mem_withStock.mpr (.inr rfl)
            product := rfl
            available := by
              unfold available
              rw [hstock]
              rfl
            kept := fun hl h => accounted_withStock h hl w p
            linked := fun hl => linked_withStock hl w p
            total := fun k => total_withStock k w p }
    · exact .inl ⟨fun h => hknown (h hstock), ensure_bind_not hknown _ _ _⟩
  · have hmem := stockOf_mem hstock
    refine .inr ⟨s.committed, stock, s.working, fun h =>
      absurd (hstock.symm.trans h) (by simp), rfl, ?_⟩
    exact
      { mem := hmem.1
        product := hmem.2.2
        available := by
          unfold available
          rw [hstock]
          rfl
        kept := fun _ h => h
        linked := fun hl => hl
        total := fun _ => rfl }

/-! ## The requests -/

section

variable {db : Db}

theorem receiveStock_iff (h : Accounted db) (hl : Linked db) (request : StockReceiveRequest)
    (userId : ℕ) : Linked ((receiveStock request userId).call db).2 ∧
      (Accounted ((receiveStock request userId).call db).2 ↔
        Meets db (.receive request userId)) := by
  unfold Tx.call receiveStock
  rcases getOrCreate_cases request.warehouseId request.productId (.fresh db) with
    ⟨hnot, hrun⟩ | ⟨c, stock, db', hstocking, hrun, hopens⟩
  · rw [bind_of_error hrun]
    exact ⟨hl, iff_of_true h fun hs => absurd hs hnot⟩
  · rw [bind_of_ok hrun, update_bind, update_bind]
    obtain ⟨batteries, hb⟩ := assignBatteries_eq (post (stock.add request.quantity)
      (received request userId) db') request.warehouseId (request.serialNumbers.getD [])
    have hpost := accounted_add_iff (hopens.kept hl h) hopens.mem (n := request.quantity)
      (m := received request userId) rfl
    have hlinked : Linked (post (stock.add request.quantity) (received request userId) db') :=
      linked_post (hopens.linked hl) hopens.mem rfl
    show Linked (assignBatteries _ _ (post _ _ _)) ∧
      (Accounted (assignBatteries _ _ (post _ _ _)) ↔ _)
    rw [hb, accounted_batteries, hpost, hopens.available]
    exact ⟨hlinked, fun hnonneg _ => hnonneg, fun hmeets => hmeets hstocking⟩

theorem stockOf_post {s s' : Stock} (hs : s ∈ db.stocks) (hid : s'.id = s.id)
    (hw : s'.warehouseId = s.warehouseId) (hp : s'.productId = s.productId) (w p : ℕ) :
    stockOf w p (post s' m db) =
      (stockOf w p db).map fun x => if x.id = s'.id then s' else x := by
  refine Table.find?_set fun x hx hxs => ?_
  have hxs' : x = s := Table.eq_of_key hx hs (hxs.trans hid)
  rw [hxs', hw, hp]

variable {w p : ℕ}

theorem stockOf_debit (hs : s ∈ db.stocks) (n : ℤ)
    (hw : s.warehouseId ≠ w) : stockOf w p (post (s.add n) m db) = stockOf w p db := by
  have hpost := stockOf_post (m := m) hs (rfl : (s.add n).id = s.id) rfl rfl w p
  rw [hpost]
  rcases hd : stockOf w p db with _ | d
  · rfl
  · obtain ⟨hdm, hdw, -⟩ := stockOf_mem hd
    refine congrArg some (if_neg fun hid => hw ?_)
    rw [← Table.eq_of_key hdm hs hid]
    exact hdw

theorem stockOf_source (n : ℤ)
    (hs : stockOf w p db = some s) : stockOf w p (post (s.add n) m db) = some (s.add n) := by
  have hpost := stockOf_post (m := m) (stockOf_mem hs).1 (rfl : (s.add n).id = s.id) rfl rfl w p
  rw [hpost, hs]
  exact congrArg some (if_pos rfl)

theorem sourceOf_some {request : StockTransferRequest} (h : sourceOf request db = some s) :
    stockOf request.fromWarehouseId request.productId db = some s ∧
      request.quantity ≤ s.quantityAvailable := by
  obtain ⟨hs, hle⟩ := Option.filter_eq_some_iff.mp h
  exact ⟨hs, of_decide_eq_true hle⟩

/-- What a transfer does: nothing, or a debit, the opening of the destination, and a credit. -/
theorem transferStock_cases (db : Db) (request : StockTransferRequest) (userId : ℕ) :
    (sourceOf request db = none ∧ ((transferStock request userId).call db).2 = db) ∨
    ∃ source, sourceOf request db = some source ∧
      ((¬ Stocking request.toWarehouseId request.productId
          (post (source.add (-request.quantity)) (sent request userId) db) ∧
        ((transferStock request userId).call db).2 = db) ∨
      ∃ dest db', Stocking request.toWarehouseId request.productId
          (post (source.add (-request.quantity)) (sent request userId) db) ∧
        Opens request.toWarehouseId request.productId
          (post (source.add (-request.quantity)) (sent request userId) db) dest db' ∧
        ((transferStock request userId).call db).2 =
          post (dest.add request.quantity) (arrived request userId) db') := by
  unfold Tx.call transferStock
  rw [look_bind, Session.working_fresh]
  rcases hsource : sourceOf request db with _ | source
  · rw [demand_bind_none rfl]
    exact .inl ⟨rfl, rfl⟩
  · refine .inr ⟨source, rfl, ?_⟩
    rw [demand_bind rfl, update_bind, Session.committed_fresh, Session.working_fresh]
    rcases getOrCreate_cases request.toWarehouseId request.productId
      ⟨db, post (source.add (-request.quantity)) (sent request userId) db⟩ with
      ⟨hnot, hrun⟩ | ⟨c, dest, db', hstocking, hrun, hopens⟩
    · rw [bind_of_error hrun]
      exact .inl ⟨hnot, rfl⟩
    · rw [bind_of_ok hrun]
      exact .inr ⟨dest, db', hstocking, hopens, rfl⟩

theorem transferStock_iff (h : Accounted db) (hl : Linked db) (request : StockTransferRequest)
    (userId : ℕ) : Linked ((transferStock request userId).call db).2 ∧
      (Accounted ((transferStock request userId).call db).2 ↔
        Meets db (.transfer request userId)) := by
  rcases transferStock_cases db request userId with ⟨hnone, hcall⟩ | ⟨source, hsource, hcase⟩
  · rw [hcall]
    refine ⟨hl, iff_of_true h fun hsome => ?_⟩
    rw [hnone] at hsome
    cases hsome
  · obtain ⟨hfound, hle⟩ := sourceOf_some hsource
    obtain ⟨hmem, hwarehouse, -⟩ := stockOf_mem hfound
    have hother : ∀ hne : request.fromWarehouseId ≠ request.toWarehouseId, stockOf
        request.toWarehouseId request.productId (post (source.add (-request.quantity))
          (sent request userId) db) = stockOf request.toWarehouseId request.productId db :=
      fun hne => stockOf_debit hmem _ (hwarehouse ▸ hne)
    rcases hcase with ⟨hnot, hcall⟩ | ⟨dest, db', hstocking, hopens, hcall⟩
    · rw [hcall]
      refine ⟨hl, iff_of_true h fun _ hne hs => absurd ?_ hnot⟩
      unfold Stocking
      rw [hother hne]
      exact hs
    · rw [hcall]
      have hdebit : Accounted (post (source.add (-request.quantity)) (sent request userId) db) :=
        (accounted_add_iff (n := -request.quantity) (m := sent request userId) h hmem rfl).mpr
          (by omega)
      have hlinked := linked_post (m := sent request userId) hl hmem
        (rfl : (source.add (-request.quantity)).id = source.id)
      refine ⟨linked_post (hopens.linked hlinked) hopens.mem rfl, ?_⟩
      have hcredit := accounted_add_iff (n := request.quantity) (m := arrived request userId)
        (hopens.kept hlinked hdebit) hopens.mem rfl
      rw [hcredit, hopens.available]
      by_cases hne : request.fromWarehouseId = request.toWarehouseId
      · have hown := stockOf_source (m := sent request userId) (-request.quantity) hfound
        refine iff_of_true ?_ fun _ hne' => absurd hne hne'
        unfold available
        rw [← hne, hown]
        show 0 ≤ source.quantityAvailable + -request.quantity + request.quantity
        have hnonneg := (h.inOrder source hmem).available_nonneg
        omega
      · unfold available
        rw [hother hne]
        constructor
        · exact fun hnonneg _ _ _ => hnonneg
        · intro hmeets
          refine hmeets (hsource ▸ rfl) hne ?_
          unfold Stocking at hstocking
          rw [hother hne] at hstocking
          exact hstocking

theorem adjusted_cases {stock : Stock} (h : InOrder stock) (type : StockTransactionType) (n : ℤ) :
    (∃ e, adjusted type n stock = .error e ∧ Adjusts stock n type) ∨
    ∃ s' direction, adjusted type n stock = .ok (s', direction) ∧ s'.id = stock.id ∧
      (InOrder s' ∧ s'.quantityAvailable = stock.quantityAvailable + signed direction n ↔
        Adjusts stock n type) := by
  have hsame : InOrder stock ∧ stock.quantityAvailable = stock.quantityAvailable + n ↔ n = 0 := by
    rw [and_iff_right h]
    omega
  cases type with
  | damaged =>
    by_cases hlt : stock.quantityAvailable < n
    · exact .inl ⟨_, if_pos hlt, fun hle => absurd hlt (by omega)⟩
    · refine .inr ⟨_, _, if_neg hlt, rfl, ?_⟩
      rw [inOrder_spoil h (by omega)]
      exact ⟨fun hs _ => hs.1, fun hs => ⟨hs (by omega), sub_eq_add_neg _ _⟩⟩
  | adjustmentAdd =>
    refine .inr ⟨_, _, rfl, rfl, ?_⟩
    rw [inOrder_add h]
    exact and_iff_left rfl
  | adjustmentSub =>
    by_cases hlt : stock.quantityAvailable < n
    · exact .inl ⟨_, if_pos hlt, trivial⟩
    · refine .inr ⟨_, _, if_neg hlt, rfl,
        iff_of_true ⟨(inOrder_add h _).mpr (by omega), rfl⟩ trivial⟩
  | grn => exact .inr ⟨_, _, rfl, rfl, hsame⟩
  | sale => exact .inr ⟨_, _, rfl, rfl, hsame⟩
  | transferIn => exact .inr ⟨_, _, rfl, rfl, hsame⟩
  | transferOut => exact .inr ⟨_, _, rfl, rfl, hsame⟩
  | returned => exact .inr ⟨_, _, rfl, rfl, hsame⟩

theorem adjustStock_iff (h : Accounted db) (hl : Linked db) (request : StockAdjustmentRequest)
    (userId : ℕ) : Linked ((adjustStock request userId).call db).2 ∧
      (Accounted ((adjustStock request userId).call db).2 ↔ Meets db (.adjust request userId)) := by
  have hmeets : Meets db (.adjust request userId) ↔
      ∀ s ∈ stockOf request.warehouseId request.productId db,
        Adjusts s request.quantity request.type := Iff.rfl
  unfold Tx.call adjustStock
  rw [hmeets, look_bind, Session.working_fresh]
  rcases hstock : stockOf request.warehouseId request.productId db with _ | stock
  · rw [demand_bind_none rfl]
    exact ⟨hl, iff_of_true h fun s hs => by cases hs⟩
  · have hmem := (stockOf_mem hstock).1
    have hone : (∀ s ∈ some stock, Adjusts s request.quantity request.type) ↔
        Adjusts stock request.quantity request.type := by simp
    rw [demand_bind rfl, hone]
    rcases adjusted_cases (h.inOrder stock hmem) request.type request.quantity with
      ⟨e, hadjusted, hadjusts⟩ | ⟨s', direction, hadjusted, hid, hiff⟩
    · rw [lift_bind_error hadjusted]
      exact ⟨hl, iff_of_true h hadjusts⟩
    · rw [lift_bind hadjusted]
      exact ⟨linked_post hl hmem hid,
        (accounted_post_iff (m := adjustment request direction userId) h hmem hid).trans hiff⟩

theorem transfer_total (request : StockTransferRequest) (userId productId : ℕ) :
    total productId ((transferStock request userId).call db).2 = total productId db := by
  rcases transferStock_cases db request userId with ⟨-, hcall⟩ | ⟨source, hsource, hcase⟩
  · rw [hcall]
  · obtain ⟨hmem, -, hproduct⟩ := stockOf_mem (sourceOf_some hsource).1
    rcases hcase with ⟨-, hcall⟩ | ⟨dest, db', -, hopens, hcall⟩
    · rw [hcall]
    · have hdebit := total_post (m := sent request userId) hmem
        (rfl : (source.add (-request.quantity)).id = source.id) rfl productId
      have hcredit := total_post (m := arrived request userId) hopens.mem
        (rfl : (dest.add request.quantity).id = dest.id) rfl productId
      rw [hcall, hcredit, hopens.total, hdebit, hproduct, hopens.product]
      simp only [Stock.add]
      split_ifs <;> omega

theorem step_books_iff (request : Request) (h : Books db) :
    Books (step db request) ↔ Meets db request := by
  have hstep : Linked (step db request) ∧ (Accounted (step db request) ↔ Meets db request) := by
    cases request with
    | receive request userId => exact receiveStock_iff h.toAccounted h.linked request userId
    | transfer request userId => exact transferStock_iff h.toAccounted h.linked request userId
    | adjust request userId => exact adjustStock_iff h.toAccounted h.linked request userId
  exact ⟨fun hbooks => hstep.2.mp hbooks.toAccounted, fun hmeets => ⟨hstep.2.mpr hmeets, hstep.1⟩⟩

end

/-! ## Runs -/

/-- In every state of the run all rows are in order and booked, and no transfer has changed the
units of a product. -/
def LedgerKept (db : Db) (requests : List Request) : Prop :=
  (∀ p q, requests = p ++ q → Books (run step db p)) ∧
  ∀ p request userId q, requests = p ++ .transfer request userId :: q →
    ∀ productId, total productId (run step db (p ++ [.transfer request userId])) =
      total productId (run step db p)

/-- Two warehouses without stock, and one product. -/
def depot : Db := { warehouses := [1, 2], catalog := [7] }

theorem depot_books : Books depot where
  inOrder _ h := absurd h (Table.not_mem_empty _)
  booked _ h := absurd h (Table.not_mem_empty _)
  linked _ h := absurd h (Table.not_mem_empty _)

/-- Ten units are received, four go to the other warehouse, and two of these are damaged. -/
def receiveAndSpoil : List Request :=
  [.receive { warehouseId := 1, productId := 7, quantity := 10 } 3,
    .transfer { fromWarehouseId := 1, toWarehouseId := 2, productId := 7, quantity := 4 } 3,
    .adjust { warehouseId := 2, productId := 7, quantity := 2, type := .damaged } 3]

/-- A return is received where the schema wants an adjustment. -/
def returnAdjusted : List Request :=
  [.receive { warehouseId := 1, productId := 7, quantity := 10 } 3,
    .adjust { warehouseId := 1, productId := 7, quantity := 4, type := .returned } 3]

def negativeReceipt : List Request :=
  [.receive { warehouseId := 1, productId := 7, quantity := -4 } 3]

end WezuBackend.Warehouse.Ledger
