import WezuBackend.Catalog.Orders
import WezuBackend.Lib.Runs
import Mathlib.Algebra.Order.BigOperators.Group.List

/-!
# Where the units of the catalog are

A unit is in stock or in an order that is pending or confirmed.  `Balanced t` says so: with the
ordered units, each product and each variant has `t` units, and no stock is negative.

* Creation checks each line against the stock before anything is reserved and ignores what
  `reserve_stock` answers later, so it keeps the balance if each line is still in stock at its turn
  (`Covered`); a reservation whose commit fails takes back its line, and an order that was taken
  back with it lets no later commit succeed (`Placing`).
* Cancellation commits the lines and the status one after the other, so it keeps the balance if
  these commits all succeed or all fail.
* Confirmation does not look at the status, so it keeps the balance if the order was live before.
-/

namespace WezuBackend.Catalog.Stock

open Lib.Tables Lib.Runs Lib.Atomicity Lib.Atomicity.Tx Catalog.Orders

/-- The order of the key is pending or confirmed. -/
def OrderLive (orderId : ℕ) (db : Db) : Prop := ∃ o ∈ db.orders, o.id = orderId ∧ Live o

instance (orderId : ℕ) (db : Db) : Decidable (OrderLive orderId db) := by
  unfold OrderLive
  infer_instance

/-- The units of the product or variant in orders that are pending or confirmed. -/
def ordered (key : StockKey) (db : Db) : ℤ :=
  db.items.sum fun i => if i.key = key ∧ OrderLive i.orderId db then (i.quantity : ℤ) else 0

/-- All units of the product or variant. -/
def total (key : StockKey) (db : Db) : ℤ := (stock db key).getD 0 + ordered key db

/-- The stocks are not negative, and everything that is ordered has a stock. -/
structure Stocked (db : Db) : Prop where
  nonneg : ∀ key, ∀ n ∈ stock db key, 0 ≤ n
  known : ∀ i ∈ db.items, (stock db i.key).isSome
  linked : Linked db

structure Balanced (t : StockKey → ℤ) (db : Db) : Prop extends Stocked db where
  conserved : ∀ key, total key db = t key

/-- The variant of the line, if one is given, is there.  (A variant id of 0 is none to the service,
but not to the foreign key.) -/
def VariantKnown (stock : StockKey → Option ℤ) (line : OrderLine) : Prop :=
  ∀ v ∈ line.variantId, (stock (.variant v)).isSome

instance (stock : StockKey → Option ℤ) (line : OrderLine) :
    Decidable (VariantKnown stock line) := by
  unfold VariantKnown
  infer_instance

/-- Each line is in stock at its turn; a line whose commit fails takes nothing. -/
def Covered (stock : StockKey → Option ℤ) : List OrderLine → Failures → Prop
  | [], _ => True
  | line :: lines, fails =>
    (∃ n ∈ stock line.key, (line.quantity : ℤ) ≤ n) ∧
      Covered
        (fun key =>
          if key = line.key ∧ fails.line 0 = false ∧ VariantKnown stock line then
            (stock key).map (· - line.quantity)
          else stock key)
        lines fails.tail

/-- The condition under which a request keeps the balance. -/
def Sound (db : Db) : Action → Prop
  | .create request =>
    (∀ line ∈ request.items, Available line.key line.quantity db) →
      Covered (stock db) request.items request.fails
  | .confirm _ orderId _ _ fails =>
    fails.status = false → ∀ o ∈ db.orders, o.id = orderId → Live o
  | .cancel _ orderId _ fails =>
    OrderLive orderId db → ∀ n < (itemsOf orderId db).length, fails.line n = fails.last

/-! ## What the writes do -/

theorem stock_addStock (key key' : StockKey) (n : ℤ) (db : Db) :
    stock (addStock key n db) key' =
      if key' = key then (stock db key').map (· + n) else stock db key' := by
  rcases key with k | k <;> rcases key' with k' | k'
  · have hget : (addStock (.product k) n db).products.get? k' = _ :=
      Table.get?_update (key_productStock n) k'
    simp only [stock, hget, Option.map_map]
    rcases hp : db.products.get? k' with _ | p
    · simp
    · have hid : p.id = k' := (Table.get?_eq_some.mp hp).2
      by_cases hk : k' = k
      · simp [hid, hk, productStock]
      · simp [hid, hk]
  · rw [if_neg (by simp)]
    rfl
  · rw [if_neg (by simp)]
    rfl
  · have hget : (addStock (.variant k) n db).variants.get? k' = _ :=
      Table.get?_update (key_variantStock n) k'
    simp only [stock, hget, Option.map_map]
    rcases hv : db.variants.get? k' with _ | v
    · simp
    · have hid : v.id = k' := (Table.get?_eq_some.mp hv).2
      by_cases hk : k' = k
      · simp [hid, hk, variantStock]
      · simp [hid, hk]

theorem items_addStock (key : StockKey) (n : ℤ) (db : Db) :
    (addStock key n db).items = db.items := by
  cases key <;> rfl

theorem orders_addStock (key : StockKey) (n : ℤ) (db : Db) :
    (addStock key n db).orders = db.orders := by
  cases key <;> rfl

variable {db : Db} {key : StockKey}

variable {n : ℤ}

theorem linked_addStock :
    Linked (addStock key n db) ↔ Linked db := by
  have hvariant : ∀ v, ((addStock key n db).variants.get? v).isSome =
      (db.variants.get? v).isSome := by
    intro v
    rcases key with k | k
    · rfl
    · have hget : (addStock (.variant k) n db).variants.get? v = _ :=
        Table.get?_update (key_variantStock n) v
      rw [hget, Option.isSome_map]
  unfold Linked
  simp only [items_addStock, orders_addStock, hvariant]

theorem ordered_addStock (key key' : StockKey) (n : ℤ) (db : Db) :
    ordered key' (addStock key n db) = ordered key' db := by
  cases key <;> rfl

theorem isSome_addStock {key key' : StockKey} :
    (stock (addStock key n db) key').isSome = (stock db key').isSome := by
  rw [stock_addStock]
  split_ifs
  · rw [Option.isSome_map]
  · rfl

variable {line : ItemData}

theorem ordered_withItem {orderId : ℕ} (h : OrderLive orderId db)
    (key : StockKey) : ordered key (withItem orderId line db) =
      ordered key db + if line.key = key then (line.quantity : ℤ) else 0 := by
  have hsum : ordered key (withItem orderId line db) = _ :=
    Table.sum_add_mk (key_newItem orderId line) _
  rw [hsum]
  have hnew : (newItem orderId line db.items.freshKey).key = line.key := rfl
  have hlive : OrderLive (newItem orderId line db.items.freshKey).orderId
    (withItem orderId line db) := h
  simp only [hnew, hlive, and_true]
  rfl

variable {lines : List ItemData} {request : OrderRequest}

theorem ordered_withOrder (h : Linked db) (key : StockKey) :
      ordered key (withOrder request lines db) = ordered key db := by
  refine Table.sum_congr fun i hi => ?_
  obtain ⟨⟨o, ho, hoi⟩, -⟩ := h i hi
  have hlt : i.orderId < db.orders.freshKey := hoi ▸ Table.key_lt_freshKey ho
  have hlive : OrderLive i.orderId (withOrder request lines db) ↔ OrderLive i.orderId db := by
    constructor
    · rintro ⟨o', ho', hid, hl⟩
      rcases (Table.mem_add_mk (key_newOrder request lines)).mp ho' with ho' | rfl
      · exact ⟨o', ho', hid, hl⟩
      · have hfresh : db.orders.freshKey = i.orderId := hid
        omega
    · rintro ⟨o', ho', hid, hl⟩
      exact ⟨o', (Table.mem_add_mk (key_newOrder request lines)).mpr (.inl ho'), hid, hl⟩
  simp only [hlive]

section

variable {orderId : ℕ} {f : CatalogOrder → CatalogOrder} {hf : ∀ o, Row.key (f o) = Row.key o}
  {db : Db}

theorem mem_rewriteOrder {x : CatalogOrder} : x ∈ (rewriteOrder orderId f hf db).orders ↔
    ∃ o ∈ db.orders, (if o.id = orderId then f o else o) = x := by
  have hupd : x ∈ (rewriteOrder orderId f hf db).orders ↔
    ∃ o ∈ db.orders, (if decide (o.id = orderId) = true then f o else o) = x := List.mem_map
  simpa only [decide_eq_true_eq] using hupd

theorem linked_rewriteOrder (h : Linked db) : Linked (rewriteOrder orderId f hf db) := by
  intro i hi
  obtain ⟨⟨o, ho, hoi⟩, hvariant⟩ := h i hi
  refine ⟨⟨_, mem_rewriteOrder.mpr ⟨o, ho, rfl⟩, ?_⟩, hvariant⟩
  split_ifs
  · exact (hf o).trans hoi
  · exact hoi

theorem orderLive_rewriteOrder_ne {k : ℕ} (h : k ≠ orderId) :
    OrderLive k (rewriteOrder orderId f hf db) ↔ OrderLive k db := by
  have hkey : ∀ o, (f o).id = o.id := hf
  constructor
  · rintro ⟨x, hx, hid, hl⟩
    obtain ⟨o, ho, rfl⟩ := mem_rewriteOrder.mp hx
    split_ifs at hid hl with hp
    · exact absurd (hid.symm.trans ((hkey o).trans hp)) h
    · exact ⟨o, ho, hid, hl⟩
  · rintro ⟨o, ho, hid, hl⟩
    exact ⟨o, mem_rewriteOrder.mpr ⟨o, ho, if_neg (hid ▸ h)⟩, hid, hl⟩

theorem orderLive_rewriteOrder_self {o : CatalogOrder} (h : db.orders.get? orderId = some o) :
    OrderLive orderId (rewriteOrder orderId f hf db) ↔ Live (f o) := by
  have ho : o ∈ db.orders := (Table.get?_eq_some.mp h).1
  have hid : o.id = orderId := (Table.get?_eq_some.mp h).2
  have hkey : ∀ o, (f o).id = o.id := hf
  constructor
  · rintro ⟨x, hx, hxid, hl⟩
    obtain ⟨o', ho', rfl⟩ := mem_rewriteOrder.mp hx
    have hsame : o' = o := by
      refine Table.eq_of_key ho' ho (Eq.trans ?_ hid.symm)
      split_ifs at hxid
      · exact (hkey o').symm.trans hxid
      · exact hxid
    subst hsame
    rwa [if_pos hid] at hl
  · intro hl
    exact ⟨f o, mem_rewriteOrder.mpr ⟨o, ho, if_pos hid⟩, (hkey o).trans hid, hl⟩

end

/-! ## Commits -/

variable {fails : Bool} {s : Session Db}

theorem commitUnless_ok (hf : fails = false)
    (h : Linked s.working) : commitUnless fails s = (.ok (), ⟨s.working, s.working⟩) :=
  ensure_bind ⟨hf, h⟩ _ _ s

theorem commitUnless_error (h : ¬ (fails = false ∧ Linked s.working)) :
    commitUnless fails s = (.error .integrityError, s) := ensure_bind_not h _ _ s

variable {I : Db → Prop}

theorem throughout_commitUnless (fails : Bool) :
    Throughout I (commitUnless fails) :=
  readOnly_look.throughout.bind fun _ =>
    (readOnly_ensure _ _).throughout.bind fun _ => throughout_commit

/-! ## Creation -/

variable {t : StockKey → ℤ}

theorem Balanced.reserve (h : Balanced t db) {orderId : ℕ}
    (hlive : OrderLive orderId db) (havail : Available line.key line.quantity db)
    (hknown : VariantKnown (stock db) line.toOrderLine) :
    Balanced t (addStock line.key (-line.quantity) (withItem orderId line db)) := by
  obtain ⟨n, hn, hle⟩ := havail
  have hstock : ∀ key, stock (withItem orderId line db) key = stock db key := fun _ => rfl
  constructor
  · constructor
    · intro key m hm
      rw [stock_addStock, hstock] at hm
      split_ifs at hm with hkey
      · subst hkey
        rw [Option.mem_def.mp hn] at hm
        cases hm
        show 0 ≤ n + -(line.quantity : ℤ)
        omega
      · exact h.nonneg key m hm
    · intro i hi
      rw [items_addStock] at hi
      rw [isSome_addStock, hstock]
      rcases (Table.mem_add_mk (key_newItem orderId line)).mp hi with hi | rfl
      · exact h.known i hi
      · exact Option.isSome_of_mem hn
    · refine linked_addStock.mpr fun i hi => ?_
      rcases (Table.mem_add_mk (key_newItem orderId line)).mp hi with hi | rfl
      · exact h.linked i hi
      · obtain ⟨o, ho, hid, -⟩ := hlive
        refine ⟨⟨o, ho, hid⟩, fun v hv => ?_⟩
        have hstocked := hknown v hv
        unfold stock at hstocked
        rwa [Option.isSome_map] at hstocked
  · intro key
    have htotal := h.conserved key
    unfold total at htotal ⊢
    rw [ordered_addStock, ordered_withItem hlive, stock_addStock, hstock, ← htotal]
    by_cases hkey : key = line.key
    · subst hkey
      rw [if_pos rfl, if_pos rfl, Option.mem_def.mp hn]
      simp only [Option.map_some, Option.getD_some]
      omega
    · rw [if_neg hkey, if_neg fun hk => hkey hk.symm, add_zero]

/-- While an order is placed: what is committed is balanced, and either the session sees the order,
live and balanced, or the order is lost and what the session sees cannot be committed. -/
inductive Placing (t : StockKey → ℤ) (orderId : ℕ) (s : Session Db) : Prop where
  | placed (committed : Balanced t s.committed) (working : Balanced t s.working)
      (same : stock s.committed = stock s.working) (seen : OrderLive orderId s.working)
      (kept : ∀ o ∈ s.committed.orders, o.id = orderId → Live o)
  | lost (committed : Balanced t s.committed) (gone : ∀ o ∈ s.committed.orders, o.id ≠ orderId)
      (same : s.working.orders = s.committed.orders)
      (dangling : Linked s.working → s.working = s.committed)

theorem Placing.committed {orderId : ℕ} (h : Placing t orderId s) : Balanced t s.committed := by
  rcases h with ⟨hc, -, -, -, -⟩ | ⟨hc, -, -, -⟩ <;> exact hc

theorem Placing.working {orderId : ℕ}
    (h : Placing t orderId s) (hl : Linked s.working) : Balanced t s.working := by
  rcases h with ⟨-, hw, -, -, -⟩ | ⟨hc, -, -, hd⟩
  · exact hw
  · rw [hd hl]
    exact hc

theorem placing_of_committed {orderId : ℕ} (h : Balanced t db)
    (hkept : ∀ o ∈ db.orders, o.id = orderId → Live o) : Placing t orderId ⟨db, db⟩ := by
  by_cases hex : ∃ o ∈ db.orders, o.id = orderId
  · obtain ⟨o, ho, hid⟩ := hex
    exact .placed h h rfl ⟨o, ho, hid, hkept o ho hid⟩ hkept
  · exact .lost h (fun o ho hid => hex ⟨o, ho, hid⟩) rfl fun _ => rfl

variable {quantity : ℕ}

theorem reserveStock_of_unavailable (h : ¬ Available key quantity s.working) :
    reserveStock key quantity fails s = (.ok false, s) := by
  refine handle_of_ok ?_
  rw [look_bind, if_neg h]
  rfl

theorem reserveStock_of_committed (h : Available key quantity s.working) (hl : Linked s.working) :
    reserveStock key quantity false s =
      (.ok true, ⟨addStock key (-quantity) s.working, addStock key (-quantity) s.working⟩) := by
  refine handle_of_ok ?_
  rw [look_bind, if_pos h, update_bind, bind_of_ok (commitUnless_ok rfl (linked_addStock.mpr hl))]
  rfl

theorem reserveStock_of_failed
    (h : Available key quantity s.working) (hf : ¬ (fails = false ∧ Linked s.working)) :
    reserveStock key quantity fails s = (.ok false, ⟨s.committed, s.committed⟩) := by
  refine (handle_of_error (e := .integrityError)
    (t := ⟨s.committed, addStock key (-quantity) s.working⟩) ?_).trans rfl
  rw [look_bind, if_pos h, update_bind]
  refine bind_of_error (commitUnless_error ?_)
  rwa [linked_addStock]

theorem not_linked_withItem {orderId : ℕ}
    (h : ∀ o ∈ db.orders, o.id ≠ orderId) : ¬ Linked (withItem orderId line db) := by
  intro hl
  have hmem : newItem orderId line db.items.freshKey ∈ (withItem orderId line db).items :=
    (Table.mem_add_mk (key_newItem orderId line)).mpr (.inr rfl)
  obtain ⟨⟨o, ho, hid⟩, -⟩ := hl _ hmem
  exact h o ho hid

theorem not_linked_of_unknown {orderId : ℕ}
    (h : ¬ VariantKnown (stock db) line.toOrderLine) : ¬ Linked (withItem orderId line db) := by
  intro hl
  have hmem : newItem orderId line db.items.freshKey ∈ (withItem orderId line db).items :=
    (Table.mem_add_mk (key_newItem orderId line)).mpr (.inr rfl)
  refine h fun v hv => ?_
  have hvariant := (hl _ hmem).2 v hv
  unfold stock
  rwa [Option.isSome_map]

theorem reserveLines_placing {orderId : ℕ} (lines : List ItemData)
    (fails : Failures) (h : Placing t orderId s) (hcov : OrderLive orderId s.working →
      Covered (stock s.working) (lines.map ItemData.toOrderLine) fails) :
    ∃ u, reserveLines orderId lines fails s = (.ok (), u) ∧ Placing t orderId u := by
  induction lines generalizing fails s with
  | nil => exact ⟨s, rfl, h⟩
  | cons line lines ih =>
    rw [reserveLines, update_bind]
    set v : Session Db := ⟨s.committed, withItem orderId line s.working⟩ with hv
    rcases h with ⟨hc, hw, hsame, hseen, hkept⟩ | ⟨hc, hgone, hsame, hdangling⟩
    · obtain ⟨havail, hrest⟩ := hcov hseen
      by_cases hwrite : fails.line 0 = false ∧ VariantKnown (stock s.working) line.toOrderLine
      · have hplaced := hw.reserve hseen havail hwrite.2
        have hlinked : Linked (withItem orderId line s.working) := linked_addStock.mp hplaced.linked
        rw [hwrite.1, bind_of_ok (reserveStock_of_committed (s := v) havail hlinked)]
        refine ih fails.tail (.placed hplaced hplaced rfl ?_ ?_) fun _ => ?_
        · unfold OrderLive
          rw [orders_addStock]
          exact hseen
        · intro o ho hid
          obtain ⟨o', ho', hid', hl⟩ := hseen
          rw [orders_addStock] at ho
          rwa [Table.eq_of_key ho ho' (hid.trans hid'.symm)]
        · convert hrest using 1
          funext key
          rw [stock_addStock]
          simp only [hwrite, and_true]
          rfl
      · have hfailed : ¬ (fails.line 0 = false ∧ Linked v.working) := fun hl =>
          hwrite ⟨hl.1, by_contra fun hunknown => not_linked_of_unknown hunknown hl.2⟩
        rw [bind_of_ok (reserveStock_of_failed (s := v) havail hfailed)]
        refine ih fails.tail (placing_of_committed hc hkept) fun _ => ?_
        convert hrest using 1
        funext key
        rw [hsame, if_neg fun hkey => hwrite hkey.2]
    · have hnot : ¬ Linked (withItem orderId line s.working) :=
        not_linked_withItem (hsame ▸ hgone)
      by_cases havail : Available line.key line.quantity (withItem orderId line s.working)
      · rw [bind_of_ok (reserveStock_of_failed (s := v) havail fun hl => hnot hl.2)]
        refine ih fails.tail (placing_of_committed hc fun o ho hid => absurd hid (hgone o ho)) ?_
        rintro ⟨o, ho, hid, -⟩
        exact absurd hid (hgone o ho)
      · rw [bind_of_ok (reserveStock_of_unavailable (s := v) havail)]
        refine ih fails.tail (.lost hc hgone hsame fun hl => absurd hl hnot) ?_
        rintro ⟨o, ho, hid, -⟩
        exact absurd hid (hgone o (hsame ▸ ho))

theorem priceLine_ok {line : OrderLine} {data : ItemData} (h : priceLine db line = .ok data) :
    data.toOrderLine = line ∧ Available line.key line.quantity db := by
  unfold priceLine at h
  split_ifs at h with havail
  rcases hp : db.products.get? line.productId with _ | product
  · rw [hp] at h
    cases h
  · rw [hp] at h
    cases h
    exact ⟨rfl, havail⟩

theorem priceLines_ok {items : List OrderLine} (h : items.mapM (priceLine db) = .ok lines) :
    lines.map ItemData.toOrderLine = items ∧
      ∀ line ∈ items, Available line.key line.quantity db := by
  induction items generalizing lines with
  | nil =>
    cases h
    simp
  | cons line items ih =>
    rw [List.mapM_cons] at h
    rcases hline : priceLine db line with e | data
    · rw [hline] at h
      cases h
    · rcases hrest : items.mapM (priceLine db) with e | rest
      · rw [hline, hrest] at h
        cases h
      · rw [hline, hrest] at h
        cases h
        obtain ⟨hmap, hall⟩ := ih hrest
        obtain ⟨hdata, havail⟩ := priceLine_ok hline
        exact ⟨by rw [List.map_cons, hmap, hdata], List.forall_mem_cons.mpr ⟨havail, hall⟩⟩

theorem placing_withOrder (h : Balanced t db) (request : OrderRequest) (lines : List ItemData) :
    Placing t db.orders.freshKey ⟨db, withOrder request lines db⟩ := by
  have hstock : ∀ key, stock (withOrder request lines db) key = stock db key := fun _ => rfl
  have hold : ∀ o ∈ db.orders, o ∈ (withOrder request lines db).orders := fun o ho =>
    (Table.mem_add_mk (key_newOrder request lines)).mpr (.inl ho)
  refine .placed h ⟨⟨h.nonneg, h.known, fun i hi => ?_⟩, fun key => ?_⟩ rfl ?_ fun o ho hid => ?_
  · obtain ⟨⟨o, ho, hid⟩, hvariant⟩ := h.linked i hi
    exact ⟨⟨o, hold o ho, hid⟩, hvariant⟩
  · rw [← h.conserved key]
    unfold total
    rw [hstock, ordered_withOrder h.linked]
  · exact ⟨_, (Table.mem_add_mk (key_newOrder request lines)).mpr (.inr rfl), rfl, .inl rfl⟩
  · have hlt := Table.key_lt_freshKey ho
    exact absurd hid hlt.ne

theorem createOrder_balanced (h : Balanced t db)
    (hsound : Sound db (.create request)) : Balanced t ((createOrder request).call db).2 := by
  rw [createOrder_call]
  unfold placeOrder
  rw [look_bind]
  rcases hlines : request.items.mapM (priceLine db) with e | lines
  · rw [Session.working_fresh, lift_bind_error hlines]
    exact h
  · obtain ⟨hmap, havail⟩ := priceLines_ok hlines
    have hcov := hsound havail
    rw [Session.working_fresh, hlines, lift_bind rfl]
    by_cases hflush : request.flushFails = false ∧ ∀ o ∈ db.orders,
      o.orderNumber ≠ request.orderNumber
    · rw [ensure_bind hflush, update_bind]
      obtain ⟨u, hu, hplacing⟩ := reserveLines_placing lines request.fails
        (placing_withOrder h request lines) fun _ => by rw [hmap]; exact hcov
      have hrun : reserveLines db.orders.freshKey lines request.fails
        ⟨(Session.fresh db).committed, withOrder request lines (Session.fresh db).working⟩ =
          (.ok (), u) := hu
      rw [bind_of_ok hrun]
      by_cases hlast : request.fails.last = false ∧ Linked u.working
      · rw [bind_of_ok (commitUnless_ok hlast.1 hlast.2), look_bind]
        rcases Table.get? u.working.orders db.orders.freshKey with _ | order
        · exact hplacing.working hlast.2
        · exact hplacing.working hlast.2
      · rw [bind_of_error (commitUnless_error hlast)]
        exact hplacing.committed
    · rw [ensure_bind_not hflush]
      exact h

/-! ## Cancellation -/

/-- What the items hold of a product or variant. -/
def held (key : StockKey) (items : List CatalogOrderItem) : ℤ :=
  (items.map fun i => if i.key = key then (i.quantity : ℤ) else 0).sum

theorem held_nonneg (key : StockKey) (items : List CatalogOrderItem) : 0 ≤ held key items := by
  refine List.sum_nonneg fun n hn => ?_
  obtain ⟨i, -, rfl⟩ := List.mem_map.mp hn
  split_ifs <;> omega

/-- The items are put back. -/
def releaseAll (items : List CatalogOrderItem) (db : Db) : Db :=
  items.foldl (fun db i => addStock i.key i.quantity db) db

theorem items_releaseAll (items : List CatalogOrderItem) (db : Db) :
    (releaseAll items db).items = db.items := by
  induction items generalizing db with
  | nil => rfl
  | cons i items ih => exact (ih _).trans (items_addStock _ _ _)

theorem orders_releaseAll (items : List CatalogOrderItem) (db : Db) :
    (releaseAll items db).orders = db.orders := by
  induction items generalizing db with
  | nil => rfl
  | cons i items ih => exact (ih _).trans (orders_addStock _ _ _)

theorem linked_releaseAll (items : List CatalogOrderItem) (h : Linked db) :
    Linked (releaseAll items db) := by
  induction items generalizing db with
  | nil => exact h
  | cons i items ih => exact ih (linked_addStock.mpr h)

theorem stock_releaseAll (items : List CatalogOrderItem) (db : Db) (key : StockKey) :
    stock (releaseAll items db) key = (stock db key).map (· + held key items) := by
  induction items generalizing db with
  | nil => simp [releaseAll, held]
  | cons i items ih =>
    have hcons : releaseAll (i :: items) db = releaseAll items (addStock i.key i.quantity db) := rfl
    have hheld : held key (i :: items) =
        (if i.key = key then (i.quantity : ℤ) else 0) + held key items :=
      List.sum_cons
    rw [hcons, ih, stock_addStock, hheld]
    by_cases hkey : key = i.key
    · rw [if_pos hkey, if_pos hkey.symm, Option.map_map]
      refine congrArg (Option.map · _) (funext fun n => ?_)
      exact add_assoc _ _ _
    · rw [if_neg hkey, if_neg (Ne.symm hkey), zero_add]

theorem releaseStock_of_committed (hl : Linked s.working) : releaseStock key quantity false s =
      (.ok (), ⟨addStock key quantity s.working, addStock key quantity s.working⟩) := by
  refine handle_of_ok ?_
  rw [update_bind, commitUnless_ok rfl (linked_addStock.mpr hl)]

theorem releaseStock_of_failed :
    releaseStock key quantity true s = (.ok (), ⟨s.committed, s.committed⟩) := by
  refine (handle_of_error (e := .integrityError)
    (t := ⟨s.committed, addStock key quantity s.working⟩) ?_).trans rfl
  rw [update_bind]
  exact commitUnless_error (by simp)

theorem releaseLines_of_committed (items : List CatalogOrderItem) {fails : Failures}
    (hl : Linked db) (hf : ∀ n < items.length, fails.line n = false) :
    releaseLines items fails (.fresh db) = (.ok (), .fresh (releaseAll items db)) := by
  induction items generalizing fails db with
  | nil => rfl
  | cons i items ih =>
    rw [List.length_cons] at hf
    rw [releaseLines, hf 0 (by omega), bind_of_ok (releaseStock_of_committed hl)]
    exact ih (linked_addStock.mpr hl) fun n hn => hf (n + 1) (by omega)

theorem releaseLines_of_failed (items : List CatalogOrderItem) {fails : Failures}
    (hf : ∀ n < items.length, fails.line n = true) :
    releaseLines items fails (.fresh db) = (.ok (), .fresh db) := by
  induction items generalizing fails with
  | nil => rfl
  | cons i items ih =>
    rw [List.length_cons] at hf
    rw [releaseLines, hf 0 (by omega), bind_of_ok releaseStock_of_failed]
    exact ih fun n hn => hf (n + 1) (by omega)

/-- The order and its items, put back. -/
def cancelled (now orderId : ℕ) (reason : String) (db : Db) : Db :=
  rewriteOrder orderId (asCancelled now reason) (key_asCancelled now reason)
    (releaseAll (itemsOf orderId db) db)

theorem not_live_asCancelled (now : ℕ) (reason : String) (o : CatalogOrder) :
    ¬ Live (asCancelled now reason o) := by simp [Live, asCancelled]

variable {order : CatalogOrder}

theorem ordered_cancelled (now : ℕ) (reason : String) {orderId : ℕ}
    (hget : db.orders.get? orderId = some order) (hlive : Live order) (key : StockKey) :
    ordered key (cancelled now orderId reason db) + held key (itemsOf orderId db) =
      ordered key db := by
  have hget' : (releaseAll (itemsOf orderId db) db).orders.get? orderId = some order := by
    rwa [orders_releaseAll]
  have hdead : ¬ OrderLive orderId (cancelled now orderId reason db) :=
    (orderLive_rewriteOrder_self hget').not.mpr (not_live_asCancelled now reason order)
  have hseen : OrderLive orderId db := ⟨order, (Table.get?_eq_some.mp hget).1,
    (Table.get?_eq_some.mp hget).2, hlive⟩
  have hother : ∀ k ≠ orderId, OrderLive k (cancelled now orderId reason db) ↔ OrderLive k db := by
    intro k hk
    unfold cancelled
    rw [orderLive_rewriteOrder_ne hk]
    unfold OrderLive
    rw [orders_releaseAll]
  have hitems : (cancelled now orderId reason db).items = db.items := items_releaseAll _ db
  have hheld : held key (itemsOf orderId db) = _ := Table.sum_filter db.items _ _
  unfold ordered
  rw [hheld, hitems, ← Table.sum_add_distrib]
  refine Table.sum_congr fun i _ => ?_
  by_cases hi : i.orderId = orderId
  · subst hi
    rw [if_neg fun hl => hdead hl.2, if_pos rfl, zero_add]
    simp only [hseen, and_true]
  · rw [if_neg hi, add_zero]
    simp only [hother i.orderId hi]

theorem Balanced.cancel (h : Balanced t db) (now : ℕ) (reason : String) {orderId : ℕ}
    (hget : db.orders.get? orderId = some order)
    (hlive : Live order) : Balanced t (cancelled now orderId reason db) := by
  have hstock : ∀ key, stock (cancelled now orderId reason db) key =
      (stock db key).map (· + held key (itemsOf orderId db)) := stock_releaseAll _ db
  have hitems : (cancelled now orderId reason db).items = db.items := items_releaseAll _ db
  constructor
  · constructor
    · intro key n hn
      rw [hstock] at hn
      obtain ⟨m, hm, rfl⟩ := Option.map_eq_some_iff.mp hn
      exact add_nonneg (h.nonneg key m hm) (held_nonneg key _)
    · intro i hi
      rw [hitems] at hi
      rw [hstock, Option.isSome_map]
      exact h.known i hi
    · exact linked_rewriteOrder (linked_releaseAll _ h.linked)
  · intro key
    have htotal := h.conserved key
    have hordered := ordered_cancelled now reason hget hlive key
    unfold total at htotal ⊢
    rw [hstock, ← htotal]
    rcases hk : stock db key with _ | n
    · have hheld : held key (itemsOf orderId db) = 0 := by
        refine List.sum_eq_zero fun n hn => ?_
        obtain ⟨i, hi, rfl⟩ := List.mem_map.mp hn
        refine if_neg fun hik => ?_
        have hsome := h.known i (Table.mem_filter.mp hi).1
        rw [hik, hk] at hsome
        cases hsome
      simp only [Option.map_none, Option.getD_none]
      omega
    · simp only [Option.map_some, Option.getD_some]
      omega

theorem cancelOrder_balanced (h : Balanced t db) {now orderId : ℕ}
    {reason : String} {fails : Failures} (hsound : Sound db (.cancel now orderId reason fails)) :
    Balanced t ((cancelOrder now orderId reason fails).call db).2 := by
  unfold Tx.call cancelOrder handle
  rw [look_bind, Session.working_fresh]
  rcases hget : db.orders.get? orderId with _ | order
  · exact h
  · dsimp only
    by_cases hlive : Live order
    · rw [ensure_bind hlive]
      have hall :=
        hsound ⟨order, (Table.get?_eq_some.mp hget).1, (Table.get?_eq_some.mp hget).2, hlive⟩
      have hcancel := h.cancel now reason hget hlive
      rcases hlast : fails.last with _ | _
      · rw [hlast] at hall
        rw [bind_of_ok (releaseLines_of_committed _ h.linked hall), update_bind,
          bind_of_ok (commitUnless_ok rfl hcancel.linked)]
        exact hcancel
      · rw [hlast] at hall
        rw [bind_of_ok (releaseLines_of_failed _ hall), update_bind,
          bind_of_error (commitUnless_error (by simp))]
        exact h
    · rw [ensure_bind_not hlive]
      exact h

/-! ## Confirmation -/

/-- The rest of a confirmation writes neither orders nor items nor stocks. -/
theorem Balanced.other (h : Balanced t db) (wallet : Financial.Model.Db)
    (trackings : Table DeliveryTracking) (events : Table DeliveryEvent) :
    Balanced t { db with wallet, trackings, events } :=
  ⟨⟨h.nonneg, h.known, h.linked⟩, h.conserved⟩

theorem throughout_createDeliveryTracking
    (hI : ∀ trackings events db, I db → I { db with trackings, events }) (orderId : ℕ)
    (trackingNumber : String) (fails : ConfirmFailures) :
    Throughout I (createDeliveryTracking orderId trackingNumber fails) := by
  refine Throughout.handle ?_ fun _ => throughout_rollback
  refine readOnly_look.throughout.bind fun db => (readOnly_ensure _ _).throughout.bind fun _ => ?_
  refine (throughout_update fun s hs => hI _ s.events s hs).bind fun _ => ?_
  refine (throughout_commitUnless _).bind fun _ => ?_
  exact (throughout_update fun s hs => hI s.trackings _ s hs).bind fun _ =>
    throughout_commitUnless _

theorem throughout_afterConfirmation (hI : ∀ wallet db, I db → I { db with wallet })
    (hI' : ∀ trackings events db, I db → I { db with trackings, events }) (order : CatalogOrder)
    (trackingNumber : String) (fails : ConfirmFailures) :
    Throughout I (afterConfirmation order trackingNumber fails) := by
  unfold afterConfirmation
  split_ifs
  · exact throughout_rollback
  · have hcashback : Throughout I (applyCashback order) :=
      (throughout_focus hI _).bind fun _ => (readOnly_pure ()).throughout
    refine (Throughout.handle (hcashback.bind fun _ => (readOnly_pure true).throughout) fun _ =>
      (readOnly_pure _).throughout).bind fun usable => ?_
    split_ifs
    · exact throughout_createDeliveryTracking hI' _ _ _
    · exact throughout_rollback

theorem Balanced.confirm (h : Balanced t db) (now : ℕ) {orderId : ℕ}
    (paymentId : String) (hget : db.orders.get? orderId = some order) (hlive : Live order) :
    Balanced t (rewriteOrder orderId (asConfirmed now paymentId)
      (key_asConfirmed now paymentId) db) := by
  refine ⟨⟨h.nonneg, h.known, linked_rewriteOrder h.linked⟩, fun key => ?_⟩
  rw [← h.conserved key]
  refine congrArg (_ + ·) (Table.sum_congr fun i _ => ?_)
  have hsame : OrderLive i.orderId
      (rewriteOrder orderId (asConfirmed now paymentId) (key_asConfirmed now paymentId) db) ↔
      OrderLive i.orderId db := by
    by_cases hi : i.orderId = orderId
    · rw [hi, orderLive_rewriteOrder_self hget]
      exact ⟨fun _ => ⟨order, (Table.get?_eq_some.mp hget).1,
        (Table.get?_eq_some.mp hget).2, hlive⟩,
        fun _ => .inr rfl⟩
    · exact orderLive_rewriteOrder_ne hi
  simp only [hsame]

theorem confirmOrder_balanced (h : Balanced t db) {now orderId : ℕ}
    {paymentId trackingNumber : String} {fails : ConfirmFailures}
    (hsound : Sound db (.confirm now orderId paymentId trackingNumber fails)) :
    Balanced t ((confirmOrder now orderId paymentId trackingNumber fails).call db).2 := by
  unfold Tx.call confirmOrder handle
  rw [look_bind, Session.working_fresh]
  rcases hget : db.orders.get? orderId with _ | order
  · exact h
  · dsimp only
    rw [update_bind]
    rcases hstatus : fails.status with _ | _
    · have hconfirm := h.confirm now paymentId hget
        (hsound hstatus order (Table.get?_eq_some.mp hget).1 (Table.get?_eq_some.mp hget).2)
      rw [bind_of_ok (commitUnless_ok rfl hconfirm.linked)]
      have hrest : Throughout (Balanced t)
          (afterConfirmation order trackingNumber fails >>= fun _ => pure true) :=
        (throughout_afterConfirmation (fun wallet db hb => hb.other wallet _ _)
          (fun _ _ db hb => hb.other db.wallet _ _) _ _ _).bind fun _ =>
            (readOnly_pure true).throughout
      have hkept := Throughout.handle hrest fun _ =>
        throughout_rollback.bind fun _ => (readOnly_pure false).throughout
      exact (hkept _ hconfirm hconfirm).1
    · rw [bind_of_error (commitUnless_error (by simp))]
      exact h

/-! ## Runs -/

theorem step_balanced (db : Db) (action : Action) (h : Balanced t db)
    (hsound : Sound db action) : Balanced t (step db action) := by
  cases action with
  | create request => exact createOrder_balanced h hsound
  | confirm now orderId paymentId trackingNumber fails => exact confirmOrder_balanced h hsound
  | cancel now orderId reason fails => exact cancelOrder_balanced h hsound

/-- Stocks are not negative, and with the ordered units each is what it was. -/
def Conserved (db db' : Db) : Prop :=
  ∀ key, (∀ n ∈ stock db' key, 0 ≤ n) ∧ total key db' = total key db

/-- **Stock is conserved** in every run whose requests meet their conditions. -/
theorem stock_conserved {db : Db} (h : Stocked db) {actions : List Action}
    (hsound : Along step Sound db actions) :
    ∀ p q, actions = p ++ q → Conserved db (run step db p) := by
  rintro p q rfl key
  have hstart : Balanced (fun key => total key db) db := ⟨h, fun _ => rfl⟩
  have hp := run_invariant_of_along step_balanced hstart (along_append.mp hsound).1
  exact ⟨hp.nonneg key, hp.conserved key⟩

theorem stocked_of_rows (hproducts : ∀ p ∈ db.products, 0 ≤ p.stockQuantity)
    (hvariants : ∀ v ∈ db.variants, 0 ≤ v.stockQuantity)
    (hitems : ∀ i ∈ db.items, (stock db i.key).isSome) (hlinked : Linked db) : Stocked db := by
  refine ⟨fun key n hn => ?_, hitems, hlinked⟩
  rcases key with k | k
  · obtain ⟨p, hp, rfl⟩ := Option.map_eq_some_iff.mp hn
    exact hproducts p (Table.get?_eq_some.mp hp).1
  · obtain ⟨v, hv, rfl⟩ := Option.map_eq_some_iff.mp hn
    exact hvariants v (Table.get?_eq_some.mp hv).1

/-- A product with five units, and no orders. -/
def catalog : Db where
  products := ⟨[{ id := 1, name := "Helmet", sku := "HEL", price := 100, stockQuantity := 5 }],
    by decide⟩
  wallet := .ofWallets .empty .empty

def home : ShippingAddress := ⟨"1 Road", "Pune", "MH", "411001", "9000000000"⟩

def orderOf (items : List OrderLine) : Action :=
  .create { userId := 7, items, shipping := home, paymentMethod := "upi", orderNumber := "ORD-1" }

theorem catalog_stocked : Stocked catalog :=
  stocked_of_rows (by decide) (by decide) (by decide) (by decide)

/-- An order of three units, confirmed and cancelled. -/
def orderAndCancel : List Action :=
  [orderOf [⟨1, none, 3⟩], .confirm 10 1 "pay_1" "TRK1", .cancel 20 1 "late"]

theorem stock_conserved_sample : Conserved catalog (run step catalog orderAndCancel) := by
  have hsound : Along step Sound catalog orderAndCancel := by
    refine ⟨fun _ => ⟨⟨5, rfl, by decide⟩, trivial⟩, ?_, fun _ n _ => rfl, trivial⟩
    have hlive : ∀ o ∈ (step catalog (orderOf [⟨1, none, 3⟩])).orders, o.id = 1 → Live o := by
      decide +kernel
    exact fun _ => hlive
  exact stock_conserved catalog_stocked hsound orderAndCancel [] (List.append_nil _).symm

/-- Two lines of one product, each of them within the stock. -/
def twice : Action := orderOf [⟨1, none, 3⟩, ⟨1, none, 3⟩]

/-- More is ordered than there was. -/
theorem units_made_up : stock catalog (.product 1) = some 5 ∧
    stock (step catalog twice) (.product 1) = some 2 ∧
      ordered (.product 1) (step catalog twice) = 6 ∧
    ¬ Conserved catalog (step catalog twice) := by
  have hstock : stock (step catalog twice) (.product 1) = some 2 := by decide +kernel
  have hordered : ordered (.product 1) (step catalog twice) = 6 := by decide +kernel
  refine ⟨rfl, hstock, hordered, fun h => ?_⟩
  have htotal := (h (.product 1)).2
  unfold total at htotal
  rw [hstock, hordered] at htotal
  exact absurd htotal (by decide)

end WezuBackend.Catalog.Stock
