import WezuBackend.Core.Unicode
import WezuBackend.Fleet.Consistency
import WezuBackend.Lib.Results
import WezuBackend.Lib.Runs

/-!
# Saved payment methods

`app/services/payment_method_service.py`.  A method is added, chosen as the default or deleted; a
deleted row stays.  Every call concerns the rows of one user (`rowsOf`), and `Consistent` says what
these rows keep: as long as there is an active one, exactly one is the default.

* `stepped_setDefault`, `stepped_addMethod`, `stepped_deleteMethod`: what each operation writes;
* `Stepped.others`: it leaves the rows of all others alone;
* `Stepped.consistent`: it keeps `Consistent`.
-/

namespace WezuBackend.Payments.Methods

open Lib.Tables Lib.Runs Core.Base Core.Text
open Core.Unicode
open Fleet.Consistency (underscored)
open Lib.Results (except_bind_ok)

/-! ## Rows -/

inductive Status where
  | active
  | deleted
  deriving DecidableEq, Repr

/-- The entries of `details` that are read, as texts; a missing one is empty. -/
structure Metadata where
  last4 : String
  brand : String
  deriving DecidableEq, Repr

/-- A row of `payment_methods`. -/
structure PaymentMethod where
  id : ℕ
  userId : ℕ
  provider : String
  methodType : String
  providerToken : String
  last4 : Option String
  brand : Option String
  metadata : Metadata
  isDefault : Bool
  status : Status
  createdAt : ℕ
  updatedAt : ℕ
  deriving DecidableEq, Repr

instance : Row PaymentMethod ℕ := ⟨PaymentMethod.id⟩

/-- `details`, which should be an object. -/
inductive Details where
  | object (metadata : Metadata)
  | other

structure AddRequest where
  userId : ℕ
  methodType : Option String
  providerToken : Option String
  provider : Option String
  isDefault : Bool
  details : Option Details

/-! ## The columns of a new row -/

def allowedTypes : List String := ["card", "netbanking", "upi", "wallet"]

def methodTypeAliases : List (String × String) :=
  [("net_banking", "netbanking"), ("netbank", "netbanking")]

section

variable [Characters]

def normalizeMethodType (raw : Option String) : Except Exc String :=
  let methodType := underscored (lowered (strip (raw.getD "")))
  let methodType := (methodTypeAliases.lookup methodType).getD methodType
  if methodType ∈ allowedTypes then .ok methodType
  else .error (.http 400 ("Unsupported payment method type '" ++ raw.getD "None" ++
    "'. Allowed: ['card', 'netbanking', 'upi', 'wallet']"))

def normalizeProvider (raw : Option String) : String :=
  (truthy (some (lowered (strip ((truthy raw).getD "razorpay"))))).getD "razorpay"

def normalizeProviderToken (raw : Option String) : Except Exc String :=
  let token := strip (raw.getD "")
  if token = "" then .error (.http 400 "provider_token is required")
  else if 255 < token.length then .error (.http 400 "provider_token is too long")
  else .ok token

def metadataOf (details : Option Details) : Except Exc Metadata :=
  match details with
  | none => .ok ⟨"", ""⟩
  | some (.object metadata) => .ok metadata
  | some .other => .error (.http 400 "details must be an object")

def extractLast4 (details : Metadata) (providerToken : String) : Option String :=
  let last4 := strip details.last4
  if last4 ≠ "" ∧ last4.length ≤ 4 then some last4
  else
    let digits := providerToken.toList.filter isdigit
    if 4 ≤ digits.length then some (String.ofList (digits.drop (digits.length - 4))) else none

/-! ## The operations -/

def methodNotFound : Exc := .http 404 "Payment method not found"

/-- The default first, then the newest. -/
def listActiveMethods (methods : Table PaymentMethod) (userId : ℕ) : List PaymentMethod :=
  (methods.filter fun m => m.userId = userId ∧ m.status = .active).insertionSort fun a b =>
    (b.isDefault = true → a.isDefault = true) ∧
      (a.isDefault = b.isDefault → b.createdAt ≤ a.createdAt)

def activeMethod (methods : Table PaymentMethod) (userId methodId : ℕ) : Option PaymentMethod :=
  methods.find? fun m => m.id = methodId ∧ m.userId = userId ∧ m.status = .active

def savedMethod (methods : Table PaymentMethod) (userId : ℕ) (provider token : String) :
    Option PaymentMethod :=
  methods.find? fun m =>
    m.userId = userId ∧ m.provider = provider ∧ m.providerToken = token ∧ m.status = .active

/-- `method.is_default = ...` for each active method of the user. -/
def flagActive (methods : Table PaymentMethod) (userId : ℕ) (flag : PaymentMethod → Bool)
    (now : ℕ) : Table PaymentMethod :=
  methods.update (fun m => m.userId = userId ∧ m.status = .active)
    (fun m => { m with isDefault := flag m, updatedAt := now }) fun _ => rfl

/-- The selected method, as it is read back, and the rows. -/
def setDefault (methods : Table PaymentMethod) (userId methodId now : ℕ) :
    Except Exc (PaymentMethod × Table PaymentMethod) :=
  match activeMethod methods userId methodId with
  | none => .error methodNotFound
  | some selected =>
    .ok ({ selected with isDefault := true, updatedAt := now },
      flagActive methods userId (fun m => m.id = selected.id) now)

def newMethod (r : AddRequest) (provider methodType token : String) (metadata : Metadata)
    (isDefault : Bool) (now id : ℕ) : PaymentMethod where
  id := id
  userId := r.userId
  provider := provider
  methodType := methodType
  providerToken := token
  last4 := extractLast4 metadata token
  brand := truthy (some (strip metadata.brand))
  metadata := metadata
  isDefault := isDefault
  status := .active
  createdAt := now
  updatedAt := now

/-- The method, whether it is a new one, and the rows. -/
def addMethod (methods : Table PaymentMethod) (r : AddRequest) (now : ℕ) :
    Except Exc (PaymentMethod × Bool × Table PaymentMethod) := do
  let methodType ← normalizeMethodType r.methodType
  let provider := normalizeProvider r.provider
  let token ← normalizeProviderToken r.providerToken
  let metadata ← metadataOf r.details
  match savedMethod methods r.userId provider token with
  | some existing =>
    if r.isDefault ∧ ¬ existing.isDefault then
      let (selected, chosen) ← setDefault methods r.userId existing.id now
      return (selected, false, chosen)
    else return (existing, false, methods)
  | none =>
    let shouldBeDefault := r.isDefault || (listActiveMethods methods r.userId).isEmpty
    let cleared :=
      if shouldBeDefault then flagActive methods r.userId (fun _ => false) now else methods
    let created := newMethod r provider methodType token metadata shouldBeDefault now
    return (created cleared.freshKey, true, cleared.add created)

end

/-- The newest other active method of the user. -/
def replacement (methods : Table PaymentMethod) (userId methodId : ℕ) : Option PaymentMethod :=
  ((methods.filter fun m =>
    m.userId = userId ∧ m.status = .active ∧ m.id ≠ methodId).insertionSort fun a b =>
      b.createdAt ≤ a.createdAt).head?

/-- A deleted row. -/
def gone (method : PaymentMethod) (now : ℕ) : PaymentMethod :=
  { method with status := .deleted, isDefault := false, updatedAt := now }

/-- The row that takes the place of a deleted default. -/
def promoted (method : PaymentMethod) (now : ℕ) : PaymentMethod :=
  { method with isDefault := true, updatedAt := now }

/-- The two times are those at which the two rows are written. -/
def deleteMethod (methods : Table PaymentMethod) (userId methodId deletedAt replacedAt : ℕ) :
    Except Exc (Table PaymentMethod) :=
  match activeMethod methods userId methodId with
  | none => .error methodNotFound
  | some method =>
    let deleted := methods.set (gone method deletedAt)
    if method.isDefault then
      match replacement deleted userId methodId with
      | some r => .ok (deleted.set (promoted r replacedAt))
      | none => .ok deleted
    else .ok deleted

/-! ## Runs -/

/-- A call, with the times at which it reads the clock. -/
inductive Call where
  | addMethod (r : AddRequest) (now : ℕ)
  | deleteMethod (userId methodId deletedAt replacedAt : ℕ)
  | setDefault (userId methodId now : ℕ)

def Call.userId : Call → ℕ
  | addMethod r _ => r.userId
  | deleteMethod userId _ _ _ => userId
  | setDefault userId _ _ => userId

/-- The rows after a call; one that raises leaves them. -/
def step [Characters] (methods : Table PaymentMethod) : Call → Table PaymentMethod
  | .addMethod r now =>
    match addMethod methods r now with
    | .ok (_, _, methods') => methods'
    | .error _ => methods
  | .deleteMethod userId methodId deletedAt replacedAt =>
    match deleteMethod methods userId methodId deletedAt replacedAt with
    | .ok methods' => methods'
    | .error _ => methods
  | .setDefault userId methodId now =>
    match setDefault methods userId methodId now with
    | .ok (_, methods') => methods'
    | .error _ => methods

def rowsOf (methods : Table PaymentMethod) (userId : ℕ) : List PaymentMethod :=
  methods.filter fun m => m.userId = userId

/-- No two active rows have one provider and token; the columns hold the normalised ones. -/
def Distinct (rows : List PaymentMethod) : Prop :=
  ∀ m ∈ rows, ∀ m' ∈ rows, m.status = .active → m'.status = .active → m.provider = m'.provider →
    m.providerToken = m'.providerToken → m = m'

/-- What the rows of one user keep. -/
structure Consistent (rows : List PaymentMethod) : Prop where
  /-- with an active method, exactly one row is the default -/
  oneDefault : (∃ m ∈ rows, m.status = .active) → ∃! m, m ∈ rows ∧ m.isDefault = true
  /-- and it is active: no deleted row is -/
  active : ∀ m ∈ rows, m.isDefault = true → m.status = .active
  distinct : Distinct rows

/-! ## The rows of one user after a write -/

variable {m : PaymentMethod} {methods : Table PaymentMethod} {u : ℕ}

theorem mem_rowsOf :
    m ∈ rowsOf methods u ↔ m ∈ methods ∧ m.userId = u := by
  simp [rowsOf, Table.mem_filter]

theorem eq_of_id {m m' : PaymentMethod}
    (hm : m ∈ rowsOf methods u) (hm' : m' ∈ rowsOf methods u) (h : m.id = m'.id) : m = m' :=
  Table.eq_of_key (mem_rowsOf.mp hm).1 (mem_rowsOf.mp hm').1 h

/-- What `flagActive` makes of a row of the user. -/
def flagged (flag : PaymentMethod → Bool) (now : ℕ) (m : PaymentMethod) : PaymentMethod :=
  if m.status = .active then { m with isDefault := flag m, updatedAt := now } else m

theorem rowsOf_flagActive (methods : Table PaymentMethod) (u v : ℕ) (flag : PaymentMethod → Bool)
    (now : ℕ) :
    rowsOf (flagActive methods u flag now) v =
      (rowsOf methods v).map fun m => if v = u then flagged flag now m else m := by
  have hkeeps : ∀ m ∈ methods, decide (m.userId = u ∧ m.status = .active) = true →
      decide (({ m with isDefault := flag m, updatedAt := now } : PaymentMethod).userId = v) =
        decide (m.userId = v) := fun _ _ _ => rfl
  refine (Table.filter_update _ hkeeps).trans (List.map_congr_left fun m hm => ?_)
  have hv : m.userId = v := (mem_rowsOf.mp hm).2
  by_cases h : v = u <;> simp [flagged, hv, h]

theorem rowsOf_set {m r : PaymentMethod}
    (hm : m ∈ rowsOf methods u) (hid : r.id = m.id) (hr : r.userId = u) :
    rowsOf (methods.set r) u = (rowsOf methods u).map fun x => if x.id = r.id then r else x := by
  refine Table.filter_set fun x hx hk => ?_
  have hxm : x = m := Table.eq_of_key hx (mem_rowsOf.mp hm).1 (hk.trans hid)
  simp [hxm, (mem_rowsOf.mp hm).2, hr]

theorem rowsOf_set_ne {u v : ℕ} {m r : PaymentMethod}
    (hm : m ∈ rowsOf methods u) (hid : r.id = m.id) (hr : r.userId = u) (h : v ≠ u) :
    rowsOf (methods.set r) v = rowsOf methods v := by
  have hne : u ≠ v := h.symm
  refine Table.filter_set_of_not (by simp [hr, hne]) fun x hx hk => ?_
  have hxm : x = m := Table.eq_of_key hx (mem_rowsOf.mp hm).1 (hk.trans hid)
  simp [hxm, (mem_rowsOf.mp hm).2, hne]

theorem gone_columns (m : PaymentMethod) (now : ℕ) :
    (gone m now).provider = m.provider ∧ (gone m now).providerToken = m.providerToken ∧
      (gone m now).status = .deleted ∧ (gone m now).isDefault = false := ⟨rfl, rfl, rfl, rfl⟩

theorem promoted_columns (m : PaymentMethod) (now : ℕ) :
    (promoted m now).provider = m.provider ∧ (promoted m now).providerToken = m.providerToken ∧
      (promoted m now).status = m.status ∧ (promoted m now).isDefault = true :=
  ⟨rfl, rfl, rfl, rfl⟩

theorem mem_rowsOf_gone {u n : ℕ} {m r : PaymentMethod}
    (hr : r ∈ rowsOf methods u) (hid : r.id ≠ m.id) : r ∈ rowsOf (methods.set (gone m n)) u := by
  refine mem_rowsOf.mpr ⟨?_, (mem_rowsOf.mp hr).2⟩
  exact Table.mem_set.mpr (.inl ⟨(mem_rowsOf.mp hr).1, hid⟩)

theorem activeMethod_eq_some {u k : ℕ} (h : activeMethod methods u k = some m) :
    m ∈ rowsOf methods u ∧ m.id = k ∧ m.status = .active := by
  have hprop := Table.find?_prop h
  obtain ⟨hid, hu, hactive⟩ := of_decide_eq_true hprop
  exact ⟨mem_rowsOf.mpr ⟨Table.find?_mem h, hu⟩, hid, hactive⟩

/-! ## Rows rewritten in place -/

variable {f : PaymentMethod → PaymentMethod} {rows : List PaymentMethod}

theorem Distinct.map (h : Distinct rows) (hprovider : ∀ m ∈ rows, (f m).provider = m.provider)
    (htoken : ∀ m ∈ rows, (f m).providerToken = m.providerToken)
    (hstatus : ∀ m ∈ rows, (f m).status = .active → m.status = .active) :
    Distinct (rows.map f) := by
  intro m hm m' hm' hactive hactive' hp ht
  obtain ⟨x, hx, rfl⟩ := List.mem_map.mp hm
  obtain ⟨y, hy, rfl⟩ := List.mem_map.mp hm'
  have hxy : x = y := by
    refine h x hx y hy (hstatus x hx hactive) (hstatus y hy hactive') ?_ ?_
    · rw [← hprovider x hx, ← hprovider y hy, hp]
    · rw [← htoken x hx, ← htoken y hy, ht]
  rw [hxy]

theorem Distinct.concat (h : Distinct rows)
    (hnew : ∀ x ∈ rows, x.status = .active → x.provider = m.provider →
      x.providerToken ≠ m.providerToken) : Distinct (rows ++ [m]) := by
  intro x hx y hy hxactive hyactive hp ht
  rw [List.mem_append, List.mem_singleton] at hx hy
  rcases hx with hx | rfl <;> rcases hy with hy | rfl
  · exact h x hx y hy hxactive hyactive hp ht
  · exact absurd ht (hnew x hx hxactive hp)
  · exact absurd ht.symm (hnew y hy hyactive hp.symm)
  · rfl

/-- Rows of which none becomes active, and one at most is the default. -/
theorem Consistent.map (h : Consistent rows) (hprovider : ∀ m ∈ rows, (f m).provider = m.provider)
    (htoken : ∀ m ∈ rows, (f m).providerToken = m.providerToken)
    (hstatus : ∀ m ∈ rows, (f m).status = .active → m.status = .active)
    (hactive : ∀ m ∈ rows, (f m).isDefault = true → (f m).status = .active)
    (hone : (∃ m ∈ rows, (f m).status = .active) → ∃! m, m ∈ rows ∧ (f m).isDefault = true) :
    Consistent (rows.map f) where
  oneDefault := by
    rintro ⟨x, hx, hxactive⟩
    obtain ⟨m, hm, rfl⟩ := List.mem_map.mp hx
    obtain ⟨d, ⟨hd, hdefault⟩, hunique⟩ := hone ⟨m, hm, hxactive⟩
    refine ⟨f d, ⟨List.mem_map_of_mem hd, hdefault⟩, ?_⟩
    rintro y ⟨hy, hydefault⟩
    obtain ⟨z, hz, rfl⟩ := List.mem_map.mp hy
    rw [hunique z ⟨hz, hydefault⟩]
  active := by
    intro x hx hdefault
    obtain ⟨m, hm, rfl⟩ := List.mem_map.mp hx
    exact hactive m hm hdefault
  distinct := h.distinct.map hprovider htoken hstatus

/-! ## The three operations -/

variable {selected : PaymentMethod}

theorem Consistent.chosen (h : Consistent rows)
    (hids : ∀ m ∈ rows, ∀ m' ∈ rows, m.id = m'.id → m = m')
    (hselected : selected ∈ rows) (hstatus : selected.status = .active) (now : ℕ) :
    Consistent (rows.map (flagged (fun m => m.id = selected.id) now)) := by
  have hdefault : ∀ m ∈ rows,
      (flagged (fun m => m.id = selected.id) now m).isDefault = true ↔ m = selected := by
    intro m hm
    unfold flagged
    split_ifs with hactive
    · simp only [decide_eq_true_eq]
      exact ⟨hids m hm selected hselected, fun hms => by rw [hms]⟩
    · refine ⟨fun hd => absurd (h.active m hm hd) hactive, fun hms => ?_⟩
      exact absurd (hms ▸ hstatus) hactive
  refine h.map (fun m _ => ?_) (fun m _ => ?_) (fun m _ => ?_) (fun m hm hd => ?_) fun _ => ?_
  · unfold flagged; split_ifs <;> rfl
  · unfold flagged; split_ifs <;> rfl
  · unfold flagged; split_ifs with hactive <;> simp [hactive]
  · rw [(hdefault m hm).mp hd]
    simp [flagged, hstatus]
  · refine ⟨selected, ⟨hselected, (hdefault selected hselected).mpr rfl⟩, ?_⟩
    rintro m ⟨hm, hd⟩
    exact (hdefault m hm).mp hd

variable {created : PaymentMethod}

theorem Consistent.added_default (h : Consistent rows)
    (hnew : ∀ x ∈ rows, x.status = .active →
      x.provider = created.provider → x.providerToken ≠ created.providerToken)
    (hstatus : created.status = .active) (hflag : created.isDefault = true) (now : ℕ) :
    Consistent (rows.map (flagged (fun _ => false) now) ++ [created]) := by
  have hcleared : ∀ x ∈ rows.map (flagged (fun _ => false) now), x.isDefault = false := by
    intro x hx
    obtain ⟨m, hm, rfl⟩ := List.mem_map.mp hx
    unfold flagged
    split_ifs with hactive
    · rfl
    · have hd := mt (h.active m hm) hactive
      simpa using hd
  have hdistinct : Distinct (rows.map (flagged (fun _ => false) now)) := by
    refine h.distinct.map (fun m _ => ?_) (fun m _ => ?_) fun m _ => ?_
    · unfold flagged; split_ifs <;> rfl
    · unfold flagged; split_ifs <;> rfl
    · unfold flagged; split_ifs with hactive <;> simp [hactive]
  refine ⟨fun _ => ⟨created, ⟨by simp, hflag⟩, ?_⟩, ?_, hdistinct.concat ?_⟩
  · rintro x ⟨hx, hd⟩
    rcases List.mem_append.mp hx with hx | hx
    · have := hcleared x hx
      simp [hd] at this
    · exact List.mem_singleton.mp hx
  · intro x hx hd
    rcases List.mem_append.mp hx with hx | hx
    · have := hcleared x hx
      simp [hd] at this
    · rw [List.mem_singleton.mp hx]
      exact hstatus
  · intro x hx hactive hp
    obtain ⟨m, hm, rfl⟩ := List.mem_map.mp hx
    unfold flagged at hactive hp ⊢
    split_ifs at hactive hp ⊢ with hma
    · exact hnew m hm hma hp
    · exact absurd hactive hma

theorem Consistent.added (h : Consistent rows)
    (hnew : ∀ x ∈ rows, x.status = .active →
      x.provider = created.provider → x.providerToken ≠ created.providerToken)
    (hsome : ∃ m ∈ rows, m.status = .active) (hflag : created.isDefault = false) :
    Consistent (rows ++ [created]) := by
  obtain ⟨d, ⟨hd, hdefault⟩, hunique⟩ := h.oneDefault hsome
  refine ⟨fun _ => ⟨d, ⟨List.mem_append_left _ hd, hdefault⟩, ?_⟩, ?_, h.distinct.concat hnew⟩
  · rintro x ⟨hx, hxd⟩
    rcases List.mem_append.mp hx with hx | hx
    · exact hunique x ⟨hx, hxd⟩
    · rw [List.mem_singleton.mp hx, hflag] at hxd
      cases hxd
  · intro x hx hxd
    rcases List.mem_append.mp hx with hx | hx
    · exact h.active x hx hxd
    · rw [List.mem_singleton.mp hx, hflag] at hxd
      cases hxd

theorem Consistent.removed (h : Consistent rows)
    {method gone : PaymentMethod} (hm : method ∈ rows) (hactive : method.status = .active)
    (hgone : gone.provider = method.provider ∧ gone.providerToken = method.providerToken ∧
      gone.status = .deleted ∧ gone.isDefault = false)
    (hf : f method = gone) (hother : ∀ x ∈ rows, x ≠ method → f x = x)
    (hsafe : method.isDefault = false ∨ ∀ x ∈ rows, x.status = .active → x = method) :
    Consistent (rows.map f) := by
  obtain ⟨hprovider, htoken, hdeleted, hflag⟩ := hgone
  have hcases : ∀ x ∈ rows, x = method ∨ x ≠ method ∧ f x = x := by
    intro x hx
    by_cases hxm : x = method
    · exact .inl hxm
    · exact .inr ⟨hxm, hother x hx hxm⟩
  refine h.map (fun x hx => ?_) (fun x hx => ?_) (fun x hx hxa => ?_) (fun x hx hxd => ?_) ?_
  · rcases hcases x hx with rfl | ⟨-, hfx⟩
    · rw [hf, hprovider]
    · rw [hfx]
  · rcases hcases x hx with rfl | ⟨-, hfx⟩
    · rw [hf, htoken]
    · rw [hfx]
  · rcases hcases x hx with rfl | ⟨-, hfx⟩
    · exact hactive
    · rwa [hfx] at hxa
  · rcases hcases x hx with rfl | ⟨-, hfx⟩
    · simp [hf, hflag] at hxd
    · rw [hfx] at hxd ⊢
      exact h.active x hx hxd
  · rintro ⟨x, hx, hxa⟩
    have hxm : x ≠ method := by
      rintro rfl
      simp [hf, hdeleted] at hxa
    rw [hother x hx hxm] at hxa
    rcases hsafe with hnot | honly
    · obtain ⟨d, ⟨hd, hdefault⟩, hunique⟩ := h.oneDefault ⟨x, hx, hxa⟩
      have hdm : d ≠ method := by
        rintro rfl
        simp [hnot] at hdefault
      refine ⟨d, ⟨hd, by rw [hother d hd hdm]; exact hdefault⟩, ?_⟩
      rintro y ⟨hy, hyd⟩
      rcases hcases y hy with rfl | ⟨-, hfy⟩
      · simp [hf, hflag] at hyd
      · exact hunique y ⟨hy, by rwa [hfy] at hyd⟩
    · exact absurd (honly x hx hxa) hxm

theorem Consistent.replaced (h : Consistent rows)
    {method gone r r' : PaymentMethod} (hm : method ∈ rows) (hdefault : method.isDefault = true)
    (hgone : gone.provider = method.provider ∧ gone.providerToken = method.providerToken ∧
      gone.status = .deleted ∧ gone.isDefault = false)
    (hr : r ∈ rows) (hractive : r.status = .active) (hrm : r ≠ method)
    (hr' : r'.provider = r.provider ∧ r'.providerToken = r.providerToken ∧ r'.status = r.status ∧
      r'.isDefault = true)
    (hf : f method = gone) (hfr : f r = r')
    (hother : ∀ x ∈ rows, x ≠ method → x ≠ r → f x = x) : Consistent (rows.map f) := by
  obtain ⟨hprovider, htoken, hdeleted, hflag⟩ := hgone
  obtain ⟨hrprovider, hrtoken, hrstatus, hrflag⟩ := hr'
  have hactive : method.status = .active := h.active method hm hdefault
  obtain ⟨d, -, hunique⟩ := h.oneDefault ⟨r, hr, hractive⟩
  have hmd : method = d := hunique method ⟨hm, hdefault⟩
  have hcases : ∀ x ∈ rows, x = method ∨ x = r ∨ x ≠ method ∧ x.isDefault = false ∧ f x = x := by
    intro x hx
    by_cases hxm : x = method
    · exact .inl hxm
    · by_cases hxr : x = r
      · exact .inr (.inl hxr)
      · refine .inr (.inr ⟨hxm, ?_, hother x hx hxm hxr⟩)
        by_contra hxd
        have hxdefault : x.isDefault = true := by simpa using hxd
        exact hxm ((hunique x ⟨hx, hxdefault⟩).trans hmd.symm)
  refine h.map (fun x hx => ?_) (fun x hx => ?_) (fun x hx hxa => ?_) (fun x hx hxd => ?_)
    fun _ => ⟨r, ⟨hr, by rw [hfr, hrflag]⟩, ?_⟩
  · rcases hcases x hx with rfl | rfl | ⟨-, -, hfx⟩
    · rw [hf, hprovider]
    · rw [hfr, hrprovider]
    · rw [hfx]
  · rcases hcases x hx with rfl | rfl | ⟨-, -, hfx⟩
    · rw [hf, htoken]
    · rw [hfr, hrtoken]
    · rw [hfx]
  · rcases hcases x hx with rfl | rfl | ⟨-, -, hfx⟩
    · exact hactive
    · exact hractive
    · rwa [hfx] at hxa
  · rcases hcases x hx with rfl | rfl | ⟨-, hxd', hfx⟩
    · simp [hf, hflag] at hxd
    · rw [hfr, hrstatus, hractive]
    · simp [hfx, hxd'] at hxd
  · rintro x ⟨hx, hxd⟩
    rcases hcases x hx with rfl | rfl | ⟨-, hxd', hfx⟩
    · simp [hf, hflag] at hxd
    · rfl
    · simp [hfx, hxd'] at hxd

/-! ## What one call does -/

/-- What a call of `u` can do to the rows. -/
inductive Stepped (methods : Table PaymentMethod) (u : ℕ) : Table PaymentMethod → Prop where
  | refused : Stepped methods u methods
  | chosen {selected now} (hselected : selected ∈ rowsOf methods u)
    (hstatus : selected.status = .active) :
    Stepped methods u (flagActive methods u (fun m => m.id = selected.id) now)
  | added {created : ℕ → PaymentMethod} {clears : Bool} {now : ℕ}
    (hkey : ∀ k, Row.key (created k) = k)
    (hcreated : ∀ k, (created k).userId = u ∧ (created k).status = .active ∧
      (created k).isDefault = clears)
    (hnew : ∀ k, ∀ x ∈ rowsOf methods u, x.status = .active →
      x.provider = (created k).provider → x.providerToken ≠ (created k).providerToken)
    (hsome : clears = false → ∃ m ∈ rowsOf methods u, m.status = .active) :
    Stepped methods u
      ((if clears then flagActive methods u (fun _ => false) now else methods).add created hkey)
  | removed {method : PaymentMethod} {deletedAt : ℕ} (hm : method ∈ rowsOf methods u)
    (hstatus : method.status = .active)
    (hsafe : method.isDefault = false ∨
      ∀ x ∈ rowsOf methods u, x.status = .active → x = method) :
    Stepped methods u (methods.set (gone method deletedAt))
  | replaced {method r : PaymentMethod} {deletedAt replacedAt : ℕ} (hm : method ∈ rowsOf methods u)
    (hdefault : method.isDefault = true) (hr : r ∈ rowsOf methods u)
    (hractive : r.status = .active) (hrm : r.id ≠ method.id) :
    Stepped methods u ((methods.set (gone method deletedAt)).set (promoted r replacedAt))

theorem stepped_setDefault {methods methods' : Table PaymentMethod} {u k now : ℕ}
    (h : setDefault methods u k now = .ok (selected, methods')) :
    Stepped methods u methods' := by
  unfold setDefault at h
  split at h
  · cases h
  · next m hm =>
    cases h
    obtain ⟨hmem, -, hactive⟩ := activeMethod_eq_some hm
    exact .chosen hmem hactive

theorem mem_listActiveMethods :
    m ∈ listActiveMethods methods u ↔ m ∈ rowsOf methods u ∧ m.status = .active := by
  simp [listActiveMethods, Table.mem_filter, mem_rowsOf, and_assoc]

theorem stepped_addMethod [Characters] {methods methods' : Table PaymentMethod} {r : AddRequest}
    {now : ℕ} {created : Bool} (h : addMethod methods r now = .ok (m, created, methods')) :
    Stepped methods r.userId methods' := by
  unfold addMethod at h
  obtain ⟨methodType, -, h⟩ := except_bind_ok.mp h
  obtain ⟨token, -, h⟩ := except_bind_ok.mp h
  obtain ⟨metadata, -, h⟩ := except_bind_ok.mp h
  split at h
  · next existing hexisting =>
    split_ifs at h with hchoose
    · obtain ⟨⟨selected, chosen⟩, hset, h⟩ := except_bind_ok.mp h
      cases h
      exact stepped_setDefault hset
    · cases h
      exact .refused
  · next hnone =>
    cases h
    have hunsaved : ∀ x ∈ rowsOf methods r.userId, x.status = .active →
        x.provider = normalizeProvider r.provider → x.providerToken ≠ token := by
      intro x hx hactive hp ht
      have hx' := Table.find?_eq_none.mp hnone x (mem_rowsOf.mp hx).1
      simp [(mem_rowsOf.mp hx).2, hactive, hp, ht] at hx'
    refine .added (fun _ => rfl) (fun _ => ⟨rfl, rfl, rfl⟩) (fun _ => hunsaved) fun hnot => ?_
    have hsome : listActiveMethods methods r.userId ≠ [] := by
      intro hnil
      simp [hnil] at hnot
    obtain ⟨x, hx⟩ := List.exists_mem_of_ne_nil _ hsome
    exact ⟨x, mem_listActiveMethods.mp hx⟩

theorem stepped_deleteMethod {methods methods' : Table PaymentMethod}
    {u k deletedAt replacedAt : ℕ}
    (h : deleteMethod methods u k deletedAt replacedAt = .ok methods') :
    Stepped methods u methods' := by
  unfold deleteMethod at h
  split at h
  · cases h
  · next method hmethod =>
    obtain ⟨hm, hid, hactive⟩ := activeMethod_eq_some hmethod
    -- the rows among which the replacement is sought are those before the deletion
    have hothers : ∀ x, x ∈ methods.set (gone method deletedAt) ∧ x.id ≠ k ↔
        x ∈ methods ∧ x.id ≠ k := by
      intro x
      rw [Table.mem_set]
      constructor
      · rintro ⟨⟨hx, -⟩ | ⟨rfl, -⟩, hne⟩
        · exact ⟨hx, hne⟩
        · exact absurd hid hne
      · rintro ⟨hx, hne⟩
        exact ⟨.inl ⟨hx, fun hk => hne (Eq.trans hk hid)⟩, hne⟩
    dsimp only at h
    split_ifs at h with hdefault
    · split at h
      · next r hr =>
        cases h
        have hmem := List.mem_of_mem_head? hr
        rw [List.mem_insertionSort, Table.mem_filter, decide_eq_true_eq] at hmem
        obtain ⟨hr, hu, hractive, hrk⟩ := hmem
        have hrow : r ∈ methods := ((hothers r).mp ⟨hr, hrk⟩).1
        exact .replaced hm hdefault (mem_rowsOf.mpr ⟨hrow, hu⟩) hractive (hid ▸ hrk)
      · next hnone =>
        cases h
        refine .removed hm hactive (.inr fun x hx hxa => ?_)
        by_contra hne
        have hxk : x.id ≠ k := fun hxk => hne (eq_of_id hx hm (hxk.trans hid.symm))
        rw [replacement, List.head?_eq_none_iff] at hnone
        have hx' := ((hothers x).mpr ⟨(mem_rowsOf.mp hx).1, hxk⟩).1
        have hmem : x ∈ ([] : List PaymentMethod) := by
          rw [← hnone, List.mem_insertionSort, Table.mem_filter, decide_eq_true_eq]
          exact ⟨hx', (mem_rowsOf.mp hx).2, hxa, hxk⟩
        cases hmem
    · cases h
      exact .removed hm hactive (.inl (by simpa using hdefault))

theorem stepped [Characters] (methods : Table PaymentMethod) (c : Call) :
    Stepped methods c.userId (step methods c) := by
  cases c with
  | addMethod r now =>
    simp only [step]
    split
    · next h => exact stepped_addMethod h
    · exact .refused
  | deleteMethod u k deletedAt replacedAt =>
    simp only [step]
    split
    · next h => exact stepped_deleteMethod h
    · exact .refused
  | setDefault u k now =>
    simp only [step]
    split
    · next h => exact stepped_setDefault h
    · exact .refused

/-! ## Every run -/

theorem Stepped.others {methods methods' : Table PaymentMethod} {u v : ℕ}
    (h : Stepped methods u methods') (hv : v ≠ u) : rowsOf methods' v = rowsOf methods v := by
  have hflag := fun flag now => rowsOf_flagActive methods u v flag now
  simp only [hv, if_false, List.map_id'] at hflag
  cases h with
  | refused => rfl
  | chosen => exact hflag _ _
  | @added created clears now hkey hcreated =>
    have hne : (created (if clears then flagActive methods u (fun _ => false) now
        else methods).freshKey).userId ≠ v := by
      rw [(hcreated _).1]
      omega
    rw [rowsOf, Table.filter_add_mk hkey]
    simp only [hne, decide_false, Bool.false_eq_true, if_false, List.append_nil]
    cases clears
    · rfl
    · exact hflag _ _
  | removed hm => exact rowsOf_set_ne hm rfl (mem_rowsOf.mp hm).2 hv
  | @replaced method r deletedAt replacedAt hm _ hr _ hrm =>
    have hset := rowsOf_set_ne (r := gone method deletedAt) hm rfl (mem_rowsOf.mp hm).2 hv
    have hr' := mem_rowsOf_gone (n := deletedAt) hr hrm
    rw [← hset]
    exact rowsOf_set_ne hr' rfl (mem_rowsOf.mp hr).2 hv

theorem Stepped.consistent {methods methods' : Table PaymentMethod}
    (h : Stepped methods u methods') (hrows : Consistent (rowsOf methods u)) :
    Consistent (rowsOf methods' u) := by
  have hflag := fun flag now => rowsOf_flagActive methods u u flag now
  simp only [if_true] at hflag
  have hids : ∀ m ∈ rowsOf methods u, ∀ m' ∈ rowsOf methods u, m.id = m'.id → m = m' :=
    fun _ hm _ hm' => eq_of_id hm hm'
  cases h with
  | refused => exact hrows
  | chosen hselected hstatus =>
    rw [hflag]
    exact hrows.chosen hids hselected hstatus _
  | @added created clears now hkey hcreated hnew hsome =>
    rw [rowsOf, Table.filter_add_mk hkey]
    generalize (if clears then flagActive methods u (fun _ => false) now
      else methods).freshKey = k
    obtain ⟨hu, hactive, hclears⟩ := hcreated k
    simp only [hu, decide_true, if_true]
    cases clears with
    | false => exact hrows.added (hnew k) (hsome rfl) hclears
    | true =>
      have hrest : (flagActive methods u (fun _ => false) now).filter (fun m => m.userId = u) =
          (rowsOf methods u).map (flagged (fun _ => false) now) := hflag _ _
      simp only [if_true]
      rw [hrest]
      exact hrows.added_default (hnew k) hactive hclears now
  | @removed method deletedAt hm hstatus hsafe =>
    have hu : method.userId = u := (mem_rowsOf.mp hm).2
    rw [rowsOf_set (r := gone method deletedAt) hm rfl hu]
    have hother : ∀ x ∈ rowsOf methods u, x ≠ method →
        (if x.id = (gone method deletedAt).id then gone method deletedAt else x) = x :=
      fun x hx hxm => if_neg fun hid => hxm (hids x hx method hm hid)
    exact hrows.removed hm hstatus (gone_columns method deletedAt) (if_pos rfl) hother hsafe
  | @replaced method r deletedAt replacedAt hm hdefault hr hractive hrm =>
    have hu : method.userId = u := (mem_rowsOf.mp hm).2
    have hr' := mem_rowsOf_gone (n := deletedAt) hr hrm
    have hset := rowsOf_set (r := promoted r replacedAt) hr' rfl (mem_rowsOf.mp hr).2
    rw [hset, rowsOf_set (r := gone method deletedAt) hm rfl hu, List.map_map]
    have hmr : ¬ method.id = r.id := fun hid => hrm hid.symm
    refine hrows.replaced hm hdefault (gone_columns method deletedAt) hr hractive
      (fun heq => hrm (by rw [heq])) (promoted_columns r replacedAt) ?_ ?_ fun x hx hxm hxr => ?_
    · simp [gone, promoted, hmr]
    · simp [gone, promoted, hrm]
    · have hxid : ¬ x.id = method.id := fun hid => hxm (hids x hx method hm hid)
      have hxr' : ¬ x.id = r.id := fun hid => hxr (hids x hx r hr hid)
      simp [gone, promoted, hxid, hxr']

theorem consistent_step [Characters] (c : Call)
    (h : ∀ u, Consistent (rowsOf methods u)) (u : ℕ) : Consistent (rowsOf (step methods c) u) := by
  by_cases hu : u = c.userId
  · rw [hu]
    exact (stepped methods c).consistent (h c.userId)
  · rw [(stepped methods c).others hu]
    exact h u

/-- **Every run** of calls keeps every user's methods consistent, and no call changes the methods
of another user. -/
theorem methods_consistent [Characters] {methods : Table PaymentMethod}
    (h : ∀ u, Consistent (rowsOf methods u)) (calls : List Call) :
    (∀ u, Consistent (rowsOf (run step methods calls) u)) ∧
      Along step (fun s c => ∀ v, v ≠ c.userId → rowsOf (step s c) v = rowsOf s v) methods
        calls := by
  constructor
  · have hstep : ∀ (s : Table PaymentMethod) (c : Call), (∀ u, Consistent (rowsOf s u)) →
        ∀ u, Consistent (rowsOf (step s c) u) := fun _ c hs => consistent_step c hs
    exact run_invariant hstep h calls
  · exact along_iff.mpr fun _ c _ _ v hv => (stepped _ c).others hv

theorem consistent_empty (u : ℕ) : Consistent (rowsOf Table.empty u) where
  oneDefault := by
    rintro ⟨m, hm, -⟩
    cases hm
  active _ hm := by cases hm
  distinct _ hm := by cases hm

/-- A card is saved twice and deleted, while another user saves a method and prefers it. -/
def sampleCalls : List Call :=
  [.addMethod ⟨7, some "Card", some " tok_a", some "RazorPay", false, none⟩ 40,
    .addMethod ⟨7, some "net-banking", some "tok_b", none, true, none⟩ 50,
    .addMethod ⟨7, some "card", some "tok_a", some "razorpay ", true, none⟩ 60,
    .addMethod ⟨8, some "upi", some "tok_a", none, false, none⟩ 70, .setDefault 8 3 80,
    .deleteMethod 7 1 90 90]

example : ((run step Table.empty sampleCalls).rows.map fun m => (m.id, m.isDefault, m.status)) =
    [(1, false, .deleted), (2, true, .active), (3, true, .active)] := by decide +kernel

theorem methods_consistent_sample :
    (∀ u, Consistent (rowsOf (run step Table.empty sampleCalls) u)) ∧
      Along step (fun s c => ∀ v, v ≠ c.userId → rowsOf (step s c) v = rowsOf s v) Table.empty
        sampleCalls :=
  methods_consistent consistent_empty sampleCalls

end WezuBackend.Payments.Methods
