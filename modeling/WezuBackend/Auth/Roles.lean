import WezuBackend.Auth.Tokens
import WezuBackend.Core.Unicode
import Mathlib.Data.List.Sort

/-!
# Roles

`app/api/deps.py`, from a validated token to the names that a role check looks at.  The roles of a
user are assigned with a window of validity; `users.role_id` points at one of them, and is moved
when it points elsewhere.  Without an assignment in its window the primary role is taken instead,
whatever its state (`role_windows_iff`).
-/

namespace WezuBackend.Auth.Roles

open Lib.Tables Core.Base Core.Text
open Core.Unicode
open Auth.Tokens (Account ValidatedToken authUnauthorized checkUser)

/-! ## Rows -/

inductive UserType where
  | customer
  | admin
  | dealer
  | dealerStaff
  | supportAgent
  | logistics
  deriving DecidableEq, Repr

def UserType.text : UserType → String
  | customer => "CUSTOMER"
  | admin => "ADMIN"
  | dealer => "DEALER"
  | dealerStaff => "DEALER_STAFF"
  | supportAgent => "SUPPORT_AGENT"
  | logistics => "LOGISTICS"

/-- A row of `users`: what a request is checked against. -/
structure User extends Account where
  userType : UserType
  isSuperuser : Bool
  roleId : Option ℕ
  deriving DecidableEq, Repr

instance : Row User ℕ := ⟨fun user => user.id⟩

structure Role where
  id : ℕ
  name : String
  level : ℤ
  isActive : Bool
  deriving DecidableEq, Repr

instance : Row Role ℕ := ⟨Role.id⟩

structure UserRole where
  userId : ℕ
  roleId : ℕ
  effectiveFrom : ℤ
  expiresAt : Option ℤ
  deriving DecidableEq, Repr

instance : Row UserRole (ℕ × ℕ) := ⟨fun ur => (ur.userId, ur.roleId)⟩

structure Db where
  users : Table User
  roles : Table Role
  userRoles : Table UserRole

/-! ## The user of a token -/

/-- The assignment is in its window. -/
def Current (now : ℤ) (ur : UserRole) : Prop :=
  ur.effectiveFrom ≤ now ∧ ∀ e ∈ ur.expiresAt, now ≤ e

instance (now : ℤ) : DecidablePred (Current now) := fun _ =>
  inferInstanceAs (Decidable (_ ∧ _))

/-- The highest level first, and in order of their names. -/
def getActiveRolesForUserId (db : Db) (userId : ℕ) (now : ℤ) : List Role :=
  (db.userRoles.rows.filterMap fun ur =>
    if ur.userId = userId ∧ Current now ur then (db.roles.get? ur.roleId).filter Role.isActive
    else none).insertionSort
      fun a b => b.level < a.level ∨ a.level = b.level ∧ a.name ≤ b.name

/-- The user with the relationship `role` and the attribute `_active_roles_cache`. -/
structure LoadedUser where
  user : User
  role : Option Role
  activeRoles : List Role

/-- The part of `get_user_from_token` that loads the roles; the user is written back if `role_id` is
moved to the first of the active ones. -/
def loadRoles (db : Db) (user : User) (now : ℤ) : LoadedUser × Db :=
  let primary := user.roleId.bind db.roles.get?
  let assigned := getActiveRolesForUserId db user.id now
  match if assigned = [] then primary.toList else assigned with
  | [] => (⟨user, primary, []⟩, db)
  | best :: rest =>
    if user.roleId ∈ (best :: rest).map fun role => some role.id then
      (⟨user, primary, best :: rest⟩, db)
    else
      let moved := { user with roleId := some best.id }
      (⟨moved, db.roles.get? best.id, best :: rest⟩, { db with users := db.users.set moved })

/-- `get_user_from_token` of a validated token; `naive` is of the times of `users`. -/
def getUserFromToken (naive : Bool) (db : Db) (validated : ValidatedToken) (now : ℤ) :
    Except Exc (LoadedUser × Db) :=
  match db.users.get? validated.userId with
  | none => .error (authUnauthorized "token_invalid")
  | some user => do
    checkUser naive user.toAccount validated
    return loadRoles db user now

/-! ## Names -/

def roleNameAliases : List (String × String) :=
  [("admin", "operations_admin"), ("dealer", "dealer_owner"), ("dealer_staff", "dealer_manager"),
    ("vendor_owner", "dealer_owner"), ("logistics", "logistics_manager"),
    ("operator", "dispatcher"), ("dispatch", "dispatcher"), ("superadmin", "super_admin")]

section

variable [Characters]

def canonicalRoleName (roleName : String) : String :=
  if roleName = "" then ""
  else
    let cleaned := lowered (strip roleName)
    (roleNameAliases.lookup cleaned).getD cleaned

def Role.canonicalName (role : Role) : String := canonicalRoleName (lowered (strip role.name))

def UserType.canonicalName (userType : UserType) : String :=
  canonicalRoleName (lowered (strip userType.text))

def getUserRoleNames (loaded : LoadedUser) : List String :=
  ((loaded.activeRoles.map Role.canonicalName).filter (· ≠ "")) ++
    ((loaded.role.toList.map Role.canonicalName).filter (· ≠ "")) ++
    [loaded.user.userType.canonicalName] ++
    if loaded.user.isSuperuser then ["super_admin"] else []

/-! ## What a user is entitled to -/

/-- An active role is assigned to the user, and the assignment is in its window. -/
def Assigned (db : Db) (user : User) (now : ℤ) (role : Role) : Prop :=
  role ∈ db.roles ∧ role.isActive = true ∧
    ∃ ur ∈ db.userRoles, ur.userId = user.id ∧ ur.roleId = role.id ∧ Current now ur

/-- The user has no assignment at all, and the active role is its primary one. -/
def Legacy (db : Db) (user : User) (role : Role) : Prop :=
  (∀ ur ∈ db.userRoles, ur.userId ≠ user.id) ∧ role ∈ db.roles ∧ role.isActive = true ∧
    user.roleId = some role.id

/-- The user may act under the name. -/
def Entitled (db : Db) (user : User) (now : ℤ) (name : String) : Prop :=
  user.isSuperuser = true ∨ name = user.userType.canonicalName ∨
    (∃ role, Assigned db user now role ∧ role.canonicalName = name) ∨
    ∃ role, Legacy db user role ∧ role.canonicalName = name

/-- Whoever the token is of is granted only names that the user is entitled to. -/
def Enforced (naive : Bool) (db : Db) (validated : ValidatedToken) (now : ℤ) : Prop :=
  ∀ user ∈ db.users.get? validated.userId, ∀ loaded db',
    getUserFromToken naive db validated now = .ok (loaded, db') →
    ∀ name ∈ getUserRoleNames loaded, Entitled db user now name

/-- The primary role grants nothing more than the user's type, or is the active one of a user
without assignments. -/
def SafePrimary (db : Db) (user : User) : Prop :=
  ∀ role ∈ db.roles, user.roleId = some role.id →
    role.canonicalName = "" ∨ role.canonicalName = user.userType.canonicalName ∨
      Legacy db user role

/-! ## The roles that are loaded -/

variable {db : Db} {now : ℤ} {user : User}

variable {role : Role}

omit [Characters] in
theorem mem_getActiveRolesForUserId :
    role ∈ getActiveRolesForUserId db user.id now ↔ Assigned db user now role := by
  rw [getActiveRolesForUserId, List.mem_insertionSort, List.mem_filterMap]
  constructor
  · rintro ⟨ur, hur, h⟩
    split at h
    · obtain ⟨huser, hcurrent⟩ := ‹_ ∧ _›
      obtain ⟨hrole, hactive⟩ := Option.filter_eq_some_iff.mp h
      obtain ⟨hmem, hid⟩ := Table.get?_eq_some.mp hrole
      exact ⟨hmem, hactive, ur, hur, huser, hid.symm, hcurrent⟩
    · simp at h
  · rintro ⟨hmem, hactive, ur, hur, huser, hid, hcurrent⟩
    refine ⟨ur, hur, ?_⟩
    have hget : db.roles.get? role.id = some role := Table.get?_of_mem hmem
    rw [if_pos ⟨huser, hcurrent⟩, hid, hget]
    simp [hactive]

omit [Characters] in
theorem assigned_of_loaded (h : ∃ role, Assigned db user now role)
    (hrole : role ∈ (loadRoles db user now).1.activeRoles ∨
      role ∈ (loadRoles db user now).1.role) : Assigned db user now role := by
  obtain ⟨r, hr⟩ := h
  have hne : getActiveRolesForUserId db user.id now ≠ [] :=
    List.ne_nil_of_mem (mem_getActiveRolesForUserId.mpr hr)
  obtain ⟨best, rest, hlist⟩ := List.exists_cons_of_ne_nil hne
  have hall : ∀ x ∈ best :: rest, Assigned db user now x := fun x hx =>
    mem_getActiveRolesForUserId.mp (hlist ▸ hx)
  simp only [loadRoles, hlist, if_neg (List.cons_ne_nil best rest)] at hrole
  split at hrole
  · rename_i hid
    rcases hrole with hrole | hrole
    · exact hall role hrole
    · -- the primary role is one of the active ones
      obtain ⟨x, hx, hxid⟩ := List.mem_map.mp hid
      rw [← hxid] at hrole
      obtain ⟨hmem, hkey⟩ := Table.get?_eq_some.mp (Option.mem_def.mp hrole)
      have heq : role = x := Table.eq_of_key hmem (hall x hx).1 hkey
      exact heq ▸ hall x hx
  · rcases hrole with hrole | hrole
    · exact hall role hrole
    · obtain ⟨hmem, hkey⟩ := Table.get?_eq_some.mp (Option.mem_def.mp hrole)
      have hbest := hall best List.mem_cons_self
      have heq : role = best := Table.eq_of_key hmem hbest.1 hkey
      exact heq ▸ hbest

omit [Characters] in
theorem loadRoles_of_not_assigned (h : ¬ ∃ role, Assigned db user now role) :
    loadRoles db user now =
      (⟨user, user.roleId.bind db.roles.get?, (user.roleId.bind db.roles.get?).toList⟩, db) := by
  have hnil : getActiveRolesForUserId db user.id now = [] :=
    List.eq_nil_iff_forall_not_mem.mpr fun role hrole =>
      h ⟨role, mem_getActiveRolesForUserId.mp hrole⟩
  cases hprimary : user.roleId.bind db.roles.get? with
  | none => simp [loadRoles, hnil, hprimary]
  | some role =>
    obtain ⟨i, hi, hget⟩ := Option.bind_eq_some_iff.mp hprimary
    have hid : role.id = i := (Table.get?_eq_some.mp hget).2
    simp [loadRoles, hnil, hi, hget, hid]

omit [Characters] in
theorem loadRoles_user (db : Db) (user : User) (now : ℤ) :
    (loadRoles db user now).1.user.userType = user.userType ∧
      (loadRoles db user now).1.user.isSuperuser = user.isSuperuser := by
  unfold loadRoles
  dsimp only
  split
  · exact ⟨rfl, rfl⟩
  · split <;> exact ⟨rfl, rfl⟩

theorem mem_getUserRoleNames {loaded : LoadedUser} {name : String} :
    name ∈ getUserRoleNames loaded ↔
      (∃ role, (role ∈ loaded.activeRoles ∨ role ∈ loaded.role) ∧ role.canonicalName = name ∧
        name ≠ "") ∨
      name = loaded.user.userType.canonicalName ∨
      loaded.user.isSuperuser = true ∧ name = "super_admin" := by
  simp only [getUserRoleNames, List.mem_append, List.mem_filter, List.mem_map, Option.mem_toList,
    List.mem_singleton, decide_eq_true_eq, ne_eq, List.mem_ite_nil_right]
  constructor
  · rintro (((⟨⟨role, hrole, rfl⟩, hne⟩ | ⟨⟨role, hrole, rfl⟩, hne⟩) | h) | h)
    · exact .inl ⟨role, .inl hrole, rfl, by simpa using hne⟩
    · exact .inl ⟨role, .inr hrole, rfl, by simpa using hne⟩
    · exact .inr (.inl h)
    · exact .inr (.inr h)
  · rintro (⟨role, hrole | hrole, rfl, hne⟩ | h | h)
    · exact .inl (.inl (.inl ⟨⟨role, hrole, rfl⟩, by simpa using hne⟩))
    · exact .inl (.inl (.inr ⟨⟨role, hrole, rfl⟩, by simpa using hne⟩))
    · exact .inl (.inr h)
    · exact .inr h

/-! ## The windows -/

theorem entitled_iff (db : Db) (user : User) (now : ℤ) :
    (∀ name ∈ getUserRoleNames (loadRoles db user now).1, Entitled db user now name) ↔
      user.isSuperuser = true ∨ (∃ role, Assigned db user now role) ∨ SafePrimary db user := by
  obtain ⟨htype, hsuper⟩ := loadRoles_user db user now
  constructor
  · intro h
    by_cases hs : user.isSuperuser = true
    · exact .inl hs
    by_cases ha : ∃ role, Assigned db user now role
    · exact .inr (.inl ha)
    refine .inr (.inr fun role hrole hid => ?_)
    by_cases hempty : role.canonicalName = ""
    · exact .inl hempty
    have hget : db.roles.get? role.id = some role := Table.get?_of_mem hrole
    have hmem : role.canonicalName ∈ getUserRoleNames (loadRoles db user now).1 := by
      refine mem_getUserRoleNames.mpr (.inl ⟨role, .inr ?_, rfl, hempty⟩)
      rw [loadRoles_of_not_assigned ha, hid]
      exact hget
    rcases h _ hmem with hs' | hname | ⟨r, hr, -⟩ | ⟨r, hr, -⟩
    · exact absurd hs' hs
    · exact .inr (.inl hname)
    · exact absurd ⟨r, hr⟩ ha
    · obtain ⟨hnone, hr, hactive, hrid⟩ := hr
      have hkey : r.id = role.id := Option.some.inj (hrid.symm.trans hid)
      have heq : r = role := Table.eq_of_key hr hrole hkey
      exact .inr (.inr (heq ▸ ⟨hnone, hr, hactive, hrid⟩))
  · intro h name hname
    rcases mem_getUserRoleNames.mp hname with ⟨role, hrole, rfl, hne⟩ | hname | ⟨hs, -⟩
    · rcases h with hs | ha | hsafe
      · exact .inl hs
      · exact .inr (.inr (.inl ⟨role, assigned_of_loaded ha hrole, rfl⟩))
      · by_cases ha : ∃ role, Assigned db user now role
        · exact .inr (.inr (.inl ⟨role, assigned_of_loaded ha hrole, rfl⟩))
        rw [loadRoles_of_not_assigned ha] at hrole
        have hprimary : user.roleId.bind db.roles.get? = some role := by
          simpa using hrole
        obtain ⟨i, hi, hget⟩ := Option.bind_eq_some_iff.mp hprimary
        obtain ⟨hmem, hkey⟩ := Table.get?_eq_some.mp hget
        have hid : user.roleId = some role.id := hi.trans (congrArg some hkey.symm)
        rcases hsafe role hmem hid with hempty | htypeName | hlegacy
        · exact absurd hempty hne
        · exact .inr (.inl htypeName)
        · exact .inr (.inr (.inr ⟨role, hlegacy, rfl⟩))
    · exact .inr (.inl (htype ▸ hname))
    · exact .inl (hsuper ▸ hs)

/-- Whoever the token is of, the role check grants what the user is entitled to exactly if the user
is refused, is a superuser, has an active role assigned now, or has a primary role that is safe. -/
theorem role_windows_iff (naive : Bool) (db : Db) (validated : ValidatedToken) (now : ℤ) :
    Enforced naive db validated now ↔
      ∀ user ∈ db.users.get? validated.userId,
        checkUser naive user.toAccount validated = .ok () →
        user.isSuperuser = true ∨ (∃ role, Assigned db user now role) ∨ SafePrimary db user := by
  unfold Enforced getUserFromToken
  refine forall₂_congr fun user huser => ?_
  rw [Option.mem_def] at huser
  rw [huser, ← entitled_iff db user now]
  constructor
  · intro h hadmitted
    refine h _ (loadRoles db user now).2 ?_
    simp only [hadmitted]
    rfl
  · intro h loaded db' hok
    simp only at hok
    cases hadmitted : checkUser naive user.toAccount validated with
    | error e => simp only [hadmitted] at hok; exact absurd hok nofun
    | ok u =>
      simp only [hadmitted] at hok
      have hloaded : loadRoles db user now = (loaded, db') := Except.ok.inj hok
      rw [hloaded] at h
      exact h hadmitted

end

/-! ## An assignment that has run out -/

def formerAdmin : User := ⟨⟨4, true, false, none⟩, .customer, false, some 2⟩

/-- The assignment as an administrator ended at 50. -/
def formerDb : Db :=
  { users := ⟨[formerAdmin], by decide⟩
    roles := ⟨[⟨2, "admin", 80, true⟩], by decide⟩
    userRoles := ⟨[⟨4, 2, 10, some 50⟩], by decide⟩ }

theorem expired_admin_granted : ¬ Enforced true formerDb ⟨4, none, none⟩ 60 := by
  intro h
  have hname := h formerAdmin rfl _ _ rfl "operations_admin" (by decide +kernel)
  rcases hname with hsuper | htype | ⟨role, ⟨-, -, ur, hur, -, -, -, hend⟩, -⟩ |
    ⟨role, ⟨hnone, -⟩, -⟩
  · exact absurd hsuper (by decide)
  · exact absurd htype (by decide +kernel)
  · have heq : ur = ⟨4, 2, 10, some 50⟩ := List.mem_singleton.mp hur
    have hle : (60 : ℤ) ≤ 50 := hend 50 (by rw [heq]; rfl)
    omega
  · exact hnone ⟨4, 2, 10, some 50⟩ (List.mem_singleton.mpr rfl) rfl

end WezuBackend.Auth.Roles
