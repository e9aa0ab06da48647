import WezuBackend.Core.Unicode
import WezuBackend.Lib.Runs

/-!
# Status transitions of a user

`UserStateService.transition` looks the requested status up by its name in lower case, among the
values of `UserStatus`, which are in upper case.  So it raises for every name (`transition_raises`),
and a run of calls respects the table of transitions exactly if none of them asks for a transition
that the table has (`transitions_iff`).
-/

namespace WezuBackend.Users.StateService

open Lib.Tables Lib.Runs Lib.Atomicity Lib.Atomicity.Tx Core.Base Core.Unicode

/-! ## Statuses -/

inductive UserStatus where
  | active
  | suspended
  | pendingVerification
  | pending
  | inactive
  | verified
  | deleted
  deriving DecidableEq, Repr

namespace UserStatus

def value : UserStatus → String
  | active => "ACTIVE"
  | suspended => "SUSPENDED"
  | pendingVerification => "PENDING_VERIFICATION"
  | pending => "PENDING"
  | inactive => "INACTIVE"
  | verified => "VERIFIED"
  | deleted => "DELETED"

def all : List UserStatus :=
  [active, suspended, pendingVerification, pending, inactive, verified, deleted]

/-- `UserStatus(value)`. -/
def ofValue (text : String) : Option UserStatus := all.find? fun status => status.value = text

/-- `str` of a status. -/
def text (status : UserStatus) : String := "UserStatus." ++ status.value

/-- `repr` of a status. -/
def repr (status : UserStatus) : String := s!"<{status.text}: '{status.value}'>"

end UserStatus

def validTransitions : UserStatus → List UserStatus
  | .pending => [.verified]
  | .verified => [.active]
  | .active => [.suspended, .deleted]
  | .suspended => [.active, .deleted]
  | _ => []

/-! ## Rows -/

structure User where
  id : ℕ
  phoneNumber : Option String := none
  email : Option String := none
  fullName : Option String := none
  status : UserStatus := .active
  lastGlobalLogoutAt : Option ℕ := none
  deriving DecidableEq, Repr

instance : Row User ℕ := ⟨User.id⟩

structure UserSession where
  id : ℕ
  userId : ℕ
  isActive : Bool := true
  deriving DecidableEq, Repr

instance : Row UserSession ℕ := ⟨UserSession.id⟩

structure AuditLog where
  id : ℕ
  userId : Option ℕ
  action : String
  resourceType : String
  resourceId : String
  targetId : ℕ
  oldValue : String
  newValue : String
  deriving DecidableEq, Repr

instance : Row AuditLog ℕ := ⟨AuditLog.id⟩

structure Db where
  users : Table User := .empty
  userSessions : Table UserSession := .empty
  auditLogs : Table AuditLog := .empty

/-- The setter of `is_active`. -/
def User.setIsActive (user : User) (value : Bool) : User :=
  if value = true then
    if user.status ∈ [.inactive, .suspended] then { user with status := .active } else user
  else
    if user.status ∈ [.active, .verified] then { user with status := .suspended } else user

/-! ## The program -/

section

variable [Characters]

/-- `revoke_all_user_sessions`, which commits. -/
def revokeAllUserSessions (now userId : ℕ) : Tx Exc Db Unit := do
  update fun db =>
    { db with
      users := db.users.update (fun u => u.id = userId)
        (fun u => { u with lastGlobalLogoutAt := some now }) fun _ => rfl
      userSessions := db.userSessions.update (fun r => r.userId = userId ∧ r.isActive = true)
        (fun r => { r with isActive := false }) fun _ => rfl }
  commit

def transitioned (user : User) (newStatusEnum : UserStatus) (newStatus : String) : User :=
  let user := { user with status := newStatusEnum }
  let user :=
    if newStatusEnum ∈ [.active, .verified] then user.setIsActive true
    else if newStatusEnum ∈ [.suspended, .deleted] then user.setIsActive false
    else user
  if newStatus = "deleted" then
    { user with
      email := some s!"deleted_{user.id}@removed.local"
      phoneNumber := none
      fullName := some "Deleted User" }
  else user

/-- `AuditLogger.log_event`, which commits. -/
def logEvent (user : User) (newStatus : String) (adminUserId : Option ℕ) : Tx Exc Db Unit := do
  update fun db =>
    { db with auditLogs := db.auditLogs.add fun id =>
        { id, userId := adminUserId, action := "USER_STATE_TRANSITION", resourceType := "USER"
          resourceId := toString user.id, targetId := user.id, oldValue := user.status.value
          newValue := newStatus } }
  commit

def transition (now userId : ℕ) (newStatus : String) (adminUserId : Option ℕ) :
    Tx Exc Db User := do
  let db ← look
  let user ← demand (db.users.get? userId) (.valueError "User not found")
  let newStatusEnum ← demand (UserStatus.ofValue (lowered newStatus))
    (.valueError s!"Invalid status: {newStatus}")
  let allowed := validTransitions user.status
  ensure (newStatusEnum ∈ allowed) <| .valueError <|
    s!"Invalid transition: {user.status.text} → {newStatusEnum.text}. " ++
      "Allowed: [" ++ ", ".intercalate (allowed.map UserStatus.repr) ++ "]"
  update fun db =>
    { db with users := db.users.set (transitioned user newStatusEnum newStatus) }
  if newStatus ∈ ["suspended", "deleted"] then revokeAllUserSessions now userId
  commit
  logEvent user newStatus adminUserId
  let db ← look
  demand (db.users.get? userId) (.valueError "User not found")

def getAllowedTransitions (currentStatus : String) : List UserStatus :=
  ((UserStatus.ofValue (lowered currentStatus)).map validTransitions).getD []

/-! ## What it is for -/

structure Call where
  now : ℕ
  userId : ℕ
  newStatus : String
  adminUserId : Option ℕ := none

def result (db : Db) (call : Call) : Except Exc User × Db :=
  Tx.call (transition call.now call.userId call.newStatus call.adminUserId) db

def step (db : Db) (call : Call) : Db := (result db call).2

/-- A name of the status, in any letter case. -/
def Names (name : String) (status : UserStatus) : Prop := lowered name = lowered status.value

/-- The table has the transition that the call asks for, to the status. -/
def AllowedTo (db : Db) (call : Call) (status : UserStatus) : Prop :=
  Names call.newStatus status ∧
    ∃ user ∈ db.users, user.id = call.userId ∧ status ∈ validTransitions user.status

/-- The table has the transition that the call asks for. -/
def Allowed (db : Db) (call : Call) : Prop := ∃ status, AllowedTo db call status

def Succeeds (db : Db) (call : Call) : Prop := ∃ user, (result db call).1 = .ok user

def Became (db db' : Db) (user : User) (status : UserStatus) : Prop :=
  user ∈ db'.users ∧ user.status = status ∧
    ∀ old ∈ db.users, old.id = user.id → old.status ≠ status

structure Meets (db : Db) (call : Call) : Prop where
  succeeds : Succeeds db call ↔ Allowed db call
  stored : ∀ user status, (result db call).1 = .ok user → AllowedTo db call status →
    ∃ user ∈ (step db call).users, user.id = call.userId ∧ user.status = status
  final : ∀ old ∈ db.users, old.status = .deleted →
    ∃ user ∈ (step db call).users, user.id = old.id ∧ user.status = .deleted
  loggedOut : ∀ user, Became db (step db call) user .suspended ∨
    Became db (step db call) user .deleted →
      ∀ r ∈ (step db call).userSessions, r.userId = user.id → r.isActive = false
  anonymous : ∀ user, Became db (step db call) user .deleted →
    ∀ old ∈ db.users, old.id = user.id → user.phoneNumber = none ∧
      (old.email ≠ none → user.email ≠ old.email) ∧ (old.fullName ≠ none →
        user.fullName ≠ old.fullName)
  rejected : ¬ Succeeds db call → step db call = db

/-! ## Every name is refused -/

variable [LowerCase] {db : Db} {call : Call}

theorem ofValue_lowered (name : String) : UserStatus.ofValue (lowered name) = none := by
  refine List.find?_eq_none.mpr fun status _ => ?_
  rw [decide_eq_true_eq]
  intro hvalue
  -- every value has a capital letter
  have hcapital : (status.value.toList.any fun c => 65 ≤ c.toNat ∧ c.toNat ≤ 90) = true := by
    cases status <;> rfl
  obtain ⟨c, hc, hrange⟩ := List.any_eq_true.mp hcapital
  rw [hvalue] at hc
  exact LowerCase.lowered_not_capital name c hc (of_decide_eq_true hrange)

/-- **Every call raises**, and changes nothing. -/
theorem transition_raises (db : Db) (call : Call) :
    step db call = db ∧ ∃ message, (result db call).1 = .error (.valueError message) := by
  unfold step result Tx.call transition
  rw [look_bind]
  rcases (Session.fresh db).working.users.get? call.userId with _ | user
  · rw [demand_bind_none rfl]
    exact ⟨rfl, _, rfl⟩
  · rw [demand_bind rfl, demand_bind_none (ofValue_lowered call.newStatus)]
    exact ⟨rfl, _, rfl⟩

theorem not_succeeds (db : Db) (call : Call) : ¬ Succeeds db call := by
  rintro ⟨user, hok⟩
  obtain ⟨-, message, herror⟩ := transition_raises db call
  rw [herror] at hok
  cases hok

/-- **One call** does what it should exactly if it asks for no transition of the table. -/
theorem meets_iff : Meets db call ↔ ¬ Allowed db call := by
  have hsame : step db call = db := (transition_raises db call).1
  have hfail := not_succeeds db call
  -- nobody comes to a status
  have hnone : ∀ user status, ¬ Became db (step db call) user status := by
    rintro user status ⟨hmem, hstatus, hold⟩
    rw [hsame] at hmem
    exact hold user hmem rfl hstatus
  constructor
  · intro h hallowed
    exact hfail (h.succeeds.mpr hallowed)
  · intro hno
    refine ⟨iff_of_false hfail hno, fun user _ hok => absurd ⟨user, hok⟩ hfail, ?_, ?_, ?_,
      fun _ => hsame⟩
    · intro old hold hdeleted
      rw [hsame]
      exact ⟨old, hold, rfl, hdeleted⟩
    · rintro user (hbecame | hbecame)
      · exact absurd hbecame (hnone user _)
      · exact absurd hbecame (hnone user _)
    · exact fun user hbecame => absurd hbecame (hnone user _)

/-- **The transitions of users**: over every run of calls, all do what they should exactly if none
asks for a transition that the table has. -/
theorem transitions_iff (db : Db) (calls : List Call) :
    Along step Meets db calls ↔ ∀ call ∈ calls, ¬ Allowed db call := by
  induction calls with
  | nil => exact iff_of_true trivial fun _ h => absurd h List.not_mem_nil
  | cons call calls ih =>
    rw [List.forall_mem_cons, ← ih]
    have hsame : step db call = db := (transition_raises db call).1
    show Meets db call ∧ Along step Meets (step db call) calls ↔ _
    rw [meets_iff, hsame]

theorem getAllowedTransitions_eq (currentStatus : String) :
    getAllowedTransitions currentStatus = [] := by
  unfold getAllowedTransitions
  rw [ofValue_lowered]
  rfl

end

/-! ## A pending user is verified -/

/-- A user that waits for its verification. -/
def registered : Db where
  users := ⟨[{ id := 3, email := some "a@wezu.example", status := .pending }], by decide⟩

def verification (newStatus : String) : Call := ⟨1, 3, newStatus, some 1⟩

theorem allowed_verification : Allowed registered (verification "verified") := by
  refine ⟨.verified, by unfold Names; decide +kernel, ?_⟩
  exact ⟨_, List.mem_singleton.mpr rfl, rfl, by decide⟩

/-- A transition that the table does not have is refused. -/
theorem transitions_sample : Along step Meets registered [verification "deleted"] := by
  refine (transitions_iff registered _).mpr fun call hcall => ?_
  obtain rfl := List.mem_singleton.mp hcall
  rintro ⟨status, hnames, user, hmem, -, hstatus⟩
  obtain rfl := List.mem_singleton.mp hmem
  obtain rfl := List.mem_singleton.mp hstatus
  exact absurd hnames (by unfold Names; decide +kernel)

/-- The user can not be verified, although the table has the transition. -/
theorem verification_refused : ¬ Along step Meets registered [verification "verified"] :=
  fun h => (meets_iff.mp h.1) allowed_verification

end WezuBackend.Users.StateService
