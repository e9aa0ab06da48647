import WezuBackend.Lib.Atomicity
import WezuBackend.Lib.Runs
import WezuBackend.Lib.Tables

/-!
# Dealer KYC applications

`app/services/dealer_kyc_service.py`: an application goes from its documents through automatic
checks and a manual review to the activation of the dealer, or is rejected and submitted again.
Every change of the state is committed, and then its row in the log; the automatic checks pass
through a state of their own in this way.

If the first commit of a call fails, nothing has happened.  If a later one fails, the log lacks a
change, or the application stays in `AUTO_CHECKS`, which no operation takes it out of.  The
applications have a complete history and go on exactly as long as no later commit fails
(`history_iff`).
-/

namespace WezuBackend.Dealers.Kyc

open Lib.Atomicity Lib.Atomicity.Tx Lib.Runs Lib.Tables

/-! ## Tables -/

inductive KYCState where
  | registration
  | docSubmitted
  | autoChecks
  | manualReview
  | approved
  | active
  | rejected
  deriving DecidableEq, Repr

def KYCState.value : KYCState → String
  | .registration => "REGISTRATION"
  | .docSubmitted => "DOC_SUBMITTED"
  | .autoChecks => "AUTO_CHECKS"
  | .manualReview => "MANUAL_REVIEW"
  | .approved => "APPROVED"
  | .active => "ACTIVE"
  | .rejected => "REJECTED"

/-- `f"{state}"`. -/
def KYCState.text (s : KYCState) : String := "KYCStateConfig." ++ s.value

theorem value_injective {s t : KYCState} (h : s.value = t.value) : s = t := by
  revert h
  cases s <;> cases t <;> decide

structure DealerKYCApplication where
  id : ℕ
  userId : ℕ
  companyName : String
  panNumber : String
  gstNumber : String
  bankDetailsJson : String
  panDocUrl : Option String := none
  gstDocUrl : Option String := none
  regCertUrl : Option String := none
  applicationState : KYCState := .registration
  adminComments : Option String := none
  rejectionReason : Option String := none
  updatedAt : ℕ
  deriving DecidableEq, Repr

instance : Row DealerKYCApplication ℕ := ⟨DealerKYCApplication.id⟩

structure KYCStateTransition where
  id : ℕ
  applicationId : ℕ
  fromState : String
  toState : String
  reason : Option String
  changedByUserId : ℕ
  deriving DecidableEq, Repr

instance : Row KYCStateTransition ℕ := ⟨KYCStateTransition.id⟩

structure Db where
  applications : Table DealerKYCApplication := .empty
  transitions : Table KYCStateTransition := .empty

/-! ## The service -/

inductive KycError where
  | valueError (message : String)
  /-- a commit fails -/
  | operationalError
  deriving DecidableEq, Repr

abbrev KycTx (α : Type) : Type := Tx KycError Db α

def commitUnless (fails : Bool) : KycTx Unit := if fails then raise .operationalError else commit

def transitionRow (applicationId : ℕ) (fromState toState : KYCState) (userId : ℕ) (reason : String)
    (id : ℕ) : KYCStateTransition :=
  { id, applicationId, fromState := fromState.value, toState := toState.value, reason := some reason
    changedByUserId := userId }

/-- The row that `_log_transition` adds. -/
def Db.log (db : Db) (applicationId : ℕ) (fromState toState : KYCState) (userId : ℕ)
    (reason : String) : Db :=
  { db with
    transitions :=
      db.transitions.add (transitionRow applicationId fromState toState userId reason) }

def logTransition (fails : Bool) (applicationId : ℕ) (fromState toState : KYCState) (userId : ℕ)
    (reason : String) : KycTx Unit := do
  update fun db => db.log applicationId fromState toState userId reason
  commitUnless fails

def Db.write (db : Db) (application : DealerKYCApplication) : Db :=
  { db with applications := db.applications.set application }

def Db.ofUser (db : Db) (userId : ℕ) : Option DealerKYCApplication :=
  db.applications.find? fun a => a.userId = userId

structure Documents where
  companyName : String
  panNumber : String
  gstNumber : String
  bankDetailsJson : String

/-- What `_upload_to_s3` returns for the three files, or its `ValueError`. -/
structure Uploads where
  pan : Except KycError String
  gst : Except KycError String
  reg : Except KycError String

def resubmitted (now : ℕ) (documents : Documents) (panUrl gstUrl regUrl : String)
    (existing : DealerKYCApplication) : DealerKYCApplication :=
  { existing with
    companyName := documents.companyName
    panNumber := documents.panNumber
    gstNumber := documents.gstNumber
    bankDetailsJson := documents.bankDetailsJson
    panDocUrl := some panUrl
    gstDocUrl := some gstUrl
    regCertUrl := some regUrl
    applicationState := .docSubmitted
    updatedAt := now }

def newApplication (now userId : ℕ) (documents : Documents) (panUrl gstUrl regUrl : String)
    (id : ℕ) : DealerKYCApplication :=
  { id, userId
    companyName := documents.companyName
    panNumber := documents.panNumber
    gstNumber := documents.gstNumber
    bankDetailsJson := documents.bankDetailsJson
    panDocUrl := some panUrl
    gstDocUrl := some gstUrl
    regCertUrl := some regUrl
    applicationState := .docSubmitted
    updatedAt := now }

/-- `fails i` says that commit `i` of the call fails. -/
def submitDocuments (fails : ℕ → Bool) (now userId : ℕ) (documents : Documents)
    (uploads : Uploads) : KycTx Unit := do
  let db ← look
  ensure (∀ a ∈ db.ofUser userId,
      a.applicationState = .rejected ∨ a.applicationState = .registration)
    (.valueError "KYC application already in progress.")
  let panUrl ← lift uploads.pan
  let gstUrl ← lift uploads.gst
  let regUrl ← lift uploads.reg
  match db.ofUser userId with
  | some existing =>
    update fun db => db.write (resubmitted now documents panUrl gstUrl regUrl existing)
    commitUnless (fails 0)
    logTransition (fails 1) existing.id existing.applicationState .docSubmitted userId
      "Documents re-submitted"
  | none =>
    update fun db =>
      { db with
        applications :=
          db.applications.add (newApplication now userId documents panUrl gstUrl regUrl) }
    commitUnless (fails 0)
    logTransition (fails 1) db.applications.freshKey .registration .docSubmitted userId
      "Initial form sumbitted"

def runAutoChecks (fails : ℕ → Bool) (userId : ℕ) : KycTx Unit := do
  let db ← look
  let app ← demand (db.ofUser userId) (.valueError "No KYC application found.")
  ensure (app.applicationState = .docSubmitted)
    (.valueError ("Cannot run auto-checks from state " ++ app.applicationState.text))
  update fun db => db.write { app with applicationState := .autoChecks }
  commitUnless (fails 0)
  logTransition (fails 1) app.id .docSubmitted .autoChecks userId "Started auto checks"
  if app.panNumber = "FAILED_PAN" then do
    update fun db => db.write { app with
      applicationState := .rejected
      rejectionReason := some "Automated checks failed: Invalid PAN." }
    commitUnless (fails 2)
    logTransition (fails 3) app.id .autoChecks .rejected userId "Automated checks failed"
  else do
    update fun db => db.write { app with applicationState := .manualReview }
    commitUnless (fails 2)
    logTransition (fails 3) app.id .autoChecks .manualReview userId "Automated checks passed"

def reviewed (approve : Bool) (comments : String) (app : DealerKYCApplication) :
    DealerKYCApplication :=
  if approve then { app with adminComments := some comments, applicationState := .approved }
  else
    { app with
      adminComments := some comments
      applicationState := .rejected
      rejectionReason := some comments }

def manualReview (fails : ℕ → Bool) (appId adminUserId : ℕ) (approve : Bool) (comments : String) :
    KycTx Unit := do
  let db ← look
  let app ← demand (db.applications.get? appId) (.valueError "No such application.")
  ensure (app.applicationState = .manualReview)
    (.valueError ("Application is in " ++ app.applicationState.text ++ ", not MANUAL_REVIEW."))
  update fun db => db.write (reviewed approve comments app)
  commitUnless (fails 0)
  logTransition (fails 1) app.id app.applicationState
    (reviewed approve comments app).applicationState adminUserId
    ("Admin Review: " ++ if approve then "Approved" else "Rejected")

def activateDealer (fails : ℕ → Bool) (appId adminUserId : ℕ) : KycTx Unit := do
  let db ← look
  let app ← demand (db.applications.get? appId) (.valueError "No such application.")
  ensure (app.applicationState = .approved)
    (.valueError ("Application is in " ++ app.applicationState.text ++ ", not APPROVED."))
  update fun db => db.write { app with applicationState := .active }
  commitUnless (fails 0)
  logTransition (fails 1) app.id .approved .active adminUserId "Dealer Activated"

/-! ## Runs -/

inductive Call where
  | submitDocuments (now userId : ℕ) (documents : Documents) (uploads : Uploads)
  | runAutoChecks (userId : ℕ)
  | manualReview (appId adminUserId : ℕ) (approve : Bool) (comments : String)
  | activateDealer (appId adminUserId : ℕ)

/-- A call, and which of its commits fail. -/
structure Attempt where
  call : Call
  fails : ℕ → Bool := fun _ => false

def exec (fails : ℕ → Bool) : Call → KycTx Unit
  | .submitDocuments now userId documents uploads =>
    submitDocuments fails now userId documents uploads
  | .runAutoChecks userId => runAutoChecks fails userId
  | .manualReview appId adminUserId approve comments =>
    manualReview fails appId adminUserId approve comments
  | .activateDealer appId adminUserId => activateDealer fails appId adminUserId

def step (db : Db) (a : Attempt) : Db := ((exec a.fails a.call).call db).2

/-! ## A complete history -/

/-- The log entries lead from one state to the other, each from where the one before led to. -/
def Chained : String → List KYCStateTransition → String → Prop
  | s, [], t => s = t
  | s, r :: rs, t => r.fromState = s ∧ r.toState ≠ s ∧ Chained r.toState rs t

def Db.history (db : Db) (applicationId : ℕ) : List KYCStateTransition :=
  db.transitions.filter fun r => r.applicationId = applicationId

/-- Some operation, if nothing fails, moves the application on. -/
def Movable (db : Db) (a : DealerKYCApplication) : Prop :=
  ∃ call, ∃ a' ∈ (step db { call }).applications,
    a'.id = a.id ∧ a'.applicationState ≠ a.applicationState

structure Sound (db : Db) : Prop where
  chained : ∀ a ∈ db.applications,
    Chained KYCState.registration.value (db.history a.id) a.applicationState.value
  single : ∀ a ∈ db.applications, ∀ a' ∈ db.applications, a.userId = a'.userId → a = a'
  movable : ∀ a ∈ db.applications, a.applicationState ≠ .active → Movable db a

def Call.IsSubmissionOf (userId : ℕ) : Call → Prop
  | .submitDocuments _ userId' _ _ => userId' = userId
  | _ => False

/-- Active is never left, and rejected only by a submission. -/
def Lifecycle (db : Db) (attempt : Attempt) : Prop :=
  ∀ a ∈ db.applications, ∃ a' ∈ (step db attempt).applications, a'.id = a.id ∧
    a'.userId = a.userId ∧
    (a.applicationState = .active → a'.applicationState = .active) ∧
    (a.applicationState = .rejected → a'.applicationState ≠ .rejected →
      attempt.call.IsSubmissionOf a.userId)

/-- What the operation asks for before it writes. -/
def Call.Accepted (db : Db) : Call → Prop
  | .submitDocuments _ userId _ uploads =>
    (∀ a ∈ db.ofUser userId, a.applicationState = .rejected ∨ a.applicationState = .registration) ∧
      uploads.pan.isOk ∧ uploads.gst.isOk ∧ uploads.reg.isOk
  | .runAutoChecks userId => ∃ a ∈ db.ofUser userId, a.applicationState = .docSubmitted
  | .manualReview appId _ _ _ =>
    ∃ a ∈ db.applications.get? appId, a.applicationState = .manualReview
  | .activateDealer appId _ => ∃ a ∈ db.applications.get? appId, a.applicationState = .approved

/-- How often the operation commits. -/
def Call.commits : Call → ℕ
  | .runAutoChecks _ => 4
  | _ => 2

/-- The first commit fails, or none does. -/
def Harmless (db : Db) (attempt : Attempt) : Prop :=
  attempt.call.Accepted db →
    attempt.fails 0 = true ∨ ∀ i < attempt.call.commits, attempt.fails i = false

/-- A log entry is about an application. -/
def Linked (db : Db) : Prop :=
  ∀ r ∈ db.transitions, ∃ a ∈ db.applications, a.id = r.applicationId

/-! ### What a call commits -/

section

variable {db : Db} {fails : ℕ → Bool} {a : DealerKYCApplication}

/-- The state of the database, the states that the commits of a call lead to, and the first commit
that fails. -/
def reached (fails : ℕ → Bool) : Db → List Db → Db
  | db, [] => db
  | db, db' :: dbs => if fails 0 then db else reached (fun i => fails (i + 1)) db' dbs

theorem call_write (f : Db → Db) (b : Bool) (x : KycTx Unit) :
    ((do update f; commitUnless b; x : KycTx Unit).call db).2 =
      if b then db else (x.call (f db)).2 := by
  cases b <;> rfl

theorem call_log (b : Bool) (applicationId : ℕ) (s t : KYCState) (userId : ℕ) (reason : String)
    (x : KycTx Unit) :
    ((do logTransition b applicationId s t userId reason; x : KycTx Unit).call db).2 =
      if b then db else (x.call (db.log applicationId s t userId reason)).2 := by
  cases b <;> rfl

theorem call_log_last (b : Bool) (applicationId : ℕ) (s t : KYCState) (userId : ℕ)
    (reason : String) : ((logTransition b applicationId s t userId reason).call db).2 =
      if b then db else db.log applicationId s t userId reason := by
  cases b <;> rfl

/-- A state is written, and then logged. -/
def recorded (db : Db) (app : DealerKYCApplication) (fromState : KYCState) (userId : ℕ)
    (reason : String) : List Db :=
  [db.write app, (db.write app).log app.id fromState app.applicationState userId reason]

def checked (app : DealerKYCApplication) : DealerKYCApplication :=
  if app.panNumber = "FAILED_PAN" then
    { app with
      applicationState := .rejected
      rejectionReason := some "Automated checks failed: Invalid PAN." }
  else { app with applicationState := .manualReview }

theorem step_runAutoChecks {userId : ℕ} (happ : db.ofUser userId = some a)
    (hstate : a.applicationState = .docSubmitted) : ∃ db₂ reason,
      recorded db { a with applicationState := .autoChecks } .docSubmitted userId
        "Started auto checks" = [db.write { a with applicationState := .autoChecks }, db₂] ∧
      ∀ fails, step db ⟨.runAutoChecks userId, fails⟩ = reached fails db
        (recorded db { a with applicationState := .autoChecks } .docSubmitted userId
          "Started auto checks" ++ recorded db₂ (checked a) .autoChecks userId reason) := by
  refine ⟨_, if a.panNumber = "FAILED_PAN" then "Automated checks failed"
    else "Automated checks passed", rfl, fun fails => ?_⟩
  have hcall : (runAutoChecks fails userId) (.fresh db) = (do
      update fun db => db.write { a with applicationState := .autoChecks }
      commitUnless (fails 0)
      logTransition (fails 1) a.id .docSubmitted .autoChecks userId "Started auto checks"
      update fun db => db.write (checked a)
      commitUnless (fails 2)
      logTransition (fails 3) a.id .autoChecks (checked a).applicationState userId
        (if a.panNumber = "FAILED_PAN" then "Automated checks failed"
          else "Automated checks passed") : KycTx Unit) (.fresh db) := by
    rw [runAutoChecks, look_bind, Session.working_fresh, demand_bind happ, ensure_bind hstate]
    unfold checked
    split_ifs <;> rfl
  have hid : (checked a).id = a.id := by
    unfold checked
    split_ifs <;> rfl
  show ((runAutoChecks fails userId).call db).2 = _
  unfold call
  rw [hcall]
  refine (call_write _ _ _).trans ?_
  rw [call_log, call_write, call_log_last, ← hid]
  rfl

theorem call_recorded (app : DealerKYCApplication) (fromState : KYCState) (userId : ℕ)
    (reason : String) :
    ((do
      update fun db => db.write app
      commitUnless (fails 0)
      logTransition (fails 1) app.id fromState app.applicationState userId reason : KycTx Unit).call
        db).2 = reached fails db (recorded db app fromState userId reason) := by
  refine (call_write _ _ _).trans ?_
  rw [call_log_last]
  rfl

variable {appId : ℕ}

theorem step_manualReview (adminUserId : ℕ) (approve : Bool) (comments : String)
    (happ : db.applications.get? appId = some a) (hstate : a.applicationState = .manualReview) :
    step db ⟨.manualReview appId adminUserId approve comments, fails⟩ =
      reached fails db
        (recorded db (reviewed approve comments a) a.applicationState adminUserId
          ("Admin Review: " ++ if approve then "Approved" else "Rejected")) := by
  have hid : (reviewed approve comments a).id = a.id := by
    unfold reviewed
    split_ifs <;> rfl
  refine Eq.trans ?_ (call_recorded _ _ _ _)
  show ((manualReview fails appId adminUserId approve comments).call db).2 = _
  rw [hid]
  unfold call
  rw [manualReview, look_bind, Session.working_fresh, demand_bind happ, ensure_bind hstate]

theorem step_activateDealer (adminUserId : ℕ)
    (happ : db.applications.get? appId = some a) (hstate : a.applicationState = .approved) :
    step db ⟨.activateDealer appId adminUserId, fails⟩ = reached fails db
      (recorded db { a with applicationState := .active } .approved adminUserId
        "Dealer Activated") := by
  refine Eq.trans ?_ (call_recorded _ _ _ _)
  show ((activateDealer fails appId adminUserId).call db).2 = _
  unfold call
  rw [activateDealer, look_bind, Session.working_fresh, demand_bind happ, ensure_bind hstate]

theorem uploaded {x : Except KycError String} (h : x.isOk = true) : ∃ url, x = .ok url := by
  cases x with
  | error e => cases h
  | ok url => exact ⟨url, rfl⟩

variable {uploads : Uploads}

theorem step_resubmission {now userId : ℕ} {documents : Documents}
    (h : (Call.submitDocuments now userId documents uploads).Accepted db)
    (happ : db.ofUser userId = some a) : ∃ panUrl gstUrl regUrl, ∀ fails,
      step db ⟨.submitDocuments now userId documents uploads, fails⟩ = reached fails db
        (recorded db (resubmitted now documents panUrl gstUrl regUrl a) a.applicationState userId
          "Documents re-submitted") := by
  obtain ⟨hstate, hpan, hgst, hreg⟩ := h
  obtain ⟨panUrl, hpan⟩ := uploaded hpan
  obtain ⟨gstUrl, hgst⟩ := uploaded hgst
  obtain ⟨regUrl, hreg⟩ := uploaded hreg
  refine ⟨panUrl, gstUrl, regUrl, fun fails => Eq.trans ?_ (call_recorded _ _ _ _)⟩
  show ((submitDocuments fails now userId documents uploads).call db).2 = _
  unfold call
  rw [submitDocuments, look_bind, Session.working_fresh, ensure_bind hstate, lift_bind hpan,
    lift_bind hgst, lift_bind hreg]
  simp only [happ]
  rfl

theorem step_submission {now userId : ℕ} {documents : Documents}
    (h : (Call.submitDocuments now userId documents uploads).Accepted db)
    (happ : db.ofUser userId = none) : ∃ panUrl gstUrl regUrl db',
      db' = { db with
        applications :=
          db.applications.add (newApplication now userId documents panUrl gstUrl regUrl) } ∧
      ∀ fails, step db ⟨.submitDocuments now userId documents uploads, fails⟩ = reached fails db
        [db', db'.log db.applications.freshKey .registration .docSubmitted userId
          "Initial form sumbitted"] := by
  obtain ⟨hstate, hpan, hgst, hreg⟩ := h
  obtain ⟨panUrl, hpan⟩ := uploaded hpan
  obtain ⟨gstUrl, hgst⟩ := uploaded hgst
  obtain ⟨regUrl, hreg⟩ := uploaded hreg
  refine ⟨panUrl, gstUrl, regUrl, _, rfl, fun fails => ?_⟩
  show ((submitDocuments fails now userId documents uploads).call db).2 = _
  unfold call
  rw [submitDocuments, look_bind, Session.working_fresh, ensure_bind hstate, lift_bind hpan,
    lift_bind hgst, lift_bind hreg]
  simp only [happ]
  refine (call_write _ _ _).trans ?_
  rw [call_log_last]
  rfl

variable {call : Call}

theorem step_refused (h : ¬ call.Accepted db) : step db ⟨call, fails⟩ = db := by
  cases call with
  | submitDocuments now userId documents uploads =>
    show ((submitDocuments fails now userId documents uploads).call db).2 = _
    unfold Tx.call
    rw [submitDocuments, look_bind, Session.working_fresh]
    by_cases hstate : ∀ a ∈ db.ofUser userId,
        a.applicationState = .rejected ∨ a.applicationState = .registration
    · rw [ensure_bind hstate]
      rcases hpan : uploads.pan with e | panUrl
      · rw [lift_bind_error rfl]
        rfl
      rw [lift_bind rfl]
      rcases hgst : uploads.gst with e | gstUrl
      · rw [lift_bind_error rfl]
        rfl
      rw [lift_bind rfl]
      rcases hreg : uploads.reg with e | regUrl
      · rw [lift_bind_error rfl]
        rfl
      exact absurd ⟨hstate, by rw [hpan]; rfl, by rw [hgst]; rfl, by rw [hreg]; rfl⟩ h
    · rw [ensure_bind_not hstate]
      rfl
  | runAutoChecks userId =>
    show ((runAutoChecks fails userId).call db).2 = _
    unfold Tx.call
    rw [runAutoChecks, look_bind, Session.working_fresh]
    rcases happ : db.ofUser userId with _ | a
    · rw [demand_bind_none rfl]
      rfl
    · rw [demand_bind rfl, ensure_bind_not fun hstate => h ⟨a, happ, hstate⟩]
      rfl
  | manualReview appId adminUserId approve comments =>
    show ((manualReview fails appId adminUserId approve comments).call db).2 = _
    unfold Tx.call
    rw [manualReview, look_bind, Session.working_fresh]
    rcases happ : db.applications.get? appId with _ | a
    · rw [demand_bind_none rfl]
      rfl
    · rw [demand_bind rfl, ensure_bind_not fun hstate => h ⟨a, happ, hstate⟩]
      rfl
  | activateDealer appId adminUserId =>
    show ((activateDealer fails appId adminUserId).call db).2 = _
    unfold Tx.call
    rw [activateDealer, look_bind, Session.working_fresh]
    rcases happ : db.applications.get? appId with _ | a
    · rw [demand_bind_none rfl]
      rfl
    · rw [demand_bind rfl, ensure_bind_not fun hstate => h ⟨a, happ, hstate⟩]
      rfl

/-! ### The ways a call goes -/

/-- The call takes the application `a₀` on, to `a`. -/
structure Changes (db : Db) (call : Call) (a₀ a : DealerKYCApplication) : Prop where
  mem : a₀ ∈ db.applications
  id : a.id = a₀.id
  userId : a.userId = a₀.userId
  state : a.applicationState ≠ a₀.applicationState
  notActive : a₀.applicationState ≠ .active
  notChecks : a₀.applicationState ≠ .autoChecks
  rejected : a₀.applicationState = .rejected → call.IsSubmissionOf a₀.userId

/-- What a call commits, one after the other. -/
inductive Path (db : Db) (call : Call) : List Db → Prop
  | change (a₀ a : DealerKYCApplication) (userId : ℕ) (reason : String) (h : Changes db call a₀ a)
      (hsettled : a.applicationState ≠ .autoChecks) :
      Path db call (recorded db a a₀.applicationState userId reason)
  | new (userId now : ℕ) (documents : Documents) (panUrl gstUrl regUrl reason : String)
      (hnone : db.ofUser userId = none) (db' : Db)
      (hdb' : db' = { db with
        applications :=
          db.applications.add (newApplication now userId documents panUrl gstUrl regUrl) }) :
      Path db call [db', db'.log db.applications.freshKey .registration .docSubmitted userId reason]
  | checks (a₀ a a' : DealerKYCApplication) (userId : ℕ) (reason reason' : String) (db' : Db)
      (h : Changes db call a₀ a) (hchecks : a.applicationState = .autoChecks)
      (hdb' : recorded db a a₀.applicationState userId reason = [db.write a, db'])
      (hid : a'.id = a.id) (huserId : a'.userId = a.userId)
      (hsettled : a'.applicationState ≠ .autoChecks) :
      Path db call (recorded db a a₀.applicationState userId reason ++
        recorded db' a' .autoChecks userId reason')

theorem ofUser_eq_some {userId : ℕ} (h : db.ofUser userId = some a) :
    a ∈ db.applications ∧ a.userId = userId :=
  ⟨Table.find?_mem h, by simpa using Table.find?_prop h⟩

theorem exists_path (h : call.Accepted db) : ∃ path, Path db call path ∧
    path.length = call.commits ∧ ∀ fails, step db ⟨call, fails⟩ = reached fails db path := by
  cases call with
  | submitDocuments now userId documents uploads =>
    rcases happ : db.ofUser userId with _ | a
    · obtain ⟨panUrl, gstUrl, regUrl, db', hdb', hstep⟩ := step_submission h happ
      exact ⟨_, .new userId now documents panUrl gstUrl regUrl _ happ db' hdb', rfl, hstep⟩
    · obtain ⟨panUrl, gstUrl, regUrl, hstep⟩ := step_resubmission h happ
      obtain ⟨hmem, huser⟩ := ofUser_eq_some happ
      have hstate := h.1 a happ
      refine ⟨_, .change a (resubmitted now documents panUrl gstUrl regUrl a) userId _
        ⟨hmem, rfl, rfl, ?_, ?_, ?_, fun _ => huser.symm⟩ (by simp [resubmitted]), rfl, hstep⟩
      all_goals rcases hstate with hstate | hstate <;> simp [resubmitted, hstate]
  | runAutoChecks userId =>
    obtain ⟨a, happ, hstate⟩ := h
    obtain ⟨hmem, huser⟩ := ofUser_eq_some happ
    obtain ⟨db₂, reason, hdb₂, hstep⟩ := step_runAutoChecks happ hstate
    refine ⟨_, .checks a { a with applicationState := .autoChecks } (checked a) userId
      "Started auto checks" reason db₂ ⟨hmem, rfl, rfl, by simp [hstate], by simp [hstate],
        by simp [hstate], by simp [hstate]⟩ rfl (by rw [hstate]; exact hdb₂) ?_ ?_ ?_, rfl,
      fun fails => ?_⟩
    · unfold checked
      split_ifs <;> rfl
    · unfold checked
      split_ifs <;> rfl
    · unfold checked
      split_ifs <;> simp
    · rw [hstate]
      exact hstep fails
  | manualReview appId adminUserId approve comments =>
    obtain ⟨a, happ, hstate⟩ := h
    refine ⟨_, .change a (reviewed approve comments a) _ _ ⟨(Table.get?_eq_some.mp happ).1, ?_, ?_,
      ?_, by simp [hstate], by simp [hstate], by simp [hstate]⟩ ?_, rfl, fun fails =>
      step_manualReview adminUserId approve comments happ hstate⟩
    all_goals unfold reviewed
    all_goals split_ifs <;> simp [hstate]
  | activateDealer appId adminUserId =>
    obtain ⟨a, happ, hstate⟩ := h
    refine ⟨_, .change a { a with applicationState := .active } adminUserId "Dealer Activated"
      ⟨(Table.get?_eq_some.mp happ).1, rfl, rfl, by simp [hstate], by simp [hstate],
        by simp [hstate], by simp [hstate]⟩ (by simp), rfl, fun fails => ?_⟩
    rw [hstate]
    exact step_activateDealer adminUserId happ hstate

/-! ### Histories -/

variable {rows : List KYCStateTransition}

theorem chained_append {s t : String} {r : KYCStateTransition} :
    Chained s (rows ++ [r]) t ↔
      Chained s rows r.fromState ∧ r.toState ≠ r.fromState ∧ r.toState = t := by
  induction rows generalizing s with
  | nil =>
    simp only [List.nil_append, Chained]
    constructor
    · rintro ⟨rfl, hne, ht⟩
      exact ⟨rfl, hne, ht⟩
    · rintro ⟨rfl, hne, ht⟩
      exact ⟨rfl, hne, ht⟩
  | cons x rows ih => simp only [List.cons_append, Chained, ih, and_assoc]

theorem chained_unique {s t t' : String} (h : Chained s rows t)
    (h' : Chained s rows t') : t = t' := by
  induction rows generalizing s with
  | nil => exact (show s = t from h).symm.trans h'
  | cons r rows ih => exact ih h.2.2 h'.2.2

@[simp] theorem history_write (app : DealerKYCApplication) (id : ℕ) :
    (db.write app).history id = db.history id := rfl

theorem history_log (applicationId : ℕ) (s t : KYCState) (userId : ℕ) (reason : String) (id : ℕ) :
    (db.log applicationId s t userId reason).history id = db.history id ++
      if applicationId = id then
        [transitionRow applicationId s t userId reason db.transitions.freshKey] else [] := by
  have hkey : ∀ k, Row.key (transitionRow applicationId s t userId reason k) = k := fun _ => rfl
  have hadd := Table.filter_add_mk (t := db.transitions) hkey fun r =>
    decide (r.applicationId = id)
  simp only [decide_eq_true_eq] at hadd
  exact hadd

/-- Applications with complete histories, one for each user. -/
structure Consistent (db : Db) : Prop where
  linked : Linked db
  chained : ∀ a ∈ db.applications,
    Chained KYCState.registration.value (db.history a.id) a.applicationState.value
  single : ∀ a ∈ db.applications, ∀ a' ∈ db.applications, a.userId = a'.userId → a = a'

def Settled (db : Db) : Prop := ∀ a ∈ db.applications, a.applicationState ≠ .autoChecks

theorem mem_write {app x : DealerKYCApplication} (ha : a ∈ db.applications) (hid : app.id = a.id) :
    x ∈ (db.write app).applications ↔ x ∈ db.applications ∧ x.id ≠ a.id ∨ x = app := by
  have hset : x ∈ (db.write app).applications ↔ _ := Table.mem_set
  rw [hset]
  constructor
  · rintro (⟨hx, hne⟩ | ⟨rfl, -⟩)
    · exact .inl ⟨hx, hid ▸ hne⟩
    · exact .inr rfl
  · rintro (⟨hx, hne⟩ | rfl)
    · exact .inl ⟨hx, fun heq => hne (heq.trans hid)⟩
    · exact .inr ⟨rfl, a, ha, hid.symm⟩

variable {app : DealerKYCApplication}

theorem Consistent.recorded (h : Consistent db)
    (ha : a ∈ db.applications) (hid : app.id = a.id) (huserId : app.userId = a.userId)
    (hstate : app.applicationState ≠ a.applicationState) (userId : ℕ) (reason : String) :
    Consistent ((db.write app).log app.id a.applicationState app.applicationState userId
      reason) := by
  refine ⟨fun r hr => ?_, fun x hx => ?_, fun x hx y hy hxy => ?_⟩
  · have hadd : r ∈ db.transitions ∨ r = _ := (Table.mem_add_mk (fun _ => rfl)).mp hr
    rcases hadd with hr | rfl
    · obtain ⟨x, hx, hxr⟩ := h.linked r hr
      by_cases hxa : x.id = a.id
      · exact ⟨app, (mem_write ha hid).mpr (.inr rfl), hid.trans (hxa.symm.trans hxr)⟩
      · exact ⟨x, (mem_write ha hid).mpr (.inl ⟨hx, hxa⟩), hxr⟩
    · exact ⟨app, (mem_write ha hid).mpr (.inr rfl), rfl⟩
  · rw [history_log, history_write]
    rcases (mem_write ha hid).mp hx with ⟨hx, hne⟩ | rfl
    · rw [if_neg fun heq => hne (heq.symm.trans hid), List.append_nil]
      exact h.chained x hx
    · rw [if_pos rfl, chained_append, hid]
      exact ⟨h.chained a ha, fun heq => hstate (value_injective heq), rfl⟩
  · rcases (mem_write ha hid).mp hx with ⟨hx', hnx⟩ | rfl <;>
      rcases (mem_write ha hid).mp hy with ⟨hy', hny⟩ | rfl
    · exact h.single x hx' y hy' hxy
    · exact absurd (congrArg DealerKYCApplication.id (h.single x hx' a ha (hxy.trans huserId))) hnx
    · exact absurd (congrArg DealerKYCApplication.id
        (h.single y hy' a ha (hxy.symm.trans huserId))) hny
    · rfl

theorem not_chained_write (h : Consistent db) (ha : a ∈ db.applications) (hid : app.id = a.id)
    (hstate : app.applicationState ≠ a.applicationState) : ¬ Sound (db.write app) := by
  intro hsound
  have hchain := hsound.chained app ((mem_write ha hid).mpr (.inr rfl))
  rw [history_write, hid] at hchain
  exact hstate (value_injective (chained_unique hchain (h.chained a ha)))

/-! ### New applications -/

theorem history_fresh (h : Consistent db) : db.history db.applications.freshKey = [] := by
  refine List.filter_eq_nil_iff.mpr fun r hr hid => ?_
  obtain ⟨a, ha, har⟩ := h.linked r hr
  have hlt : a.id < db.applications.freshKey := Table.key_lt_freshKey ha
  have heq : r.applicationId = db.applications.freshKey := by simpa using hid
  omega

variable {x : DealerKYCApplication}

section New

variable {userId now : ℕ} {documents : Documents} {panUrl gstUrl regUrl : String} {db' : Db}

theorem mem_new (hdb' : db' = { db with
      applications :=
        db.applications.add (newApplication now userId documents panUrl gstUrl regUrl) }) :
    x ∈ db'.applications ↔ x ∈ db.applications ∨
      x = newApplication now userId documents panUrl gstUrl regUrl db.applications.freshKey := by
  subst hdb'
  exact Table.mem_add_mk fun _ => rfl

theorem Consistent.new (h : Consistent db) (hnone : db.ofUser userId = none)
    (hdb' : db' = { db with
      applications :=
        db.applications.add (newApplication now userId documents panUrl gstUrl regUrl) })
    (reason : String) : Consistent
      (db'.log db.applications.freshKey .registration .docSubmitted userId reason) := by
  have hother : ∀ a ∈ db.applications, a.userId ≠ userId := fun a ha heq => by
    have hno := Table.find?_eq_none.mp hnone a ha
    simp [heq] at hno
  have hhistory : ∀ id, db'.history id = db.history id := fun id => by subst hdb'; rfl
  refine ⟨fun r hr => ?_, fun x hx => ?_, fun x hx y hy hxy => ?_⟩
  · have hadd : r ∈ db'.transitions ∨ r = _ := (Table.mem_add_mk (fun _ => rfl)).mp hr
    rcases hadd with hr | rfl
    · obtain ⟨x, hx, hxr⟩ := h.linked r (by subst hdb'; exact hr)
      exact ⟨x, (mem_new hdb').mpr (.inl hx), hxr⟩
    · exact ⟨_, (mem_new hdb').mpr (.inr rfl), rfl⟩
  · rw [history_log, hhistory]
    rcases (mem_new hdb').mp hx with hx | rfl
    · have hlt : x.id < db.applications.freshKey := Table.key_lt_freshKey hx
      rw [if_neg (by omega), List.append_nil]
      exact h.chained x hx
    · simp only [newApplication, history_fresh h, if_true]
      exact ⟨rfl, show KYCState.docSubmitted.value ≠ KYCState.registration.value by decide, rfl⟩
  · rcases (mem_new hdb').mp hx with hx | rfl <;> rcases (mem_new hdb').mp hy with hy | rfl
    · exact h.single x hx y hy hxy
    · exact absurd hxy (hother x hx)
    · exact absurd hxy.symm (hother y hy)
    · rfl

theorem not_sound_new (h : Consistent db) (hdb' : db' = { db with
      applications :=
        db.applications.add (newApplication now userId documents panUrl gstUrl regUrl) }) :
    ¬ Sound db' := by
  intro hsound
  have hchain := hsound.chained _ ((mem_new hdb').mpr (.inr rfl))
  have hhistory : db'.history db.applications.freshKey = [] := by
    subst hdb'
    exact history_fresh h
  simp only [newApplication, hhistory] at hchain
  exact absurd (show KYCState.registration.value = KYCState.docSubmitted.value from hchain)
    (by decide)

end New

/-! ### What a path leads to -/

variable {path : List Db}

theorem reached_first (h : fails 0 = true) (hpath : path ≠ []) :
    reached fails db path = db := by
  cases path with
  | nil => exact absurd rfl hpath
  | cons db' path => simp [reached, h]

theorem reached_mem (fails : ℕ → Bool) (db : Db) (path : List Db) :
    reached fails db path = db ∨ reached fails db path ∈ path := by
  induction path generalizing db fails with
  | nil => exact .inl rfl
  | cons db' path ih =>
    unfold reached
    split_ifs
    · exact .inl rfl
    · rcases ih (fun i => fails (i + 1)) db' with heq | hmem
      · rw [heq]
        exact .inr List.mem_cons_self
      · exact .inr (List.mem_cons_of_mem _ hmem)

/-- What the middle of a path has kept of the applications: all but one are as they were, and that
one is there. -/
def Near (db : Db) (a : DealerKYCApplication) (db' : Db) : Prop :=
  (∀ x ∈ db.applications, x ≠ a → x ∈ db'.applications) ∧
    ∃ a' ∈ db'.applications, a'.id = a.id ∧ a'.userId = a.userId

theorem near_write (ha : a ∈ db.applications) (hid : app.id = a.id)
    (huserId : app.userId = a.userId) : Near db a (db.write app) := by
  refine ⟨fun x hx hne => (mem_write ha hid).mpr (.inl ⟨hx, fun heq => hne ?_⟩), app,
    (mem_write ha hid).mpr (.inr rfl), hid, huserId⟩
  exact Table.eq_of_key hx ha heq

theorem Near.write {db' : Db} (h : Near db a db')
    (ha : a ∈ db.applications) (hid : app.id = a.id) (huserId : app.userId = a.userId) :
    Near db a (db'.write app) := by
  obtain ⟨hothers, a', ha', hid', -⟩ := h
  refine ⟨fun x hx hne => (mem_write ha' (hid.trans hid'.symm)).mpr
    (.inl ⟨hothers x hx hne, fun heq => hne ?_⟩), app,
    (mem_write ha' (hid.trans hid'.symm)).mpr (.inr rfl), hid, huserId⟩
  exact Table.eq_of_key hx ha (heq.trans hid')

/-- Where all states are near one of a change, another application is kept. -/
theorem near_or_kept {a a' x : DealerKYCApplication}
    (hx : x ∈ db.applications) (hchanges : Changes db call a a')
    (hall : ∀ db' ∈ path, Near db a db') : (∀ db' ∈ path, x ∈ db'.applications) ∨
      (∃ a', Changes db call x a') ∧ ∀ db' ∈ path, Near db x db' := by
  by_cases hxa : x = a
  · subst hxa
    exact .inr ⟨⟨a', hchanges⟩, hall⟩
  · exact .inl fun db' hdb' => (hall db' hdb').1 x hx hxa

theorem path_near (h : Path db call path)
    (hx : x ∈ db.applications) : (∀ db' ∈ path, x ∈ db'.applications) ∨
      (∃ a, Changes db call x a) ∧ ∀ db' ∈ path, Near db x db' := by
  cases h with
  | change a a' userId reason hchanges =>
    have hnear := near_write hchanges.mem hchanges.id hchanges.userId
    refine near_or_kept hx hchanges ?_
    rintro db' (_ | ⟨_, _ | ⟨_, ⟨⟩⟩⟩)
    · exact hnear
    · exact hnear
  | new userId now documents panUrl gstUrl regUrl reason hnone db' hdb' =>
    refine .inl ?_
    rintro db'' (_ | ⟨_, _ | ⟨_, ⟨⟩⟩⟩)
    · exact (mem_new hdb').mpr (.inl hx)
    · exact (mem_new hdb').mpr (.inl hx)
  | checks a a' a'' userId reason reason' db' hchanges hchecks hdb' hid huserId hsettled =>
    have hnear := near_write hchanges.mem hchanges.id hchanges.userId
    obtain ⟨-, hdb'⟩ := List.cons.inj hdb'
    obtain ⟨rfl, -⟩ := List.cons.inj hdb'
    have hlogged : Near db a ((db.write a').log a'.id a.applicationState a'.applicationState userId
      reason) := hnear
    have hnear' := hlogged.write hchanges.mem (hid.trans hchanges.id)
      (huserId.trans hchanges.userId)
    refine near_or_kept hx hchanges ?_
    rintro db' (_ | ⟨_, _ | ⟨_, _ | ⟨_, _ | ⟨_, ⟨⟩⟩⟩⟩⟩)
    · exact hnear
    · exact hnear
    · exact hnear'
    · exact hnear'

theorem step_near (attempt : Attempt) (hx : x ∈ db.applications) :
    x ∈ (step db attempt).applications ∨
      (∃ a, Changes db attempt.call x a) ∧ Near db x (step db attempt) := by
  obtain ⟨call, fails⟩ := attempt
  by_cases haccepted : call.Accepted db
  · obtain ⟨path, hpath, -, hstep⟩ := exists_path haccepted
    rw [hstep]
    rcases reached_mem fails db path with heq | hmem
    · rw [heq]
      exact .inl hx
    · rcases path_near hpath hx with hkept | ⟨hchanges, hnear⟩
      · exact .inl (hkept _ hmem)
      · exact .inr ⟨hchanges, hnear _ hmem⟩
  · rw [step_refused haccepted]
    exact .inl hx

theorem lifecycle_step (db : Db) (attempt : Attempt) : Lifecycle db attempt := by
  intro x hx
  rcases step_near attempt hx with hkept | ⟨⟨a, hchanges⟩, -, a', ha', hid, huserId⟩
  · exact ⟨x, hkept, rfl, rfl, id, fun hrejected hne => absurd hrejected hne⟩
  · exact ⟨a', ha', hid, huserId, fun hactive => absurd hactive hchanges.notActive,
      fun hrejected _ => hchanges.rejected hrejected⟩

/-- No operation takes an application out of the automatic checks. -/
theorem not_movable_of_checks (hx : x ∈ db.applications)
    (hchecks : x.applicationState = .autoChecks) : ¬ Movable db x := by
  rintro ⟨call, a', ha', hid, hne⟩
  rcases step_near { call } hx with hkept | ⟨⟨a, hchanges⟩, -⟩
  · exact hne (congrArg _ (Table.eq_of_key ha' hkept hid))
  · exact hchanges.notChecks hchecks

theorem Settled.write (h : Settled db) (ha : a ∈ db.applications)
    (hid : app.id = a.id) (hstate : app.applicationState ≠ .autoChecks) :
    Settled (db.write app) := by
  intro x hx
  rcases (mem_write ha hid).mp hx with ⟨hx, -⟩ | rfl
  · exact h x hx
  · exact hstate

theorem path_end (hpath : Path db call path) (h : Consistent db)
    (hsettled : Settled db) (hfails : ∀ i < path.length, fails i = false) :
    Consistent (reached fails db path) ∧ Settled (reached fails db path) := by
  cases hpath with
  | change a a' userId reason hchanges hstate =>
    simp only [recorded, reached, hfails 0 (by simp [recorded]),
      hfails (0 + 1) (by simp [recorded])]
    exact ⟨h.recorded hchanges.mem hchanges.id hchanges.userId hchanges.state userId reason,
      hsettled.write hchanges.mem hchanges.id hstate⟩
  | new userId now documents panUrl gstUrl regUrl reason hnone db' hdb' =>
    simp only [reached, hfails 0 (by simp), hfails (0 + 1) (by simp)]
    refine ⟨h.new hnone hdb' reason, fun x hx => ?_⟩
    rcases (mem_new hdb').mp hx with hx | rfl
    · exact hsettled x hx
    · simp [newApplication]
  | checks a a' a'' userId reason reason' db' hchanges hchecks hdb' hid huserId hstate =>
    have hlog : (db.write a').log a'.id a.applicationState a'.applicationState userId reason =
        db' := (List.cons.inj (List.cons.inj hdb').2).1
    have hfirst := h.recorded hchanges.mem hchanges.id hchanges.userId hchanges.state userId reason
    rw [hlog] at hfirst
    have hmem : a' ∈ db'.applications := by
      rw [← hlog]
      exact (mem_write hchanges.mem hchanges.id).mpr (.inr rfl)
    have hne : a''.applicationState ≠ a'.applicationState := fun heq => hstate (heq.trans hchecks)
    simp only [recorded, reached, List.cons_append, List.nil_append, hfails 0 (by simp [recorded]),
      hfails (0 + 1) (by simp [recorded]), hfails (0 + 1 + 1) (by simp [recorded]),
      hfails (0 + 1 + 1 + 1) (by simp [recorded])]
    refine ⟨?_, fun x hx => ?_⟩
    · have hsecond := hfirst.recorded hmem hid huserId hne userId reason'
      rw [hchecks] at hsecond
      exact hsecond
    · rcases (mem_write hmem hid).mp hx with ⟨hx, hnx⟩ | rfl
      · rw [← hlog] at hx
        rcases (mem_write hchanges.mem hchanges.id).mp hx with ⟨hx, -⟩ | rfl
        · exact hsettled x hx
        · exact absurd rfl hnx
      · exact hstate

theorem path_middle (hpath : Path db call path) (h : Consistent db)
    (hfirst : fails 0 = false) (hfails : ¬ ∀ i < path.length, fails i = false) :
    ¬ Sound (reached fails db path) := by
  have hlater : ∀ n, (∀ i, 0 < i → i < n + 1 → fails i = false) → ∀ i < n + 1, fails i = false := by
    intro n hall i hi
    rcases Nat.eq_zero_or_pos i with rfl | hpos
    · exact hfirst
    · exact hall i hpos hi
  have htwo : (¬ ∀ i < 2, fails i = false) → fails (0 + 1) = true := by
    intro hfails
    by_contra hno
    refine hfails (hlater 1 fun i hpos hi => ?_)
    obtain rfl : i = 1 := by omega
    simpa using hno
  cases hpath with
  | change a a' userId reason hchanges hstate =>
    have hsecond := htwo hfails
    simp only [recorded, reached, hfirst, hsecond, if_true]
    exact not_chained_write h hchanges.mem hchanges.id hchanges.state
  | new userId now documents panUrl gstUrl regUrl reason hnone db' hdb' =>
    have hsecond := htwo hfails
    simp only [reached, hfirst, hsecond, if_true]
    exact not_sound_new h hdb'
  | checks a a' a'' userId reason reason' db' hchanges hchecks hdb' hid huserId hstate =>
    have hlog : (db.write a').log a'.id a.applicationState a'.applicationState userId reason =
        db' := (List.cons.inj (List.cons.inj hdb').2).1
    have hlogged := h.recorded hchanges.mem hchanges.id hchanges.userId hchanges.state userId reason
    rw [hlog] at hlogged
    have hmem : a' ∈ db'.applications := by
      rw [← hlog]
      exact (mem_write hchanges.mem hchanges.id).mpr (.inr rfl)
    have hne : a''.applicationState ≠ a'.applicationState := fun heq => hstate (heq.trans hchecks)
    simp only [recorded, reached, List.cons_append, List.nil_append, hfirst, hlog,
      Bool.false_eq_true, if_false]
    by_cases hsecond : fails (0 + 1) = true
    · simp only [hsecond, if_true]
      exact not_chained_write h hchanges.mem hchanges.id hchanges.state
    by_cases hthird : fails (0 + 1 + 1) = true
    · -- the application is left in the automatic checks
      simp only [hsecond, hthird, if_true, Bool.false_eq_true, if_false]
      exact fun hsound => not_movable_of_checks hmem hchecks
        (hsound.movable a' hmem (by simp [hchecks]))
    · have hfourth : fails (0 + 1 + 1 + 1) = true := by
        by_contra hno
        refine hfails (hlater 3 fun i hpos hi => ?_)
        obtain rfl | rfl | rfl : i = 1 ∨ i = 2 ∨ i = 3 := by omega
        · simpa using hsecond
        · simpa using hthird
        · simpa using hno
      simp only [hsecond, hthird, hfourth, if_true]
      exact not_chained_write hlogged hmem hid hne

/-! ### Every application can go on -/

theorem Consistent.ofUser (h : Consistent db) (ha : a ∈ db.applications) :
    db.ofUser a.userId = some a := by
  rcases hfind : db.ofUser a.userId with _ | x
  · have hno := Table.find?_eq_none.mp hfind a ha
    simp at hno
  · obtain ⟨hx, huserId⟩ := ofUser_eq_some hfind
    rw [h.single x hx a ha huserId]

theorem movable_of_step {a' : DealerKYCApplication} {s : KYCState} {userId : ℕ} {reason : String}
    (hstep : step db { call } = reached (fun _ => false) db (recorded db a' s userId reason))
    (ha : a ∈ db.applications) (hid : a'.id = a.id)
    (hne : a'.applicationState ≠ a.applicationState) : Movable db a := by
  refine ⟨call, a', ?_, hid, hne⟩
  rw [hstep]
  exact (mem_write ha hid).mpr (.inr rfl)

theorem Consistent.movable (h : Consistent db) (hsettled : Settled db) (ha : a ∈ db.applications)
    (hactive : a.applicationState ≠ .active) : Movable db a := by
  have hsubmit : a.applicationState = .rejected ∨ a.applicationState = .registration →
      Movable db a := by
    intro hstate
    have haccepted : (Call.submitDocuments 0 a.userId ⟨"", "", "", ""⟩
        ⟨.ok "", .ok "", .ok ""⟩).Accepted db := by
      refine ⟨fun x hx => ?_, rfl, rfl, rfl⟩
      obtain rfl := Option.some.inj ((h.ofUser ha).symm.trans hx)
      exact hstate
    obtain ⟨panUrl, gstUrl, regUrl, hstep⟩ := step_resubmission haccepted (h.ofUser ha)
    refine movable_of_step (hstep _) ha rfl ?_
    rcases hstate with hstate | hstate <;> simp [resubmitted, hstate]
  have hget : db.applications.get? a.id = some a := Table.get?_of_mem ha
  cases hstate : a.applicationState with
  | registration => exact hsubmit (.inr hstate)
  | docSubmitted =>
    obtain ⟨db₂, reason, hdb₂, hstep⟩ := step_runAutoChecks (h.ofUser ha) hstate
    have hid : (checked a).id = a.id := by
      unfold checked
      split_ifs <;> rfl
    have hmem : { a with applicationState := KYCState.autoChecks } ∈ db₂.applications := by
      obtain ⟨rfl, -⟩ := List.cons.inj (List.cons.inj hdb₂).2
      have hid : { a with applicationState := KYCState.autoChecks }.id = a.id := rfl
      exact (mem_write ha hid).mpr (.inr rfl)
    refine ⟨.runAutoChecks a.userId, checked a, ?_, hid, ?_⟩
    · rw [hstep, hdb₂]
      exact (mem_write hmem hid).mpr (.inr rfl)
    · unfold checked
      split_ifs <;> simp [hstate]
  | autoChecks => exact absurd hstate (hsettled a ha)
  | manualReview =>
    refine movable_of_step (step_manualReview 0 true "" hget hstate) ha rfl ?_
    simp [reviewed, hstate]
  | approved =>
    refine movable_of_step (step_activateDealer 0 hget hstate) ha rfl ?_
    simp [hstate]
  | active => exact absurd hstate hactive
  | rejected => exact hsubmit (.inl hstate)

theorem Consistent.sound (h : Consistent db) (hsettled : Settled db) : Sound db :=
  ⟨h.chained, h.single, fun _ ha => h.movable hsettled ha⟩

theorem Sound.settled (h : Sound db) : Settled db := fun a ha hchecks =>
  not_movable_of_checks ha hchecks (h.movable a ha (by simp [hchecks]))

theorem Sound.consistent (h : Sound db) (hlinked : Linked db) : Consistent db :=
  ⟨hlinked, h.chained, h.single⟩

variable {attempt : Attempt}

theorem Consistent.step (h : Consistent db) (hsettled : Settled db)
    (hharmless : Harmless db attempt) :
    Consistent (step db attempt) ∧ Settled (step db attempt) := by
  obtain ⟨call, fails⟩ := attempt
  by_cases haccepted : call.Accepted db
  · obtain ⟨path, hpath, hlength, hstep⟩ := exists_path haccepted
    rw [hstep]
    rcases hharmless haccepted with hfirst | hnone
    · have hne : path ≠ [] := by
        rintro rfl
        cases call <;> cases hlength
      rw [reached_first hfirst hne]
      exact ⟨h, hsettled⟩
    · exact path_end hpath h hsettled (by rw [hlength]; exact hnone)
  · rw [step_refused haccepted]
    exact ⟨h, hsettled⟩

theorem harmless_of_sound (h : Consistent db)
    (hsound : Sound (Kyc.step db attempt)) : Harmless db attempt := by
  obtain ⟨call, fails⟩ := attempt
  intro haccepted
  obtain ⟨path, hpath, hlength, hstep⟩ := exists_path haccepted
  by_contra hno
  rw [not_or] at hno
  rw [hstep] at hsound
  refine path_middle hpath h (Bool.eq_false_iff.mpr hno.1) ?_ hsound
  rw [hlength]
  exact hno.2

end

/-- **Histories.**  In any run of the operations, in which any commits fail, the applications have
complete histories, one for each user, and can go on, exactly as long as in every call that is
accepted the first commit fails or none. -/
theorem history_iff (db : Db) (hstart : Sound db) (hlinked : Linked db) (attempts : List Attempt) :
    Along step (fun db attempt => Lifecycle db attempt ∧ Sound (step db attempt)) db attempts ↔
      Along step Harmless db attempts :=
  along_iff_along (I := fun db => Consistent db ∧ Settled db)
    (fun _ _ h hharmless => h.1.step h.2 hharmless)
    (fun db attempt h => ⟨fun hsound => harmless_of_sound h.1 hsound.2, fun hharmless =>
      ⟨lifecycle_step db attempt,
        (h.1.step h.2 hharmless).1.sound (h.1.step h.2 hharmless).2⟩⟩)
    ⟨hstart.consistent hlinked, hstart.settled⟩ attempts

theorem sound_empty : Sound {} :=
  ⟨fun _ ha => absurd ha (Table.not_mem_empty _), fun _ ha => absurd ha (Table.not_mem_empty _),
    fun _ ha => absurd ha (Table.not_mem_empty _)⟩

theorem linked_empty : Linked {} := fun _ hr => absurd hr (Table.not_mem_empty _)

/-- A dealer submits documents. -/
def submission (now : ℕ) (panNumber : String) : Call :=
  .submitDocuments now 7 ⟨"Acme", panNumber, "22AAAAA0000A1Z5", "\x7b\x7d"⟩
    ⟨.ok "pan.pdf", .ok "gst.pdf", .ok "reg.pdf"⟩

/-- Documents that are refused, submitted again, reviewed and activated; one commit fails. -/
def onboarding : List Attempt :=
  [{ call := submission 1 "FAILED_PAN" },
    { call := .runAutoChecks 7 },
    { call := submission 2 "ABCDE1234F" },
    { call := .runAutoChecks 7, fails := fun i => i = 0 },
    { call := .runAutoChecks 7 },
    { call := .manualReview 1 2 true "fine" },
    { call := .activateDealer 1 2 }]

theorem onboarding_harmless : Along step Harmless {} onboarding := by
  refine ⟨?_, ?_, ?_, ?_, ?_, ?_, ?_, trivial⟩
  · exact fun _ => .inr fun _ _ => rfl
  · exact fun _ => .inr fun _ _ => rfl
  · exact fun _ => .inr fun _ _ => rfl
  · exact fun _ => .inl rfl
  · exact fun _ => .inr fun _ _ => rfl
  · exact fun _ => .inr fun _ _ => rfl
  · exact fun _ => .inr fun _ _ => rfl

theorem onboarding_history :
    ((run step {} onboarding).applications.rows.map (·.applicationState)) = [.active] ∧
    Along step (fun db attempt => Lifecycle db attempt ∧ Sound (step db attempt)) {} onboarding :=
  ⟨by decide +kernel, (history_iff {} sound_empty linked_empty onboarding).mpr onboarding_harmless⟩

/-- The third commit of the automatic checks fails. -/
def interrupted : List Attempt :=
  [{ call := submission 1 "ABCDE1234F" },
    { call := .runAutoChecks 7, fails := fun i => i = 2 }]

/-- The application is stuck. -/
theorem stuck_in_checks :
    ((run step {} interrupted).applications.rows.map (·.applicationState)) = [.autoChecks] ∧
    (∀ a ∈ (run step {} interrupted).applications, ¬ Movable (run step {} interrupted) a) ∧
    ¬ Along step (fun db attempt => Lifecycle db attempt ∧ Sound (step db attempt)) {}
      interrupted := by
  have hrows : (run step {} interrupted).applications.rows.map (·.applicationState) =
      [.autoChecks] := by decide +kernel
  have hchecks : ∀ a ∈ (run step {} interrupted).applications,
      a.applicationState = .autoChecks := by
    intro a ha
    have hmem : a.applicationState ∈
        (run step {} interrupted).applications.rows.map (·.applicationState) :=
      List.mem_map_of_mem ha
    rw [hrows] at hmem
    exact List.mem_singleton.mp hmem
  refine ⟨hrows, fun a ha => not_movable_of_checks ha (hchecks a ha), fun hall => ?_⟩
  have hsound : Sound (run step {} interrupted) := hall.2.1.2
  obtain ⟨a, ha⟩ : ∃ a, a ∈ (run step {} interrupted).applications := by
    have hne : (run step {} interrupted).applications.rows ≠ [] := by
      intro hnil
      rw [hnil] at hrows
      cases hrows
    exact List.exists_mem_of_ne_nil _ hne
  exact hsound.settled a ha (hchecks a ha)

end WezuBackend.Dealers.Kyc
