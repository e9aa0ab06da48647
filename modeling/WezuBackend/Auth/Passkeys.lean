import WezuBackend.Core.Text
import WezuBackend.Lib.Results
import WezuBackend.Lib.Runs

/-!
# Passkeys

`app/services/passkey_service.py`: a ceremony begins with a challenge that is stored, and ends with
a response to it.  The challenge is claimed, and the claim committed, before the response is looked
at.  A registration stores the credential for its user, also one that somebody else has revoked; a
deactivation computes the user's flag `biometric_login_enabled` anew.

A challenge is its base64 text.  `Library` is what the service calls outside the repository: nothing
is assumed of it.  `stepped` says once what a request does; the facts about runs use only that.
-/

namespace WezuBackend.Auth.Passkeys

open Lib.Tables Lib.Runs Lib.Results Core.Base Core.Text

/-! ## Rows -/

structure User where
  id : ℕ
  email : Option String
  phoneNumber : Option String
  /-- `status == UserStatus.ACTIVE` -/
  isActive : Bool
  biometricLoginEnabled : Bool
  deriving DecidableEq, Repr

instance : Row User ℕ := ⟨User.id⟩

inductive Ceremony where
  | registration
  | authentication
  deriving DecidableEq, Repr

/-- A row of `passkey_challenges`; `challenge_id` is unique. -/
structure PasskeyChallenge where
  challengeId : String
  challenge : String
  ceremony : Ceremony
  userId : Option ℕ
  createdAt : ℤ
  expiresAt : ℤ
  usedAt : Option ℤ
  deriving DecidableEq, Repr

instance : Row PasskeyChallenge String := ⟨PasskeyChallenge.challengeId⟩

/-- A row of `passkey_credentials`; `credential_id` is unique. -/
structure PasskeyCredential where
  userId : ℕ
  credentialId : String
  publicKey : String
  signCount : ℤ
  aaguid : Option String
  transports : List String
  credentialDeviceType : String
  credentialBackedUp : Bool
  passkeyName : Option String
  lastUsedAt : Option ℤ
  isActive : Bool
  revokedAt : Option ℤ
  createdAt : ℤ
  updatedAt : ℤ
  deriving DecidableEq, Repr

instance : Row PasskeyCredential String := ⟨PasskeyCredential.credentialId⟩

structure Db where
  users : Table User
  challenges : Table PasskeyChallenge
  passkeys : Table PasskeyCredential

/-! ## What is outside the repository -/

/-- A response of an authenticator: its identifiers, its transports, and what it has signed. -/
structure Response where
  id : Option String
  rawId : Option String
  transports : List String
  signed : String
  deriving DecidableEq, Repr

structure RegistrationVerification where
  credentialId : String
  credentialPublicKey : String
  signCount : ℤ
  aaguid : Option String
  credentialDeviceType : String
  credentialBackedUp : Bool

structure AuthenticationVerification where
  newSignCount : ℤ
  credentialDeviceType : String
  credentialBackedUp : Bool

structure Library where
  /-- `verify_registration_response` for a challenge, with the settings of the relying party; the
  text of the exception if it raises -/
  verifyRegistration : Response → String → Except String RegistrationVerification
  /-- `verify_authentication_response` for a challenge, a public key and a sign count -/
  verifyAuthentication : Response → String → String → ℤ → Except String AuthenticationVerification
  /-- `selectinload(User.roles)`: SQLAlchemy may raise, for the attribute is a property -/
  loadRoles : Except Exc Unit

structure Settings where
  challengeTtlSeconds : ℤ
  maxCredentialsPerUser : ℕ

/-! ## Challenges -/

def second : ℤ := 1000000

/-- `_create_challenge`: the rows with the new one. -/
def createChallenge (c : Settings) (db : Db) (challengeId challenge : String) (ceremony : Ceremony)
    (userId : Option ℕ) (now : ℤ) : Except Exc Db :=
  let row : PasskeyChallenge := {
    challengeId := challengeId, challenge := challenge, ceremony := ceremony, userId := userId,
    createdAt := now, expiresAt := now + c.challengeTtlSeconds * second, usedAt := none }
  match h : db.challenges.get? challengeId with
  | some _ => .error .integrityError
  | none =>
    .ok { db with challenges := db.challenges.insert row (Table.get?_eq_none.mp h) }

def challengeInvalid : Exc := .http 401 "Passkey challenge expired or invalid"

/-- The statement of `_claim_challenge`. -/
def openChallenge (db : Db) (challengeId : String) (ceremony : Ceremony) (userId : Option ℕ)
    (now : ℤ) : Option PasskeyChallenge :=
  db.challenges.find? fun ch =>
    ch.challengeId = challengeId ∧ ch.ceremony = ceremony ∧ ch.usedAt = none ∧
      ch.expiresAt > now ∧ ∀ u ∈ userId, ch.userId = some u

/-- The challenge has been used. -/
def claimed (db : Db) (challenge : PasskeyChallenge) (now : ℤ) : Db :=
  { db with challenges := db.challenges.set { challenge with usedAt := some now } }

/-! ## Registration -/

def getActivePasskeysForUser (db : Db) (userId : ℕ) : List PasskeyCredential :=
  db.passkeys.filter fun p => p.userId = userId ∧ p.isActive = true

/-- `generate_registration_options`; `options` is the challenge of the library's options, or the
exception of an incomplete configuration. -/
def generateRegistrationOptions (c : Settings) (db : Db) (user : User)
    (options : Except Exc String) (challengeId : String) (now : ℤ) : Except Exc Db := do
  if c.maxCredentialsPerUser ≤ (getActivePasskeysForUser db user.id).length then
    throw (.http 400 "Maximum number of passkeys reached for this account")
  let challenge ← options
  createChallenge c db challengeId challenge .registration (some user.id) now

def cleanName (passkeyName : Option String) : Option String :=
  truthy (some (strip (passkeyName.getD "")))

def cleanTransports (transports : List String) : List String :=
  (transports.map strip).filter (· ≠ "")

def newPasskey (user : User) (credential : Response) (passkeyName : Option String) (now : ℤ)
    (verification : RegistrationVerification) : PasskeyCredential where
  userId := user.id
  credentialId := verification.credentialId
  publicKey := verification.credentialPublicKey
  signCount := verification.signCount
  aaguid := verification.aaguid
  transports := cleanTransports credential.transports
  credentialDeviceType := verification.credentialDeviceType
  credentialBackedUp := verification.credentialBackedUp
  passkeyName := cleanName passkeyName
  lastUsedAt := some now
  isActive := true
  revokedAt := none
  createdAt := now
  updatedAt := now

/-- The row of a credential that is registered again. -/
def renewedPasskey (existing : PasskeyCredential) (user : User) (credential : Response)
    (passkeyName : Option String) (now : ℤ) (verification : RegistrationVerification) :
    PasskeyCredential :=
  { existing with
    userId := user.id
    publicKey := verification.credentialPublicKey
    signCount := verification.signCount
    aaguid := verification.aaguid
    transports :=
      if credential.transports = [] then existing.transports
      else cleanTransports credential.transports
    credentialDeviceType := verification.credentialDeviceType
    credentialBackedUp := verification.credentialBackedUp
    passkeyName := if passkeyName.isSome then cleanName passkeyName else existing.passkeyName
    lastUsedAt := some now
    isActive := true
    revokedAt := none
    updatedAt := now }

def enableBiometricLogin (user : User) : User := { user with biometricLoginEnabled := true }

/-- What `verify_registration` does with the claimed challenge: the credential and the rows. -/
def registerCredential (lib : Library) (db : Db) (user : User) (challenge : PasskeyChallenge)
    (credential : Response) (passkeyName : Option String) (now : ℤ) :
    Except Exc (PasskeyCredential × Db) :=
  match lib.verifyRegistration credential challenge.challenge with
  | .error exc => .error (.http 400 ("Passkey registration verification failed: " ++ exc))
  | .ok verification =>
    let users := db.users.set (enableBiometricLogin user)
    match h : db.passkeys.get? verification.credentialId with
    | none =>
      let passkey := newPasskey user credential passkeyName now verification
      .ok (passkey, { db with
        users := users, passkeys := db.passkeys.insert passkey (Table.get?_eq_none.mp h) })
    | some existing =>
      if existing.userId ≠ user.id ∧ existing.isActive then
        .error (.http 409 "This passkey is already linked to another account")
      else
        let passkey := renewedPasskey existing user credential passkeyName now verification
        .ok (passkey, { db with users := users, passkeys := db.passkeys.set passkey })

/-! ## Authentication -/

/-- `_find_user_by_username`, of a name without blanks around it. -/
def findUserByUsername (db : Db) (username : String) : Option User :=
  if '@' ∈ username.toList then db.users.find? fun u => u.email = some username
  else db.users.find? fun u => u.phoneNumber = some username

def challengedUser (db : Db) (name : String) : Except Exc (Option User) :=
  if name = "" then .ok none
  else
    match findUserByUsername db name with
    | none => .error (.http 404 "User not found")
    | some user =>
      if getActivePasskeysForUser db user.id = [] then
        .error (.http 404 "No passkeys registered for this account")
      else .ok (some user)

/-- `generate_authentication_options`, with `options` as in `generateRegistrationOptions`. -/
def generateAuthenticationOptions (c : Settings) (db : Db) (username : Option String)
    (options : Except Exc String) (challengeId : String) (now : ℤ) : Except Exc Db := do
  let user ← challengedUser db (strip (username.getD ""))
  let challenge ← options
  createChallenge c db challengeId challenge .authentication (user.map User.id) now

def namedCredential (credential : Response) : String :=
  strip (((truthy credential.id).or credential.rawId).getD "")

/-- The row after an authentication. -/
def usedPasskey (passkey : PasskeyCredential) (verification : AuthenticationVerification)
    (now : ℤ) : PasskeyCredential :=
  { passkey with
    signCount := verification.newSignCount
    credentialDeviceType := verification.credentialDeviceType
    credentialBackedUp := verification.credentialBackedUp
    lastUsedAt := some now
    updatedAt := now }

/-- What `verify_authentication` does with the claimed challenge: the user, the credential and the
rows. -/
def authenticateCredential (lib : Library) (db : Db) (challenge : PasskeyChallenge)
    (credential : Response) (now : ℤ) : Except Exc (User × PasskeyCredential × Db) := do
  let credentialId := namedCredential credential
  if credentialId = "" then throw (.http 400 "Passkey credential id is missing")
  match db.passkeys.find? fun p => p.credentialId = credentialId ∧ p.isActive = true with
  | none => throw (.http 401 "Unknown or inactive passkey")
  | some passkey =>
    if ∃ u ∈ challenge.userId, passkey.userId ≠ u then
      throw (.http 401 "Passkey is not valid for this account")
    match lib.verifyAuthentication credential challenge.challenge passkey.publicKey
        passkey.signCount with
    | .error exc => throw (.http 401 ("Passkey authentication failed: " ++ exc))
    | .ok verification =>
      lib.loadRoles
      match db.users.get? passkey.userId with
      | none => throw (.http 404 "User not found")
      | some user =>
        if user.isActive = false then throw (.http 403 "Inactive user")
        let used := usedPasskey passkey verification now
        return (user, used, { db with passkeys := db.passkeys.set used })

/-! ## Deactivation -/

def revokedPasskey (passkey : PasskeyCredential) (now : ℤ) : PasskeyCredential :=
  { passkey with isActive := false, revokedAt := some now, updatedAt := now }

def disableBiometricLogin (users : Table User) (userId : ℕ) : Table User :=
  users.update (fun u => u.id = userId) (fun u => { u with biometricLoginEnabled := false })
    fun _ => rfl

/-- The flag of a user without an active credential is cleared. -/
def clearFlag (db : Db) (userId : ℕ) : Db :=
  if getActivePasskeysForUser db userId = [] then
    { db with users := disableBiometricLogin db.users userId }
  else db

def deactivatePasskey (db : Db) (userId : ℕ) (credentialId : String) (now : ℤ) : Except Exc Db :=
  match db.passkeys.find? fun p =>
      p.userId = userId ∧ p.credentialId = credentialId ∧ p.isActive = true with
  | none => .error (.http 404 "Passkey not found")
  | some credential =>
    .ok (clearFlag { db with passkeys := db.passkeys.set (revokedPasskey credential now) } userId)

/-! ## Requests -/

/-- A request, with the times at which it reads the clock.  The user of the first two is the one who
is logged in. -/
inductive Request where
  | registrationOptions (userId : ℕ) (options : Except Exc String) (challengeId : String) (now : ℤ)
  | verifyRegistration (userId : ℕ) (challengeId : String) (credential : Response)
    (passkeyName : Option String) (claimedAt now : ℤ)
  | authenticationOptions (username : Option String) (options : Except Exc String)
    (challengeId : String) (now : ℤ)
  | verifyAuthentication (challengeId : String) (credential : Response) (claimedAt now : ℤ)
  | deactivate (userId : ℕ) (credentialId : String) (now : ℤ)

/-- What a request did. -/
inductive Event where
  | refused (e : Exc)
  /-- a challenge was issued, or a credential deactivated -/
  | done
  /-- a response to the challenge was accepted; the user is the one that is returned -/
  | accepted (ceremony : Ceremony) (challengeId : String) (claimedAt : ℤ) (userId : ℕ)
    (credentialId : String)
  deriving DecidableEq

/-- A request that ends with rows to store, or with an exception. -/
def stored (db : Db) (r : Except Exc Db) : Event × Db :=
  match r with
  | .ok db' => (.done, db')
  | .error e => (.refused e, db)

def verifyRegistration (lib : Library) (db : Db) (user : User) (challengeId : String)
    (credential : Response) (passkeyName : Option String) (claimedAt now : ℤ) : Event × Db :=
  match openChallenge db challengeId .registration (some user.id) claimedAt with
  | none => (.refused challengeInvalid, db)
  | some challenge =>
    let db := claimed db challenge claimedAt
    match registerCredential lib db user challenge credential passkeyName now with
    | .error e => (.refused e, db)
    | .ok (passkey, db') =>
      (.accepted .registration challengeId claimedAt user.id passkey.credentialId, db')

def verifyAuthentication (lib : Library) (db : Db) (challengeId : String) (credential : Response)
    (claimedAt now : ℤ) : Event × Db :=
  match openChallenge db challengeId .authentication none claimedAt with
  | none => (.refused challengeInvalid, db)
  | some challenge =>
    let db := claimed db challenge claimedAt
    match authenticateCredential lib db challenge credential now with
    | .error e => (.refused e, db)
    | .ok (user, passkey, db') =>
      (.accepted .authentication challengeId claimedAt user.id passkey.credentialId, db')

/-- What the request does, and the stored rows after it. -/
def exec (lib : Library) (c : Settings) (db : Db) : Request → Event × Db
  | .registrationOptions userId options challengeId now =>
    match db.users.get? userId with
    | none => (.refused (.http 404 "User not found"), db)
    | some user => stored db (generateRegistrationOptions c db user options challengeId now)
  | .verifyRegistration userId challengeId credential passkeyName claimedAt now =>
    match db.users.get? userId with
    | none => (.refused (.http 404 "User not found"), db)
    | some user =>
      verifyRegistration lib db user challengeId credential passkeyName claimedAt now
  | .authenticationOptions username options challengeId now =>
    stored db (generateAuthenticationOptions c db username options challengeId now)
  | .verifyAuthentication challengeId credential claimedAt now =>
    verifyAuthentication lib db challengeId credential claimedAt now
  | .deactivate userId credentialId now =>
    stored db (deactivatePasskey db userId credentialId now)

/-! ## What one request does -/

inductive Stepped (db : Db) : Event → Db → Prop where
  | refused {e} : Stepped db (.refused e) db
  | issued {row : PasskeyChallenge}
    (hnew : ∀ x ∈ db.challenges, Row.key x ≠ Row.key row) (hunused : row.usedAt = none) :
    Stepped db .done { db with challenges := db.challenges.insert row hnew }
  | wasted {challenge : PasskeyChallenge} {now e} (hchallenge : challenge ∈ db.challenges) :
    Stepped db (.refused e) (claimed db challenge now)
  | registered {challenge : PasskeyChallenge} {claimedAt : ℤ} {user : User}
    {passkeys : Table PasskeyCredential} {passkey : PasskeyCredential}
    (hchallenge : challenge ∈ db.challenges) (hceremony : challenge.ceremony = .registration)
    (hunused : challenge.usedAt = none) (hexpiry : claimedAt < challenge.expiresAt)
    (hfor : challenge.userId = some user.id) (huser : user ∈ db.users)
    (hpasskey : passkey.userId = user.id ∧ passkey.isActive = true)
    (hpasskeys : ∀ p, p ∈ passkeys ↔
      p = passkey ∨ p ∈ db.passkeys ∧ p.credentialId ≠ passkey.credentialId)
    (hfree : ∀ p ∈ db.passkeys, p.credentialId = passkey.credentialId → p.isActive = true →
      p.userId = user.id) :
    Stepped db
      (.accepted .registration challenge.challengeId claimedAt user.id passkey.credentialId)
      { claimed db challenge claimedAt with
        users := db.users.set (enableBiometricLogin user), passkeys := passkeys }
  | authenticated {challenge : PasskeyChallenge} {claimedAt : ℤ} {passkey used : PasskeyCredential}
    (hchallenge : challenge ∈ db.challenges) (hceremony : challenge.ceremony = .authentication)
    (hunused : challenge.usedAt = none) (hexpiry : claimedAt < challenge.expiresAt)
    (hfor : ∀ u ∈ challenge.userId, passkey.userId = u) (hpasskey : passkey ∈ db.passkeys)
    (hactive : passkey.isActive = true)
    (hused : used.userId = passkey.userId ∧ used.credentialId = passkey.credentialId ∧
      used.isActive = passkey.isActive) :
    Stepped db
      (.accepted .authentication challenge.challengeId claimedAt used.userId used.credentialId)
      { claimed db challenge claimedAt with passkeys := db.passkeys.set used }
  | deactivated {passkey : PasskeyCredential} {now : ℤ} (hpasskey : passkey ∈ db.passkeys)
    (hactive : passkey.isActive = true) :
    Stepped db .done (clearFlag
      { db with passkeys := db.passkeys.set (revokedPasskey passkey now) } passkey.userId)

variable {ch : PasskeyChallenge} {k : String} {now : ℤ}

variable {ceremony : Ceremony} {userId : Option ℕ}

theorem openChallenge_eq_some {db : Db} (h : openChallenge db k ceremony userId now = some ch) :
    ch ∈ db.challenges ∧ ch.challengeId = k ∧ ch.ceremony = ceremony ∧ ch.usedAt = none ∧
      now < ch.expiresAt ∧ ∀ u ∈ userId, ch.userId = some u := by
  exact Table.find?_spec h

variable {db db' : Db}

theorem stepped_createChallenge {c : Settings} {k challenge : String}
    (h : createChallenge c db k challenge ceremony userId now = .ok db') :
    Stepped db .done db' := by
  unfold createChallenge at h
  dsimp only at h
  split at h
  · cases h
  · next hnone =>
    cases h
    exact .issued _ rfl

/-- Options are issued with a challenge, or there is an exception. -/
theorem stepped_stored {db : Db} {r : Except Exc Db}
    (h : ∀ db', r = .ok db' → Stepped db .done db') :
    Stepped db (stored db r).1 (stored db r).2 := by
  rcases r with e | db'
  · exact .refused
  · exact h db' rfl

variable {user : User}

variable {options : Except Exc String}

theorem stepped_registrationOptions {c : Settings}
    (h : generateRegistrationOptions c db user options k now = .ok db') :
    Stepped db .done db' := by
  unfold generateRegistrationOptions at h
  split_ifs at h
  · cases h
  · obtain ⟨challenge, -, h⟩ := except_bind_ok.mp h
    exact stepped_createChallenge h

theorem stepped_authenticationOptions {c : Settings} {username : Option String}
    (h : generateAuthenticationOptions c db username options k now = .ok db') :
    Stepped db .done db' := by
  unfold generateAuthenticationOptions at h
  obtain ⟨user, -, h⟩ := except_bind_ok.mp h
  obtain ⟨challenge, -, h⟩ := except_bind_ok.mp h
  exact stepped_createChallenge h

variable {passkey : PasskeyCredential}

variable {challenge : PasskeyChallenge} {credential : Response}

/-- **A registration** stores the credential for its user, unless another user has it in use. -/
theorem registerCredential_ok {lib : Library}
    {name : Option String}
    (h : registerCredential lib db user challenge credential name now = .ok (passkey, db')) :
    (passkey.userId = user.id ∧ passkey.isActive = true) ∧
      (∀ p ∈ db.passkeys, p.credentialId = passkey.credentialId → p.isActive = true →
        p.userId = user.id) ∧
      (∀ p, p ∈ db'.passkeys ↔
        p = passkey ∨ p ∈ db.passkeys ∧ p.credentialId ≠ passkey.credentialId) ∧
      db' = { db with users := db.users.set (enableBiometricLogin user),
                      passkeys := db'.passkeys } := by
  unfold registerCredential at h
  split at h
  · cases h
  · next verification hverification =>
    dsimp only at h
    split at h
    · next hnone =>
      cases h
      have hnew := Table.get?_eq_none.mp hnone
      refine ⟨⟨rfl, rfl⟩, fun p hp hid _ => absurd hid (hnew p hp), fun p => ?_, rfl⟩
      rw [Table.mem_insert]
      constructor
      · rintro (hp | rfl)
        · exact .inr ⟨hp, hnew p hp⟩
        · exact .inl rfl
      · rintro (rfl | ⟨hp, -⟩)
        · exact .inr rfl
        · exact .inl hp
    · next existing hexisting =>
      obtain ⟨hmem, hid⟩ := Table.get?_eq_some.mp hexisting
      split_ifs at h with hconflict
      cases h
      refine ⟨⟨rfl, rfl⟩, fun p hp hpid hactive => ?_, fun p => ?_, rfl⟩
      · have hpe : p = existing := Table.eq_of_key hp hmem hpid
        by_contra hother
        exact hconflict ⟨hpe ▸ hother, hpe ▸ hactive⟩
      · rw [Table.mem_set]
        constructor
        · rintro (⟨hp, hne⟩ | ⟨rfl, -⟩)
          · exact .inr ⟨hp, hne⟩
          · exact .inl rfl
        · rintro (rfl | ⟨hp, hne⟩)
          · exact .inr ⟨rfl, existing, hmem, rfl⟩
          · exact .inl ⟨hp, hne⟩

theorem authenticateCredential_ok {lib : Library} {used : PasskeyCredential}
    (h : authenticateCredential lib db challenge credential now = .ok (user, used, db')) :
    ∃ passkey ∈ db.passkeys, passkey.isActive = true ∧ user.id = passkey.userId ∧
      (∀ u ∈ challenge.userId, passkey.userId = u) ∧
      (used.userId = passkey.userId ∧ used.credentialId = passkey.credentialId ∧
        used.isActive = passkey.isActive) ∧
      db' = { db with passkeys := db.passkeys.set used } := by
  unfold authenticateCredential at h
  dsimp only at h
  split_ifs at h with hid
  · cases h
  · split at h
    · cases h
    · next passkey hpasskey =>
      have hactive := Table.find?_prop hpasskey
      rw [decide_eq_true_eq] at hactive
      split_ifs at h with hother
      · cases h
      · split at h
        · cases h
        · next verification hverification =>
          obtain ⟨-, -, h⟩ := except_bind_ok.mp h
          split at h
          · cases h
          · next found hfound =>
            split_ifs at h with hinactive
            · cases h
            · cases h
              obtain ⟨-, hfoundId⟩ := Table.get?_eq_some.mp hfound
              refine ⟨passkey, Table.find?_mem hpasskey, hactive.2, hfoundId, ?_,
                ⟨rfl, rfl, rfl⟩, rfl⟩
              intro u hu
              by_contra hne
              exact hother ⟨u, hu, hne⟩

theorem stepped (lib : Library) (c : Settings) (db : Db) (q : Request) :
    Stepped db (exec lib c db q).1 (exec lib c db q).2 := by
  cases q with
  | registrationOptions userId options k now =>
    simp only [exec]
    split
    · exact .refused
    · exact stepped_stored fun _ h => stepped_registrationOptions h
  | verifyRegistration userId k credential name claimedAt now =>
    simp only [exec]
    split
    · exact .refused
    · next user huser =>
      obtain ⟨hmem, rfl⟩ := Table.get?_eq_some.mp huser
      unfold verifyRegistration
      split
      · exact .refused
      · next challenge hopen =>
        obtain ⟨hchallenge, rfl, hceremony, hunused, hexpiry, hfor⟩ := openChallenge_eq_some hopen
        dsimp only
        split
        · exact .wasted hchallenge
        · next passkey db' hregister =>
          obtain ⟨hpasskey, hfree, hpasskeys, hdb⟩ := registerCredential_ok hregister
          rw [hdb]
          exact .registered hchallenge hceremony hunused hexpiry (hfor _ rfl) hmem hpasskey
            hpasskeys hfree
  | authenticationOptions username options k now =>
    exact stepped_stored fun _ h => stepped_authenticationOptions h
  | verifyAuthentication k credential claimedAt now =>
    simp only [exec, verifyAuthentication]
    split
    · exact .refused
    · next challenge hopen =>
      obtain ⟨hchallenge, rfl, hceremony, hunused, hexpiry, -⟩ := openChallenge_eq_some hopen
      split
      · exact .wasted hchallenge
      · next user used db' hauth =>
        obtain ⟨passkey, hmem, hactive, hid, hfor, hused, rfl⟩ := authenticateCredential_ok hauth
        rw [hid, ← hused.1]
        exact .authenticated hchallenge hceremony hunused hexpiry hfor hmem hactive hused
  | deactivate userId credentialId now =>
    refine stepped_stored fun db' h => ?_
    unfold deactivatePasskey at h
    split at h
    · cases h
    · next passkey hpasskey =>
      cases h
      have hprop := Table.find?_prop hpasskey
      rw [decide_eq_true_eq] at hprop
      obtain ⟨rfl, -, hactive⟩ := hprop
      exact .deactivated (Table.find?_mem hpasskey) hactive

/-! ## Runs -/

/-- The rows, what the requests did so far, and who registered each credential last. -/
structure History where
  db : Db
  log : List Event
  registrant : String → Option ℕ

/-- Before the first request: the credentials that are there count as registered by their users. -/
def begin (db : Db) : History where
  db := db
  log := []
  registrant k := (db.passkeys.get? k).map PasskeyCredential.userId

/-- The new registrant, if the request was a registration. -/
def noted (registrant : String → Option ℕ) : Event → String → Option ℕ
  | .accepted .registration _ _ userId credentialId =>
    Function.update registrant credentialId (some userId)
  | _ => registrant

section

variable (lib : Library) (c : Settings)

def step (h : History) (q : Request) : History where
  db := (exec lib c h.db q).2
  log := h.log ++ [(exec lib c h.db q).1]
  registrant := noted h.registrant (exec lib c h.db q).1

end

def accepts (k : String) : Event → Bool
  | .accepted _ challengeId _ _ _ => challengeId = k
  | _ => false

/-- How often a response to the challenge was accepted. -/
def acceptances (k : String) (log : List Event) : ℕ := log.countP (accepts k)

/-- **The flag** is set for the users with an active credential, and for no others. -/
def FlagsExact (db : Db) : Prop :=
  ∀ u ∈ db.users, u.biometricLoginEnabled = true ↔
    ∃ p ∈ db.passkeys, p.userId = u.id ∧ p.isActive = true

/-- What one request may do. -/
structure Proper (h h' : History) (e : Event) : Prop where
  /-- a challenge is accepted unused, before its expiry, for its own ceremony and for the user it
  was issued for -/
  challenge : ∀ ceremony k claimedAt userId credentialId,
    e = .accepted ceremony k claimedAt userId credentialId →
    ∃ ch ∈ h.db.challenges, ch.challengeId = k ∧ ch.ceremony = ceremony ∧ ch.usedAt = none ∧
      claimedAt < ch.expiresAt ∧ ∀ u ∈ ch.userId, userId = u
  /-- an authentication is one of who registered the credential last, while it is active -/
  authentication : ∀ k claimedAt userId credentialId,
    e = .accepted .authentication k claimedAt userId credentialId →
    h.registrant credentialId = some userId ∧
      ∃ p ∈ h.db.passkeys, p.credentialId = credentialId ∧ p.isActive = true
  /-- a credential in use stays with its user -/
  kept : ∀ p ∈ h.db.passkeys, p.isActive = true →
    ∃ p' ∈ h'.db.passkeys, p'.credentialId = p.credentialId ∧ p'.userId = p.userId

/-- What the requests keep. -/
structure Kept (h : History) : Prop where
  flags : FlagsExact h.db
  registrant : ∀ p ∈ h.db.passkeys, h.registrant p.credentialId = some p.userId
  once : ∀ k, acceptances k h.log ≤ 1
  unused : ∀ k, (∀ ch ∈ h.db.challenges, ch.challengeId = k → ch.usedAt = none) →
    acceptances k h.log = 0

theorem kept_begin {db : Db} (h : FlagsExact db) : Kept (begin db) where
  flags := h
  registrant p hp := by
    have hget : db.passkeys.get? p.credentialId = some p := Table.get?_of_mem hp
    simp [begin, hget]
  once _ := Nat.zero_le _
  unused _ _ := rfl

@[simp] theorem acceptances_concat (k : String) (log : List Event) (e : Event) :
    acceptances k (log ++ [e]) = acceptances k log + acceptances k [e] := List.countP_append

/-! ### The flag -/

/-- The flags are right for the others if only the credentials of one user change. -/
theorem flagsExact_of_others {n : ℕ} (h : FlagsExact db)
    (husers : ∀ u ∈ db'.users, u.id ≠ n → u ∈ db.users)
    (hpasskeys : ∀ u, u ≠ n → ((∃ p ∈ db'.passkeys, p.userId = u ∧ p.isActive = true) ↔
      ∃ p ∈ db.passkeys, p.userId = u ∧ p.isActive = true))
    (hself : ∀ u ∈ db'.users, u.id = n → (u.biometricLoginEnabled = true ↔
      ∃ p ∈ db'.passkeys, p.userId = u.id ∧ p.isActive = true)) : FlagsExact db' := by
  intro u hu
  by_cases hid : u.id = n
  · exact hself u hu hid
  · rw [hpasskeys u.id hid]
    exact h u (husers u hu hid)

variable {passkeys : Table PasskeyCredential}

variable {challenges : Table PasskeyChallenge}

theorem flagsExact_registered {db : Db} (h : FlagsExact db)
    (hpasskey : passkey.userId = user.id ∧ passkey.isActive = true)
    (hpasskeys : ∀ p, p ∈ passkeys ↔
      p = passkey ∨ p ∈ db.passkeys ∧ p.credentialId ≠ passkey.credentialId)
    (hfree : ∀ p ∈ db.passkeys, p.credentialId = passkey.credentialId → p.isActive = true →
      p.userId = user.id) :
    FlagsExact ⟨db.users.set (enableBiometricLogin user), challenges, passkeys⟩ := by
  refine flagsExact_of_others (n := user.id) h (fun u hu hid => ?_) (fun u hid => ?_) ?_
  · rcases Table.mem_set.mp hu with ⟨hu, -⟩ | ⟨rfl, -⟩
    · exact hu
    · exact absurd rfl hid
  · constructor
    · rintro ⟨p, hp, hpu, hactive⟩
      rcases (hpasskeys p).mp hp with rfl | ⟨hp, -⟩
      · exact absurd (hpu.symm.trans hpasskey.1) hid
      · exact ⟨p, hp, hpu, hactive⟩
    · rintro ⟨p, hp, hpu, hactive⟩
      refine ⟨p, (hpasskeys p).mpr (.inr ⟨hp, fun hpk => hid ?_⟩), hpu, hactive⟩
      rw [← hpu]
      exact hfree p hp hpk hactive
  · intro u hu hid
    rcases Table.mem_set.mp hu with ⟨-, hne⟩ | ⟨rfl, -⟩
    · exact absurd hid hne
    · have hmem : passkey ∈ passkeys := (hpasskeys passkey).mpr (.inl rfl)
      exact ⟨fun _ => ⟨passkey, hmem, hpasskey⟩, fun _ => rfl⟩

theorem active_set_iff {p p' : PasskeyCredential} (hp : p ∈ passkeys)
    (h : p'.userId = p.userId ∧ p'.credentialId = p.credentialId ∧ p'.isActive = p.isActive)
    (u : ℕ) : (∃ x ∈ passkeys.set p', x.userId = u ∧ x.isActive = true) ↔
      ∃ x ∈ passkeys, x.userId = u ∧ x.isActive = true := by
  obtain ⟨huser, hid, hactive⟩ := h
  constructor
  · rintro ⟨x, hx, hxu, hxa⟩
    rcases Table.mem_set.mp hx with ⟨hx, -⟩ | ⟨rfl, -⟩
    · exact ⟨x, hx, hxu, hxa⟩
    · exact ⟨p, hp, huser ▸ hxu, hactive ▸ hxa⟩
  · rintro ⟨x, hx, hxu, hxa⟩
    by_cases hxp : x.credentialId = p'.credentialId
    · obtain rfl : x = p := Table.eq_of_key hx hp (hxp.trans hid)
      exact ⟨p', Table.mem_set.mpr (.inr ⟨rfl, x, hx, hxp⟩), huser.trans hxu, hactive.trans hxa⟩
    · exact ⟨x, Table.mem_set.mpr (.inl ⟨hx, hxp⟩), hxu, hxa⟩

theorem mem_disableBiometricLogin {users : Table User} {u₀ : ℕ} {u : User}
    (hu : u ∈ disableBiometricLogin users u₀) :
    (u.id ≠ u₀ ∧ u ∈ users) ∨ (u.id = u₀ ∧ u.biometricLoginEnabled = false) := by
  obtain ⟨x, hx, rfl⟩ := List.mem_map.mp hu
  by_cases hid : x.id = u₀
  · exact .inr (by simp [hid])
  · exact .inl (by simpa [hid, Table.mem_def] using hx)

theorem flagsExact_deactivated {db : Db}
    (h : FlagsExact db) (hpasskey : passkey ∈ db.passkeys) (hactive : passkey.isActive = true) :
    FlagsExact (clearFlag
      { db with passkeys := db.passkeys.set (revokedPasskey passkey now) } passkey.userId) := by
  have hpasskeys : ∀ x, x ∈ db.passkeys.set (revokedPasskey passkey now) ∧ x.isActive = true ↔
      (x ∈ db.passkeys ∧ x.credentialId ≠ passkey.credentialId) ∧ x.isActive = true := by
    intro x
    rw [Table.mem_set]
    constructor
    · rintro ⟨⟨hx, hne⟩ | ⟨rfl, -⟩, hxa⟩
      · exact ⟨⟨hx, hne⟩, hxa⟩
      · cases hxa
    · rintro ⟨⟨hx, hne⟩, hxa⟩
      exact ⟨.inl ⟨hx, hne⟩, hxa⟩
  generalize hset : db.passkeys.set (revokedPasskey passkey now) = passkeys at hpasskeys ⊢
  have hothers : ∀ u, u ≠ passkey.userId →
      ((∃ p ∈ passkeys, p.userId = u ∧ p.isActive = true) ↔
        ∃ p ∈ db.passkeys, p.userId = u ∧ p.isActive = true) := by
    intro u hu
    constructor
    · rintro ⟨p, hp, hpu, hpa⟩
      exact ⟨p, ((hpasskeys p).mp ⟨hp, hpa⟩).1.1, hpu, hpa⟩
    · rintro ⟨p, hp, hpu, hpa⟩
      have hne : p.credentialId ≠ passkey.credentialId := by
        intro hid
        obtain rfl : p = passkey := Table.eq_of_key hp hpasskey hid
        exact hu hpu.symm
      exact ⟨p, ((hpasskeys p).mpr ⟨⟨hp, hne⟩, hpa⟩).1, hpu, hpa⟩
  unfold clearFlag
  split_ifs with hnone
  · refine flagsExact_of_others h (fun u hu hid => ?_) hothers fun u hu hid => ?_
    · rcases mem_disableBiometricLogin hu with ⟨-, hu⟩ | ⟨hu₀, -⟩
      · exact hu
      · exact absurd hu₀ hid
    · have hflag : u.biometricLoginEnabled = false := by
        rcases mem_disableBiometricLogin hu with ⟨hne, -⟩ | ⟨-, hoff⟩
        · exact absurd hid hne
        · exact hoff
      rw [hflag]
      refine ⟨fun hf => absurd hf (by decide), ?_⟩
      rintro ⟨p, hp, hpu, hpa⟩
      have hmem : p ∈ getActivePasskeysForUser ⟨db.users, db.challenges, passkeys⟩
          passkey.userId :=
        Table.mem_filter.mpr ⟨hp, decide_eq_true ⟨hpu.trans hid, hpa⟩⟩
      rw [hnone] at hmem
      cases hmem
  · refine flagsExact_of_others h (fun u hu _ => hu) hothers fun u hu hid => ?_
    obtain ⟨p, hp⟩ := List.exists_mem_of_ne_nil _ hnone
    obtain ⟨hp, hprop⟩ := Table.mem_filter.mp hp
    rw [decide_eq_true_eq] at hprop
    have hsome : ∃ p ∈ passkeys, p.userId = u.id ∧ p.isActive = true :=
      ⟨p, hp, hprop.1.trans hid.symm, hprop.2⟩
    have hbefore := (h u hu).mpr ⟨passkey, hpasskey, hid.symm, hactive⟩
    exact ⟨fun _ => hsome, fun _ => hbefore⟩

variable {e : Event}

theorem Stepped.flags (h : Stepped db e db') (hflags : FlagsExact db) :
    FlagsExact db' := by
  cases h with
  | refused => exact hflags
  | issued => exact hflags
  | wasted => exact hflags
  | registered _ _ _ _ _ _ hpasskey hpasskeys hfree =>
    exact flagsExact_registered hflags hpasskey hpasskeys hfree
  | authenticated _ _ _ _ _ hpasskey _ hused =>
    intro u hu
    rw [active_set_iff hpasskey hused]
    exact hflags u hu
  | deactivated hpasskey hactive => exact flagsExact_deactivated hflags hpasskey hactive

/-! ### Challenges -/

theorem clearFlag_rows (db : Db) (u : ℕ) :
    (clearFlag db u).challenges = db.challenges ∧ (clearFlag db u).passkeys = db.passkeys := by
  unfold clearFlag
  split_ifs <;> exact ⟨rfl, rfl⟩

theorem unused_of_claimed {db : Db} {ch x : PasskeyChallenge} (hch : ch ∈ db.challenges)
    (hk : ∀ x ∈ (claimed db ch now).challenges, x.challengeId = k → x.usedAt = none)
    (hx : x ∈ db.challenges) (hxk : x.challengeId = k) : x.usedAt = none ∧ ch.challengeId ≠ k := by
  have hne : ch.challengeId ≠ k := by
    intro hid
    have hused := hk { ch with usedAt := some now }
      (Table.mem_set.mpr (.inr ⟨rfl, ch, hch, rfl⟩)) hid
    cases hused
  refine ⟨hk x (Table.mem_set.mpr (.inl ⟨hx, fun hid => hne ?_⟩)) hxk, hne⟩
  exact Eq.trans (Eq.symm hid) hxk

variable {h : History}

theorem Kept.silent (hk : Kept h) (he : ∀ k, accepts k e = false)
    (hrows : ∀ x ∈ h.db.challenges, x ∈ challenges ∨
      ∃ y ∈ challenges, y.challengeId = x.challengeId ∧ y.usedAt ≠ none) :
    (∀ k, acceptances k (h.log ++ [e]) ≤ 1) ∧
      ∀ k, (∀ x ∈ challenges, x.challengeId = k → x.usedAt = none) →
        acceptances k (h.log ++ [e]) = 0 := by
  have hzero : ∀ k, acceptances k [e] = 0 := fun k => by simp [acceptances, he k]
  constructor
  · intro k
    rw [acceptances_concat, hzero]
    exact hk.once k
  · intro k hunused
    rw [acceptances_concat, hzero, add_zero]
    refine hk.unused k fun x hx hxk => ?_
    rcases hrows x hx with hx | ⟨y, hy, hyx, hused⟩
    · exact hunused x hx hxk
    · exact absurd (hunused y hy (hyx.trans hxk)) hused

theorem Kept.spent (hk : Kept h) {t : ℤ}
    (hch : ch ∈ h.db.challenges) (hunused : ch.usedAt = none)
    (he : ∀ k, accepts k e = decide (ch.challengeId = k)) :
    (∀ k, acceptances k (h.log ++ [e]) ≤ 1) ∧
      ∀ k, (∀ x ∈ (claimed h.db ch t).challenges, x.challengeId = k → x.usedAt = none) →
        acceptances k (h.log ++ [e]) = 0 := by
  have hone : ∀ k, acceptances k [e] = if ch.challengeId = k then 1 else 0 := fun k => by
    by_cases hid : ch.challengeId = k <;> simp [acceptances, he k, hid]
  constructor
  · intro k
    rw [acceptances_concat, hone]
    split_ifs with hid
    · have hzero : acceptances k h.log = 0 := by
        refine hk.unused k fun x hx hxk => ?_
        have hxch : x = ch := Table.eq_of_key hx hch (hxk.trans hid.symm)
        rw [hxch]
        exact hunused
      omega
    · exact hk.once k
  · intro k hk'
    by_cases hid : ch.challengeId = k
    · exact absurd hid (unused_of_claimed hch hk' hch hid).2
    · rw [acceptances_concat, hone, if_neg hid, add_zero]
      exact hk.unused k fun x hx hxk => (unused_of_claimed hch hk' hx hxk).1

/-! ### Every request -/

theorem claimed_rows (db : Db) (hch : ch ∈ db.challenges) (now : ℤ) :
    ∀ x ∈ db.challenges, x ∈ (claimed db ch now).challenges ∨
      ∃ y ∈ (claimed db ch now).challenges, y.challengeId = x.challengeId ∧ y.usedAt ≠ none := by
  intro x hx
  by_cases hid : x.challengeId = ch.challengeId
  · refine .inr ⟨{ ch with usedAt := some now }, ?_, hid.symm, by simp⟩
    exact Table.mem_set.mpr (.inr ⟨rfl, ch, hch, rfl⟩)
  · exact .inl (Table.mem_set.mpr (.inl ⟨hx, hid⟩))

variable {p r : PasskeyCredential}

theorem kept_of_set
    (hp : p ∈ passkeys) (hid : r.credentialId = p.credentialId) (huser : r.userId = p.userId) :
    ∀ x ∈ passkeys, ∃ x' ∈ passkeys.set r, x'.credentialId = x.credentialId ∧
      x'.userId = x.userId := by
  intro x hx
  by_cases hxp : x.credentialId = r.credentialId
  · obtain rfl : x = p := Table.eq_of_key hx hp (hxp.trans hid)
    exact ⟨r, Table.mem_set.mpr (.inr ⟨rfl, x, hx, hxp⟩), hid, huser⟩
  · exact ⟨x, Table.mem_set.mpr (.inl ⟨hx, hxp⟩), rfl, rfl⟩

theorem registrant_of_set
    {registrant : String → Option ℕ} (h : ∀ x ∈ passkeys, registrant x.credentialId = some x.userId)
    (hp : p ∈ passkeys) (hid : r.credentialId = p.credentialId) (huser : r.userId = p.userId) :
    ∀ x ∈ passkeys.set r, registrant x.credentialId = some x.userId := by
  intro x hx
  rcases Table.mem_set.mp hx with ⟨hx, -⟩ | ⟨rfl, -⟩
  · exact h x hx
  · rw [hid, huser]
    exact h p hp

theorem Kept.stepped (hk : Kept h) {db' : Db}
    (hs : Stepped h.db e db') :
    Kept ⟨db', h.log ++ [e], noted h.registrant e⟩ ∧
      Proper h ⟨db', h.log ++ [e], noted h.registrant e⟩ e := by
  have hflags := hs.flags hk.flags
  have hsame : ∀ x ∈ h.db.challenges, x ∈ h.db.challenges ∨
      ∃ y ∈ h.db.challenges, y.challengeId = x.challengeId ∧ y.usedAt ≠ none := fun x hx => .inl hx
  cases hs with
  | @refused e =>
    obtain ⟨honce, hunused⟩ := hk.silent (e := .refused e) (fun _ => rfl) hsame
    refine ⟨⟨hflags, hk.registrant, honce, hunused⟩, ⟨by simp, by simp, fun p hp _ => ?_⟩⟩
    exact ⟨p, hp, rfl, rfl⟩
  | @issued row hnew _ =>
    obtain ⟨honce, hunused⟩ := hk.silent (e := .done) (fun _ => rfl)
      fun x hx => .inl (Table.mem_insert.mpr (.inl hx) : x ∈ h.db.challenges.insert row hnew)
    refine ⟨⟨hflags, hk.registrant, honce, hunused⟩, ⟨by simp, by simp, fun p hp _ => ?_⟩⟩
    exact ⟨p, hp, rfl, rfl⟩
  | @wasted ch now e hch =>
    obtain ⟨honce, hunused⟩ := hk.silent (e := .refused e) (fun _ => rfl)
      (claimed_rows h.db hch now)
    refine ⟨⟨hflags, hk.registrant, honce, hunused⟩, ⟨by simp, by simp, fun p hp _ => ?_⟩⟩
    exact ⟨p, hp, rfl, rfl⟩
  | @registered ch claimedAt user passkeys passkey hch hceremony hfresh hexpiry hfor _ hpasskey
      hpasskeys hfree =>
    obtain ⟨honce, hunused⟩ := hk.spent (e := .accepted .registration ch.challengeId claimedAt
      user.id passkey.credentialId) (t := claimedAt) hch hfresh fun _ => rfl
    refine ⟨⟨hflags, fun p hp => ?_, honce, hunused⟩, ⟨?_, by simp, fun p hp hactive => ?_⟩⟩
    · rcases (hpasskeys p).mp hp with rfl | ⟨hp, hne⟩
      · simp [noted, hpasskey.1]
      · simp only [noted, Function.update_of_ne hne]
        exact hk.registrant p hp
    · rintro ceremony k t u cid hevent
      cases hevent
      refine ⟨ch, hch, rfl, hceremony, hfresh, hexpiry, fun u hu => ?_⟩
      rw [hfor] at hu
      exact Option.some.inj hu
    · by_cases hid : p.credentialId = passkey.credentialId
      · have huser : passkey.userId = p.userId := hpasskey.1.trans (hfree p hp hid hactive).symm
        exact ⟨passkey, (hpasskeys passkey).mpr (.inl rfl), hid.symm, huser⟩
      · exact ⟨p, (hpasskeys p).mpr (.inr ⟨hp, hid⟩), rfl, rfl⟩
  | @authenticated ch claimedAt passkey used hch hceremony hfresh hexpiry hfor hpasskey hactive
      hused =>
    obtain ⟨huser, hid, -⟩ := hused
    obtain ⟨honce, hunused⟩ := hk.spent (e := .accepted .authentication ch.challengeId claimedAt
      used.userId used.credentialId) (t := claimedAt) hch hfresh fun _ => rfl
    have hregistrant := registrant_of_set hk.registrant hpasskey hid huser
    refine ⟨⟨hflags, hregistrant, honce, hunused⟩, ⟨?_, ?_, fun p hp _ => ?_⟩⟩
    · rintro ceremony k t u cid hevent
      cases hevent
      refine ⟨ch, hch, rfl, hceremony, hfresh, hexpiry, fun u hu => ?_⟩
      rw [huser]
      exact hfor u hu
    · rintro k t u cid hevent
      cases hevent
      refine ⟨?_, passkey, hpasskey, hid.symm, hactive⟩
      rw [hid, huser]
      exact hk.registrant passkey hpasskey
    · exact kept_of_set hpasskey hid huser p hp
  | @deactivated passkey now hpasskey hactive =>
    obtain ⟨hchallenges, hpasskeys⟩ := clearFlag_rows
      { h.db with passkeys := h.db.passkeys.set (revokedPasskey passkey now) } passkey.userId
    obtain ⟨honce, hunused⟩ := hk.silent (e := .done) (fun _ => rfl) hsame
    have hregistrant := registrant_of_set (r := revokedPasskey passkey now) hk.registrant hpasskey
      rfl rfl
    refine ⟨⟨hflags, ?_, honce, ?_⟩, ⟨by simp, by simp, fun p hp _ => ?_⟩⟩
    · rw [hpasskeys]
      exact hregistrant
    · rw [hchallenges]
      exact hunused
    · rw [hpasskeys]
      exact kept_of_set (r := revokedPasskey passkey now) hpasskey rfl rfl p hp

/-- **Every run**: each challenge is accepted at most once, every request is proper, and the flag is
exact. -/
theorem passkeys_safe (lib : Library) (c : Settings) {db : Db} (h : FlagsExact db)
    (requests : List Request) :
    FlagsExact (run (step lib c) (begin db) requests).db ∧
      (∀ k, acceptances k (run (step lib c) (begin db) requests).log ≤ 1) ∧
      Along (step lib c) (fun h q => Proper h (step lib c h q) (exec lib c h.db q).1) (begin db)
        requests := by
  have hstep : ∀ h q, Kept h → Kept (step lib c h q) := fun h q hk =>
    (hk.stepped (stepped lib c h.db q)).1
  have hkept := run_invariant hstep (kept_begin h) requests
  refine ⟨hkept.flags, hkept.once, along_iff.mpr fun before q _ _ => ?_⟩
  have hbefore := run_invariant hstep (kept_begin h) before
  exact (hbefore.stepped (stepped lib c _ q)).2

/-! ## A credential that changes hands -/

/-- Signatures are spelled out: the challenge, after the key where there is one. -/
def sampleLibrary : Library where
  verifyRegistration r challenge :=
    if r.signed = challenge then .ok ⟨r.id.getD "", "key", 0, none, "single_device", false⟩
    else .error "Unexpected challenge"
  verifyAuthentication r challenge publicKey _ :=
    if r.signed = publicKey ++ challenge then .ok ⟨1, "single_device", false⟩
    else .error "Could not verify signature"
  loadRoles := .ok ()

def sampleSettings : Settings := ⟨300, 20⟩

def sampleDb : Db where
  users := ⟨[⟨1, some "a@wezu.in", none, true, false⟩, ⟨2, none, some "900", true, false⟩],
    by decide⟩
  challenges := Table.empty
  passkeys := Table.empty

theorem sampleDb_flags : FlagsExact sampleDb := by
  intro u hu
  have hnone : ¬ ∃ p ∈ sampleDb.passkeys, p.userId = u.id ∧ p.isActive = true := by
    rintro ⟨p, hp, -⟩
    cases hp
  have hoff : ∀ u ∈ sampleDb.users, u.biometricLoginEnabled = false := by decide
  simp [hoff u hu, hnone]

/-- User 1 registers a credential, authenticates and deactivates it; user 2 tries to take it before
and after. -/
def sampleRequests : List Request :=
  let response (signed : String) : Response := ⟨some "cred", none, [], signed⟩
  [.registrationOptions 1 (.ok "x") "c1" 0, .registrationOptions 2 (.ok "y") "c2" 0,
    .verifyRegistration 1 "c1" (response "x") (some " phone ") 1 2,
    .verifyRegistration 2 "c2" (response "y") none 3 4,
    .authenticationOptions (some "a@wezu.in") (.ok "z") "c3" 5,
    .verifyAuthentication "c3" (response "keyz") 6 7,
    .verifyAuthentication "c3" (response "keyz") 8 9, .deactivate 1 "cred" 10,
    .registrationOptions 2 (.ok "w") "c4" 11,
    .verifyRegistration 2 "c4" (response "w") none 12 13]

theorem passkeys_safe_sample :
    FlagsExact (run (step sampleLibrary sampleSettings) (begin sampleDb) sampleRequests).db ∧
      (∀ k, acceptances k
        (run (step sampleLibrary sampleSettings) (begin sampleDb) sampleRequests).log ≤ 1) ∧
      Along (step sampleLibrary sampleSettings) (fun h q =>
        Proper h (step sampleLibrary sampleSettings h q)
          (exec sampleLibrary sampleSettings h.db q).1) (begin sampleDb) sampleRequests :=
  passkeys_safe sampleLibrary sampleSettings sampleDb_flags sampleRequests

example : (run (step sampleLibrary sampleSettings) (begin sampleDb) sampleRequests).log =
    [.done, .done, .accepted .registration "c1" 1 1 "cred",
      .refused (.http 409 "This passkey is already linked to another account"), .done,
      .accepted .authentication "c3" 6 1 "cred", .refused challengeInvalid, .done, .done,
      .accepted .registration "c4" 12 2 "cred"] := by decide +kernel

end WezuBackend.Auth.Passkeys
