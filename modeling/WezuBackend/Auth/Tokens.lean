import WezuBackend.Core.Base
import WezuBackend.Lib.Runs

/-!
# Tokens

The pairs of an access and a refresh token that `app/api/v1/auth.py` answers with in local mode, the
sessions behind them, and the two places that accept them: `get_user_from_token` of
`app/api/deps.py`, behind every request with a bearer token, and the refresh endpoint.

A token is the list of its claims, of which its text is a function; what decodes is what the server
has signed.  The SHA-256 hash of a token stands for the token.  A `uuid4` is the next number of a
supply.  A login is a pair and all that it was refreshed to, numbered by its first `jti`.
-/

namespace WezuBackend.Auth.Tokens

open Lib.Tables Core.Base

/-! ## Settings and rows -/

/-- In microseconds. -/
def second : ℤ := 1000000

/-- A point of time in whole seconds, as a claim has it. -/
def seconds (t : ℤ) : ℤ := t / second

/-- The settings the tokens are made and read with. -/
structure Settings where
  accessTokenExpireMinutes : ℕ
  refreshTokenExpireDays : ℕ
  /-- in seconds -/
  authTokenCacheTtl : ℤ
  /-- The server's local time is ahead of the database's by so much. -/
  localOffset : ℤ
  /-- The times of `user_sessions` come back from the database without a zone. -/
  sessionsNaive : Bool
  /-- The times of `users` do. -/
  usersNaive : Bool

/-- How long an access token lasts. -/
def Settings.accessLifetime (cfg : Settings) : ℤ := cfg.accessTokenExpireMinutes * (60 * second)

/-- How long a refresh token lasts. -/
def Settings.refreshLifetime (cfg : Settings) : ℤ :=
  cfg.refreshTokenExpireDays * (24 * 60 * 60 * second)

/-- What decides in a row of `users` whether a token of the user is accepted. -/
structure Account where
  id : ℕ
  /-- `status == UserStatus.ACTIVE` -/
  isActive : Bool
  isDeleted : Bool
  lastGlobalLogoutAt : Option ℤ
  deriving DecidableEq, Repr

instance : Row Account ℕ := ⟨Account.id⟩

/-- The `type` of the payload. -/
inductive TokenType where
  | access
  | refresh
  deriving DecidableEq, Repr

/-- The claims of a token; `exp` and `iat` are in seconds. -/
structure Token where
  type : TokenType
  sub : ℕ
  exp : ℤ
  iat : ℤ
  sid : Option ℕ
  jti : Option ℕ
  deriving DecidableEq, Repr

/-- A row of `user_sessions`; without a `token_id`, it is "unknown". -/
structure UserSession where
  id : ℕ
  userId : ℕ
  tokenId : Option ℕ
  refreshTokenHash : Option Token
  isActive : Bool
  isRevoked : Bool
  expiresAt : Option ℤ
  deriving DecidableEq, Repr

instance : Row UserSession ℕ := ⟨UserSession.id⟩

/-- A row of `blacklisted_tokens`. -/
structure BlacklistedToken where
  token : Token
  expiresAt : ℤ
  deriving DecidableEq, Repr

instance : Row BlacklistedToken Token := ⟨BlacklistedToken.token⟩

/-- `_ValidatedToken`; `issuedAt` is in seconds. -/
structure ValidatedToken where
  userId : ℕ
  sid : Option ℕ
  issuedAt : Option ℤ
  deriving DecidableEq, Repr

/-- An entry of `_auth_cache`; `_auth_user_index` has the same entries by their users. -/
structure CachedToken where
  token : Token
  expiresAt : ℤ
  validated : ValidatedToken
  deriving DecidableEq, Repr

instance : Row CachedToken Token := ⟨CachedToken.token⟩

/-- An answered pair of tokens. -/
structure Pair where
  jti : ℕ
  subject : ℕ
  /-- The access token carries the `jti` of the refresh token as its `sid`. -/
  hasSid : Bool
  issuedAt : ℤ
  login : ℕ
  deriving DecidableEq, Repr

instance : Row Pair ℕ := ⟨Pair.jti⟩

/-- The tables, the cache of the process, the clock, and the pairs signed so far. -/
structure State where
  users : Table Account
  sessions : Table UserSession
  blacklist : Table BlacklistedToken
  cache : Table CachedToken
  pairs : Table Pair
  clock : ℤ

/-! ## Signing -/

/-- `create_access_token`. -/
def createAccessToken (cfg : Settings) (subject : ℕ) (sid : Option ℕ) (now : ℤ) : Token :=
  ⟨.access, subject, seconds (now + cfg.accessLifetime), seconds now, sid, none⟩

/-- `create_refresh_token`. -/
def createRefreshToken (cfg : Settings) (subject : ℕ) (jti : ℕ) (now : ℤ) : Token :=
  ⟨.refresh, subject, seconds (now + cfg.refreshLifetime), seconds now, none, some jti⟩

/-- The access token of the pair. -/
def Pair.access (cfg : Settings) (p : Pair) : Token :=
  createAccessToken cfg p.subject (if p.hasSid then some p.jti else none) p.issuedAt

/-- The refresh token of the pair. -/
def Pair.refresh (cfg : Settings) (p : Pair) : Token :=
  createRefreshToken cfg p.subject p.jti p.issuedAt

/-- The token is one of the pair's two. -/
def Pair.Has (cfg : Settings) (p : Pair) (token : Token) : Prop :=
  token = p.access cfg ∨ token = p.refresh cfg

instance (cfg : Settings) (p : Pair) (token : Token) : Decidable (p.Has cfg token) :=
  inferInstanceAs (Decidable (_ ∨ _))

/-- The token is of a pair that was signed. -/
def Signed (cfg : Settings) (s : State) (token : Token) : Prop := ∃ p ∈ s.pairs, p.Has cfg token

instance (cfg : Settings) (s : State) (token : Token) : Decidable (Signed cfg s token) :=
  inferInstanceAs (Decidable (∃ p ∈ s.pairs, _))

/-- `jwt.decode` does not raise. -/
def Decodes (cfg : Settings) (s : State) (token : Token) : Prop :=
  Signed cfg s token ∧ seconds s.clock ≤ token.exp

instance (cfg : Settings) (s : State) (token : Token) : Decidable (Decodes cfg s token) :=
  inferInstanceAs (Decidable (_ ∧ _))

/-- Sign a pair, of a new login if none is given. -/
def sign (s : State) (subject : ℕ) (hasSid : Bool) (login : Option ℕ) : Pair × State :=
  let mk := fun jti => Pair.mk jti subject hasSid s.clock (login.getD jti)
  (mk s.pairs.freshKey, { s with pairs := s.pairs.add mk })

/-! ## Sessions -/

/-- `create_user_session`. -/
def createUserSession (cfg : Settings) (s : State) (userId : ℕ) (refreshToken : Token)
    (tokenJti : Option ℕ) : State :=
  { s with sessions := s.sessions.add fun id =>
      { id := id, userId := userId, tokenId := tokenJti.or refreshToken.jti,
        refreshTokenHash := some refreshToken, isActive := true, isRevoked := false,
        expiresAt := some (s.clock + cfg.refreshLifetime) } }

/-- The first session with this `token_id`. -/
def findSession (s : State) (tokenId : ℕ) : Option UserSession :=
  s.sessions.find? fun r => r.tokenId = some tokenId

/-- `update_user_session`, once it has looked for the session of the old token. -/
def storeSession (cfg : Settings) (s : State) (found : Option ℕ) (newRefreshToken : Token) :
    State :=
  match found with
  | some id =>
    { s with sessions := s.sessions.update (fun r => r.id = id) (fun r =>
        { r with tokenId := newRefreshToken.jti, refreshTokenHash := some newRefreshToken
                 expiresAt := some (s.clock + cfg.refreshLifetime) }) fun _ => rfl }
  | none => createUserSession cfg s newRefreshToken.sub newRefreshToken newRefreshToken.jti

/-- `update_user_session`. -/
def updateUserSession (cfg : Settings) (s : State) (oldTokenJti : ℕ) (newRefreshToken : Token) :
    State :=
  storeSession cfg s ((findSession s oldTokenJti).map UserSession.id) newRefreshToken

/-- The session's row, switched off. -/
def revoked (s : State) (session : UserSession) : State :=
  { s with sessions := s.sessions.set { session with isActive := false, isRevoked := true } }

/-- The active session that a refresh token belongs to by its `jti`. -/
def activeSession (cfg : Settings) (s : State) (token : Token) : Option UserSession :=
  if Decodes cfg s token ∧ token.type = .refresh then
    token.jti.bind fun jti => s.sessions.find? fun r => r.tokenId = some jti ∧ r.isActive = true
  else none

/-- `validate_session` with `is_refresh`. -/
def validateSession (cfg : Settings) (s : State) (token : Token) :
    Except Exc (Option UserSession) × State :=
  match activeSession cfg s token with
  | none => (.ok none, s)
  | some session =>
    if session.isRevoked = true then (.ok none, s)
    else if session.expiresAt.isSome ∧ cfg.sessionsNaive = true then
      -- a time without a zone is not compared with `now`
      (.error .typeError, s)
    else if ∃ e ∈ session.expiresAt, e < s.clock then (.ok none, revoked s session)
    else if ∃ h ∈ session.refreshTokenHash, h ≠ token then (.ok none, s)
    else (.ok (some session), s)

/-- `revoke_session`. -/
def revokeSession (cfg : Settings) (s : State) (token : Token) : State :=
  if Decodes cfg s token then
    match (token.jti.or token.sid).bind (findSession s) with
    | none => s
    | some session => { revoked s session with cache := s.cache.erase token }
  else s

/-- `revoke_all_user_sessions`. -/
def revokeAllUserSessions (s : State) (userId : ℕ) : State :=
  { s with
    users := s.users.update (fun u => u.id = userId)
      (fun u => { u with lastGlobalLogoutAt := some s.clock }) fun _ => rfl
    sessions := s.sessions.update (fun r => r.userId = userId ∧ r.isActive = true)
      (fun r => { r with isActive := false }) fun _ => rfl
    cache := s.cache.deleteWhere fun c => c.validated.userId = userId }

/-- `blacklist_token`. -/
def blacklistToken (cfg : Settings) (s : State) (token : Token) : State :=
  if Decodes cfg s token ∧ s.blacklist.get? token = none then
    let expiresAt := if token.exp = 0 then s.clock else token.exp * second + cfg.localOffset
    { s with blacklist := s.blacklist.put ⟨token, expiresAt⟩ }
  else s

/-- `cleanup_expired_tokens`. -/
def cleanupExpiredTokens (s : State) : State :=
  { s with blacklist := s.blacklist.deleteWhere fun b => b.expiresAt < s.clock }

/-! ## The user of a token -/

/-- `_auth_unauthorized`. -/
def authUnauthorized (detail : String) : Exc := .http 401 detail

/-- The refusal of a user who is not active. -/
def insufficientPermissions : Exc := .http 403 "insufficient_permissions"

/-- What is kept of a decoded payload. -/
def validatedOf (token : Token) : ValidatedToken := ⟨token.sub, token.sid, some token.iat⟩

/-- `_validate_local_access_token`. -/
def validateLocalAccessToken (cfg : Settings) (s : State) (token : Token) :
    Except Exc ValidatedToken :=
  if ¬ Signed cfg s token then .error (authUnauthorized "token_invalid")
  else if token.exp < seconds s.clock then .error (authUnauthorized "token_expired")
  else if s.blacklist.get? token ≠ none then .error (authUnauthorized "token_invalid")
  else if ∃ sid ∈ token.sid, ¬ ∃ r ∈ findSession s sid, r.isActive = true then
    .error (authUnauthorized "token_invalid")
  else .ok (validatedOf token)

/-- `_prune_auth_cache`. -/
def pruneAuthCache (s : State) : State :=
  { s with cache := s.cache.deleteWhere fun c => c.expiresAt ≤ s.clock }

/-- `_get_validated_token`, and the cache as it leaves it. -/
def getValidatedToken (cfg : Settings) (s : State) (token : Token) :
    Option ValidatedToken × State :=
  if cfg.authTokenCacheTtl ≤ 0 then (none, s)
  else
    -- what is left has not expired
    (((pruneAuthCache s).cache.get? token).map CachedToken.validated, pruneAuthCache s)

/-- `_store_validated_token`. -/
def storeValidatedToken (cfg : Settings) (s : State) (token : Token) (validated : ValidatedToken) :
    State :=
  if cfg.authTokenCacheTtl ≤ 0 then s
  else
    let entry := ⟨token, s.clock + cfg.authTokenCacheTtl * second, validated⟩
    { s with cache := (pruneAuthCache s).cache.put entry }

/-- What `get_user_from_token` asks of the user. -/
def checkUser (naive : Bool) (user : Account) (validated : ValidatedToken) : Except Exc Unit :=
  if user.isDeleted then .error insufficientPermissions
  else if user.isActive = false then .error insufficientPermissions
  else
    match user.lastGlobalLogoutAt, validated.issuedAt with
    | some logoutAt, some iat =>
      if iat = 0 then .ok ()
      else if naive = false then .error .typeError
      else if iat * second < logoutAt then .error (authUnauthorized "token_invalid")
      else .ok ()
    | _, _ => .ok ()

/-- The user the token names, once it is admitted. -/
def userOf (cfg : Settings) (s : State) (validated : ValidatedToken) : Except Exc Account :=
  match s.users.get? validated.userId with
  | none => .error (authUnauthorized "token_invalid")
  | some user => do
    checkUser cfg.usersNaive user validated
    return user

/-- `get_user_from_token`, up to the roles of the user. -/
def getUserFromToken (cfg : Settings) (s : State) (token : Token) : Except Exc Account × State :=
  match getValidatedToken cfg s token with
  | (some validated, s') => (userOf cfg s' validated, s')
  | (none, s') =>
    match validateLocalAccessToken cfg s' token with
    | .error e => (.error e, s')
    | .ok validated => (userOf cfg s' validated, storeValidatedToken cfg s' token validated)

/-! ## The endpoints -/

/-- A login with a password that is right for the user, or for no one. -/
def passwordLogin (unknown inactive : Exc) (cfg : Settings) (s : State) (credential : Option ℕ) :
    Except Exc Pair × State :=
  match credential.bind s.users.get? with
  | none => (.error unknown, s)
  | some user =>
    if user.isActive = false then (.error inactive, s)
    else
      let (pair, s') := sign s user.id true none
      (.ok pair, createUserSession cfg s' user.id (pair.refresh cfg) (some pair.jti))

/-- `_process_login`. -/
def processLogin : Settings → State → Option ℕ → Except Exc Pair × State :=
  passwordLogin (.http 400 "Incorrect email or password") (.http 400 "Inactive user")

/-- `login`, with a password. -/
def login : Settings → State → Option ℕ → Except Exc Pair × State :=
  passwordLogin (.http 401 "Invalid credentials") (.http 403 "Account is inactive")

/-- The row a sign-up adds. -/
def newUser (id : ℕ) : Account := ⟨id, true, false, none⟩

/-- The user a sign-in is for, added when there is none. -/
def findOrCreateUser (s : State) (found : Option ℕ) : ℕ × State :=
  match found.bind s.users.get? with
  | some user => (user.id, s)
  | none => (s.users.freshKey, { s with users := s.users.add newUser fun _ => rfl })

/-- An OTP that is verified makes the user active. -/
def activate (s : State) (userId : ℕ) : State :=
  { s with
    users := s.users.update (fun u => u.id = userId) (fun u => { u with isActive := true })
      fun _ => rfl }

/-- The code is right, and the target is that of the user or new. -/
def verifyRegistrationOtp (cfg : Settings) (s : State) (target : Option ℕ) : Pair × State :=
  let (userId, s₁) := findOrCreateUser s target
  let (pair, s₂) := sign (activate s₁ userId) userId true none
  (pair, createUserSession cfg s₂ userId (pair.refresh cfg) (some pair.jti))

/-- The provider's token is right, and its identity is that of the user or new. -/
def socialLogin (cfg : Settings) (s : State) (identity : Option ℕ) : Pair × State :=
  let (userId, s₁) := findOrCreateUser s identity
  let (pair, s₂) := sign s₁ userId false none
  (pair, createUserSession cfg s₂ userId (pair.refresh cfg) none)

/-- `register_with_password`, for a new user. -/
def registerWithPassword (s : State) : Pair × State :=
  let (userId, s₁) := findOrCreateUser s none
  sign s₁ userId false none

/-- `refresh_token`. -/
def refreshToken (cfg : Settings) (s : State) (token : Token) : Except Exc Pair × State :=
  match validateSession cfg s token with
  | (.ok (some _), s') =>
    match s'.users.get? token.sub with
    | none => (.error (authUnauthorized "token_invalid"), s')
    | some user =>
      let login := (token.jti.bind s'.pairs.get?).map Pair.login
      let (pair, s₁) := sign s' user.id true login
      match token.jti with
      | some oldJti => (.ok pair, updateUserSession cfg s₁ oldJti (pair.refresh cfg))
      | none =>
        (.ok pair, createUserSession cfg (revokeSession cfg s₁ token) user.id (pair.refresh cfg)
          (some pair.jti))
  | (_, s') => (.error (authUnauthorized "token_invalid"), s')

/-- A request that depends on `get_current_user`. -/
def withCurrentUser {α : Type} (cfg : Settings) (s : State) (token : Token)
    (request : Account → State → α × State) : Except Exc α × State :=
  match getUserFromToken cfg s token with
  | (.error e, s') => (.error e, s')
  | (.ok user, s') => (request user s').map .ok id

/-- `select_role`. -/
def selectRole (cfg : Settings) (s : State) (token : Token) : Except Exc Pair × State :=
  withCurrentUser cfg s token fun user s => sign s user.id true none

/-- `logout`, of the one session. -/
def logout (cfg : Settings) (s : State) (token : Token) : Except Exc Unit × State :=
  withCurrentUser cfg s token fun _ s =>
    ((), blacklistToken cfg (revokeSession cfg s token) token)

/-- `logout_all`, of all the user's sessions. -/
def logoutAll (cfg : Settings) (s : State) (token : Token) : Except Exc Unit × State :=
  withCurrentUser cfg s token fun user s => ((), revokeAllUserSessions s user.id)

/-! ## Runs -/

/-- A request, past the checks of who makes it where it carries no token. -/
inductive Request where
  | processLogin (credential : Option ℕ)
  | login (credential : Option ℕ)
  | verifyRegistrationOtp (target : Option ℕ)
  | socialLogin (identity : Option ℕ)
  | registerWithPassword
  | refreshToken (token : Token)
  | selectRole (token : Token)
  | logout (token : Token)
  | logoutAll (token : Token)
  | getUserFromToken (token : Token)
  | cleanupExpiredTokens

/-- The answer, with its pair of tokens if it has one, and the state after it. -/
def handle (cfg : Settings) (s : State) : Request → Except Exc (Option Pair) × State
  | .processLogin credential => (processLogin cfg s credential).map (Except.map some) id
  | .login credential => (login cfg s credential).map (Except.map some) id
  | .verifyRegistrationOtp target => (verifyRegistrationOtp cfg s target).map (.ok ∘ some) id
  | .socialLogin identity => (socialLogin cfg s identity).map (.ok ∘ some) id
  | .registerWithPassword => (registerWithPassword s).map (.ok ∘ some) id
  | .refreshToken token => (refreshToken cfg s token).map (Except.map some) id
  | .selectRole token => (selectRole cfg s token).map (Except.map some) id
  | .logout token => (logout cfg s token).map (Except.map fun _ => none) id
  | .logoutAll token => (logoutAll cfg s token).map (Except.map fun _ => none) id
  | .getUserFromToken token => (getUserFromToken cfg s token).map (Except.map fun _ => none) id
  | .cleanupExpiredTokens => (.ok none, cleanupExpiredTokens s)

/-- A request comes so many microseconds after the one before it. -/
structure Event where
  elapsed : ℕ
  request : Request

/-- Nobody has logged in yet. -/
def start (users : Table Account) (now : ℤ) : State :=
  ⟨users, .empty, .empty, .empty, .empty, now⟩

/-- The state at a later time. -/
def State.at (s : State) (now : ℤ) : State := { s with clock := now }

/-- The logins whose pairs have the token. -/
def loginsOf (cfg : Settings) (s : State) (token : Token) : List ℕ :=
  (s.pairs.filter fun p => p.Has cfg token).map Pair.login

variable {cfg : Settings} {s : State} {token : Token}

/-! ## Whose a token is -/

theorem seconds_le_iff {t : ℤ} {n : ℤ} : n ≤ seconds t ↔ n * second ≤ t :=
  Int.le_ediv_iff_mul_le (by decide)

theorem seconds_mono {t t' : ℤ} (h : t ≤ t') : seconds t ≤ seconds t' :=
  Int.ediv_le_ediv (by decide) h

@[simp] theorem Pair.access_sub (p : Pair) : (p.access cfg).sub = p.subject := rfl

@[simp] theorem Pair.access_iat (p : Pair) : (p.access cfg).iat = seconds p.issuedAt := rfl

@[simp] theorem Pair.access_jti (p : Pair) : (p.access cfg).jti = none := rfl

@[simp] theorem Pair.refresh_sub (p : Pair) : (p.refresh cfg).sub = p.subject := rfl

@[simp] theorem Pair.refresh_jti (p : Pair) : (p.refresh cfg).jti = some p.jti := rfl

variable {p : Pair}

theorem Pair.Has.sub (h : p.Has cfg token) : token.sub = p.subject := by
  rcases h with rfl | rfl <;> rfl

theorem Pair.Has.iat (h : p.Has cfg token) : token.iat = seconds p.issuedAt := by
  rcases h with rfl | rfl <;> rfl

variable {i : ℕ}

theorem Pair.Has.of_jti (h : p.Has cfg token) (hi : token.jti = some i) :
    token = p.refresh cfg ∧ p.jti = i := by
  rcases h with rfl | rfl
  · exact absurd hi nofun
  · exact ⟨rfl, Option.some.inj hi⟩

theorem Pair.Has.of_sid (h : p.Has cfg token) (hi : token.sid = some i) :
    token = p.access cfg ∧ p.hasSid = true ∧ p.jti = i := by
  rcases h with rfl | rfl
  · have hsid : (if p.hasSid then some p.jti else none) = some i := hi
    split at hsid
    · exact ⟨rfl, ‹_›, Option.some.inj hsid⟩
    · exact absurd hsid nofun
  · exact absurd hi nofun

theorem mem_loginsOf {l : ℕ} :
    l ∈ loginsOf cfg s token ↔ ∃ p ∈ s.pairs, p.Has cfg token ∧ p.login = l := by
  simp only [loginsOf, List.mem_map, Table.mem_filter, decide_eq_true_eq, and_assoc]

/-- The session is as it was when the pair was answered, but for its state. -/
structure UserSession.Of (cfg : Settings) (r : UserSession) (p : Pair) : Prop where
  userId : r.userId = p.subject
  tokenId : r.tokenId = some p.jti
  refreshTokenHash : r.refreshTokenHash = some (p.refresh cfg)
  expiresAt : r.expiresAt = some (p.issuedAt + cfg.refreshLifetime)

/-! ## What holds at all times -/

/-- The invariant of every run. -/
structure Consistent (cfg : Settings) (s : State) : Prop where
  epoch : second ≤ s.clock
  issued : ∀ p ∈ s.pairs, second ≤ p.issuedAt ∧ p.issuedAt ≤ s.clock ∧ p.login ≤ p.jti
  session : ∀ r ∈ s.sessions, ∃ p ∈ s.pairs, r.Of cfg p
  /-- A login has one session. -/
  one : ∀ r ∈ s.sessions, ∀ r' ∈ s.sessions, ∀ p ∈ s.pairs, ∀ p' ∈ s.pairs, r.Of cfg p →
    r'.Of cfg p' → p.login = p'.login → r = r'
  unrevoked : ∀ r ∈ s.sessions, r.isActive = true → r.isRevoked = false
  cached : ∀ c ∈ s.cache, Signed cfg s c.token ∧ c.validated = validatedOf c.token

theorem consistent_start {users : Table Account} {now : ℤ} (hnow : second ≤ now) :
    Consistent cfg (start users now) where
  epoch := hnow
  issued p hp := absurd hp (Table.not_mem_empty p)
  session r hr := absurd hr (Table.not_mem_empty r)
  one r hr := absurd hr (Table.not_mem_empty r)
  unrevoked r hr := absurd hr (Table.not_mem_empty r)
  cached c hc := absurd hc (Table.not_mem_empty c)

variable {r : UserSession}

namespace Consistent

theorem of_jti {p q : Pair} (hp : p ∈ s.pairs) (hq : q ∈ s.pairs)
    (hrp : r.Of cfg p) (hq' : r.tokenId = some q.jti) : p = q := by
  have hjti : p.jti = q.jti := Option.some.inj (hrp.tokenId.symm.trans hq')
  exact Table.eq_of_key hp hq hjti

theorem of_tokenId (h : Consistent cfg s) (hr : r ∈ s.sessions)
    (hp : p ∈ s.pairs) (hid : r.tokenId = some p.jti) : r.Of cfg p := by
  obtain ⟨q, hq, hrq⟩ := h.session r hr
  rw [← of_jti hq hp hrq hid]
  exact hrq

theorem eq_of_tokenId (h : Consistent cfg s) {r r' : UserSession} (hr : r ∈ s.sessions)
    (hr' : r' ∈ s.sessions) (hid : r.tokenId = r'.tokenId) : r = r' := by
  obtain ⟨p, hp, hrp⟩ := h.session r hr
  have hrp' : r'.Of cfg p := h.of_tokenId hr' hp (hid.symm.trans hrp.tokenId)
  exact h.one r hr r' hr' p hp p hp hrp hrp' rfl

theorem findSession_eq (h : Consistent cfg s) (hr : r ∈ s.sessions)
    (hid : r.tokenId = some i) : findSession s i = some r := by
  cases hfind : findSession s i with
  | none =>
    have hno := Table.find?_eq_none.mp hfind r hr
    simp [hid] at hno
  | some r' =>
    have hr' := Table.find?_prop hfind
    rw [decide_eq_true_eq] at hr'
    exact congrArg some (h.eq_of_tokenId (Table.find?_mem hfind) hr (hr'.trans hid.symm))

end Consistent

theorem findSession_eq_some (h : findSession s i = some r) :
    r ∈ s.sessions ∧ r.tokenId = some i := by
  exact Table.find?_spec h

/-! ### The clock -/

protected theorem Consistent.at (h : Consistent cfg s) {now : ℤ} (hnow : s.clock ≤ now) :
    Consistent cfg (s.at now) where
  epoch := by
    have hepoch := h.epoch
    show second ≤ now
    omega
  issued p hp := by
    obtain ⟨hfirst, hlast, hlogin⟩ := h.issued p hp
    have hlater : p.issuedAt ≤ now := by omega
    exact ⟨hfirst, hlater, hlogin⟩
  session := h.session
  one := h.one
  unrevoked := h.unrevoked
  cached := h.cached

/-! ### Sessions -/

/-- The rows are those of the table, and may have been deactivated. -/
def Weakened (t t' : Table UserSession) : Prop :=
  ∀ r' ∈ t', ∃ r ∈ t, r' = { r with isActive := r'.isActive, isRevoked := r'.isRevoked } ∧
    (r'.isActive = true → r' = r)

theorem Weakened.refl (t : Table UserSession) : Weakened t t :=
  fun r hr => ⟨r, hr, rfl, fun _ => rfl⟩

variable {t : Table UserSession}

theorem weakened_set (hr : r ∈ t) :
    Weakened t (t.set { r with isActive := false, isRevoked := true }) := by
  intro x hx
  rcases Table.mem_set.mp hx with ⟨hx, -⟩ | ⟨rfl, -⟩
  · exact ⟨x, hx, rfl, fun _ => rfl⟩
  · exact ⟨r, hr, rfl, nofun⟩

theorem weakened_update {p : UserSession → Bool} :
    Weakened t (t.update p (fun r => { r with isActive := false }) fun _ => rfl) := by
  intro x hx
  obtain ⟨r, hr, rfl⟩ := Table.mem_update.mp hx
  split
  · exact ⟨r, hr, rfl, nofun⟩
  · exact ⟨r, hr, rfl, fun _ => rfl⟩

theorem UserSession.Of.of_weakened {r r' : UserSession}
    (h : r' = { r with isActive := r'.isActive, isRevoked := r'.isRevoked }) :
    r'.Of cfg p ↔ r.Of cfg p := by
  rw [h]
  exact ⟨fun ⟨h₁, h₂, h₃, h₄⟩ => ⟨h₁, h₂, h₃, h₄⟩, fun ⟨h₁, h₂, h₃, h₄⟩ => ⟨h₁, h₂, h₃, h₄⟩⟩

protected theorem Consistent.weakened (h : Consistent cfg s) {t : Table UserSession}
    (ht : Weakened s.sessions t) : Consistent cfg { s with sessions := t } where
  epoch := h.epoch
  issued := h.issued
  session r' hr' := by
    obtain ⟨r, hr, heq, -⟩ := ht r' hr'
    obtain ⟨p, hp, hrp⟩ := h.session r hr
    exact ⟨p, hp, (UserSession.Of.of_weakened heq).mpr hrp⟩
  one r₁ h₁ r₂ h₂ p hp q hq hrp hrq hlogin := by
    obtain ⟨r, hr, heq, -⟩ := ht r₁ h₁
    obtain ⟨r', hr', heq', -⟩ := ht r₂ h₂
    have hrr : r = r' := h.one r hr r' hr' p hp q hq ((UserSession.Of.of_weakened heq).mp hrp)
      ((UserSession.Of.of_weakened heq').mp hrq) hlogin
    have hid : r₁.id = r₂.id := by rw [heq, heq', hrr]
    exact Table.eq_of_key h₁ h₂ hid
  unrevoked r' hr' hactive := by
    obtain ⟨r, hr, -, heq⟩ := ht r' hr'
    obtain rfl := heq hactive
    exact h.unrevoked r' hr hactive
  cached := h.cached

protected theorem Consistent.revoked (h : Consistent cfg s) {r : UserSession}
    (hr : r ∈ s.sessions) : Consistent cfg (revoked s r) := h.weakened (weakened_set hr)

/-! ### The cache -/

protected theorem Consistent.cache (h : Consistent cfg s) {t : Table CachedToken}
    (ht : ∀ c ∈ t, c ∈ s.cache ∨ Signed cfg s c.token ∧ c.validated = validatedOf c.token) :
    Consistent cfg { s with cache := t } where
  epoch := h.epoch
  issued := h.issued
  session := h.session
  one := h.one
  unrevoked := h.unrevoked
  cached c hc := (ht c hc).elim (h.cached c) id

/-! ### New pairs -/

/-- The pair that is signed next. -/
def nextPair (s : State) (subject : ℕ) (hasSid : Bool) (login : Option ℕ) : Pair :=
  (sign s subject hasSid login).1

section Sign

variable {subject : ℕ} {hasSid : Bool} {l : Option ℕ}

theorem mem_pairs_sign :
    p ∈ (sign s subject hasSid l).2.pairs ↔ p ∈ s.pairs ∨ p = nextPair s subject hasSid l :=
  Table.mem_add_mk (fun _ => rfl)

@[simp] theorem sign_users : (sign s subject hasSid l).2.users = s.users := rfl

@[simp] theorem sign_sessions : (sign s subject hasSid l).2.sessions = s.sessions := rfl

@[simp] theorem sign_blacklist : (sign s subject hasSid l).2.blacklist = s.blacklist := rfl

@[simp] theorem sign_cache : (sign s subject hasSid l).2.cache = s.cache := rfl

@[simp] theorem sign_clock : (sign s subject hasSid l).2.clock = s.clock := rfl

theorem jti_lt_nextPair (hp : p ∈ s.pairs) :
    p.jti < (nextPair s subject hasSid l).jti := Table.key_lt_freshKey hp

protected theorem Signed.sign (h : Signed cfg s token) :
    Signed cfg (sign s subject hasSid l).2 token := by
  obtain ⟨p, hp, hhas⟩ := h
  exact ⟨p, mem_pairs_sign.mpr (.inl hp), hhas⟩

theorem Consistent.mem_of_session (h : Consistent cfg s) (hr : r ∈ s.sessions)
    (hp : p ∈ (sign s subject hasSid l).2.pairs) (hrp : r.Of cfg p) : p ∈ s.pairs := by
  obtain ⟨q, hq, hrq⟩ := h.session r hr
  have hpq : p = q := of_jti hp (mem_pairs_sign.mpr (.inl hq)) hrp hrq.tokenId
  rw [hpq]
  exact hq

protected theorem Consistent.sign (h : Consistent cfg s)
    (hl : ∀ i ∈ l, ∃ p ∈ s.pairs, p.login = i) :
    Consistent cfg (sign s subject hasSid l).2 where
  epoch := h.epoch
  issued p hp := by
    rcases mem_pairs_sign.mp hp with hp | rfl
    · exact h.issued p hp
    · refine ⟨h.epoch, Int.le_refl s.clock, ?_⟩
      cases l with
      | none => exact Nat.le_refl _
      | some i =>
        obtain ⟨q, hq, rfl⟩ := hl i rfl
        obtain ⟨-, -, hlogin⟩ := h.issued q hq
        have hlt : q.jti < (nextPair s subject hasSid (some q.login)).jti := jti_lt_nextPair hq
        show q.login ≤ (nextPair s subject hasSid (some q.login)).jti
        omega
  session r hr := by
    obtain ⟨p, hp, hrp⟩ := h.session r hr
    exact ⟨p, mem_pairs_sign.mpr (.inl hp), hrp⟩
  one r hr r' hr' p hp p' hp' hrp hrp' :=
    h.one r hr r' hr' p (h.mem_of_session hr hp hrp) p' (h.mem_of_session hr' hp' hrp') hrp hrp'
  unrevoked := h.unrevoked
  cached c hc := by
    obtain ⟨hsigned, hvalidated⟩ := h.cached c hc
    exact ⟨hsigned.sign, hvalidated⟩

protected theorem Consistent.signNew (h : Consistent cfg s) :
    Consistent cfg (sign s subject hasSid none).2 := h.sign fun _ hi => absurd hi (by simp)

end Sign

/-- The session row of a pair. -/
def sessionOf (cfg : Settings) (p : Pair) (id : ℕ) : UserSession :=
  ⟨id, p.subject, some p.jti, some (p.refresh cfg), true, false,
    some (p.issuedAt + cfg.refreshLifetime)⟩

theorem sessionOf_of (p : Pair) (id : ℕ) : (sessionOf cfg p id).Of cfg p := ⟨rfl, rfl, rfl, rfl⟩

/-- A login with its session. -/
def opened (cfg : Settings) (s : State) (subject : ℕ) (hasSid : Bool) : State :=
  { (sign s subject hasSid none).2 with
    sessions := s.sessions.add (sessionOf cfg (nextPair s subject hasSid none)) fun _ => rfl }

/-- The session goes on with a new pair. -/
def rotated (cfg : Settings) (s : State) (r : UserSession) (subject login : ℕ) : State :=
  storeSession cfg (sign s subject true (some login)).2 (some r.id)
    ((nextPair s subject true (some login)).refresh cfg)

protected theorem Consistent.opened (h : Consistent cfg s) {subject : ℕ} {hasSid : Bool} :
    Consistent cfg (opened cfg s subject hasSid) where
  epoch := h.epoch
  issued := (h.signNew).issued
  session r hr := by
    rcases (Table.mem_add_mk fun _ => rfl).mp hr with hr | rfl
    · exact (h.signNew).session r hr
    · exact ⟨_, mem_pairs_sign.mpr (.inr rfl), sessionOf_of _ _⟩
  one r hr r' hr' p hp p' hp' hrp hrp' hlogin := by
    have hnew : ∀ {p p' : Pair}, p ∈ s.pairs → p' ∈ (sign s subject hasSid none).2.pairs →
        (nextPair s subject hasSid none).jti = p'.jti → p.login ≠ p'.login := by
      intro p p' hp hp' hjti
      have hp'' : p' = nextPair s subject hasSid none :=
        Table.eq_of_key hp' (mem_pairs_sign.mpr (.inr rfl)) hjti.symm
      obtain ⟨-, -, hle⟩ := h.issued p hp
      have hlt : p.jti < (nextPair s subject hasSid none).jti := jti_lt_nextPair hp
      have hlogin : (nextPair s subject hasSid none).login = (nextPair s subject hasSid none).jti :=
        rfl
      rw [hp'']
      omega
    rcases (Table.mem_add_mk fun _ => rfl).mp hr with hr | rfl <;>
      rcases (Table.mem_add_mk fun _ => rfl).mp hr' with hr' | rfl
    · exact (h.signNew).one r hr r' hr' p hp p' hp' hrp hrp' hlogin
    · exact absurd hlogin (hnew (h.mem_of_session hr hp hrp) hp' (Option.some.inj hrp'.tokenId))
    · exact absurd hlogin.symm
        (hnew (h.mem_of_session hr' hp' hrp') hp (Option.some.inj hrp.tokenId))
    · rfl
  unrevoked r hr hactive := by
    rcases (Table.mem_add_mk fun _ => rfl).mp hr with hr | rfl
    · exact h.unrevoked r hr hactive
    · rfl
  cached := (h.signNew).cached

theorem mem_sessions_rotated {r x : UserSession} {subject login : ℕ} (hr : r ∈ s.sessions)
    (hsubject : r.userId = subject) :
    x ∈ (rotated cfg s r subject login).sessions ↔ x ∈ s.sessions ∧ x.id ≠ r.id ∨
      x = { sessionOf cfg (nextPair s subject true (some login)) r.id with
        isActive := r.isActive, isRevoked := r.isRevoked } := by
  have hnew : { r with
      tokenId := some (nextPair s subject true (some login)).jti
      refreshTokenHash := some ((nextPair s subject true (some login)).refresh cfg)
      expiresAt := some (s.clock + cfg.refreshLifetime) } =
      { sessionOf cfg (nextPair s subject true (some login)) r.id with
        isActive := r.isActive, isRevoked := r.isRevoked } := by
    rw [← hsubject]
    rfl
  rw [← hnew, rotated, storeSession, Table.mem_update]
  constructor
  · rintro ⟨y, hy, rfl⟩
    by_cases hid : y.id = r.id
    · have hyr : y = r := Table.eq_of_key hy hr hid
      subst hyr
      exact .inr (by simp)
    · rw [if_neg (by simpa using hid)]
      exact .inl ⟨hy, hid⟩
  · rintro (⟨hx, hid⟩ | rfl)
    · exact ⟨x, hx, by simp [hid]⟩
    · exact ⟨r, hr, by simp⟩

protected theorem Consistent.rotated (h : Consistent cfg s) {r : UserSession}
    (hr : r ∈ s.sessions) {q : Pair} (hq : q ∈ s.pairs) (hrq : r.Of cfg q) :
    Consistent cfg (rotated cfg s r q.subject q.login) := by
  have hsigned : Consistent cfg (sign s q.subject true (some q.login)).2 :=
    h.sign fun i hi => ⟨q, hq, Option.some.inj hi⟩
  have hof : UserSession.Of cfg { sessionOf cfg (nextPair s q.subject true (some q.login)) r.id with
      isActive := r.isActive, isRevoked := r.isRevoked }
      (nextPair s q.subject true (some q.login)) := ⟨rfl, rfl, rfl, rfl⟩
  -- the session of another pair of the login would have been this one
  have hother : ∀ {x p p'}, x ∈ s.sessions → x.id ≠ r.id →
      p ∈ (sign s q.subject true (some q.login)).2.pairs → x.Of cfg p →
      p' ∈ (sign s q.subject true (some q.login)).2.pairs →
      (nextPair s q.subject true (some q.login)).jti = p'.jti → p.login ≠ p'.login := by
    intro x p p' hx hid hp hxp hp' hjti hlogin
    have hp'' : p' = nextPair s q.subject true (some q.login) :=
      Table.eq_of_key hp' (mem_pairs_sign.mpr (.inr rfl)) hjti.symm
    have hpq : p.login = q.login := by
      rw [hlogin, hp'']
      rfl
    exact hid (congrArg UserSession.id
      (h.one x hx r hr p (h.mem_of_session hx hp hxp) q hq hxp hrq hpq))
  refine ⟨h.epoch, hsigned.issued, ?_, ?_, ?_, hsigned.cached⟩
  · intro x hx
    rcases (mem_sessions_rotated hr hrq.userId).mp hx with ⟨hx, -⟩ | rfl
    · exact hsigned.session x hx
    · exact ⟨_, mem_pairs_sign.mpr (.inr rfl), hof⟩
  · intro x hx x' hx' p hp p' hp' hxp hxp' hlogin
    rcases (mem_sessions_rotated hr hrq.userId).mp hx with ⟨hx, hid⟩ | rfl <;>
      rcases (mem_sessions_rotated hr hrq.userId).mp hx' with ⟨hx', hid'⟩ | rfl
    · exact hsigned.one x hx x' hx' p hp p' hp' hxp hxp' hlogin
    · exact absurd hlogin (hother hx hid hp hxp hp' (Option.some.inj hxp'.tokenId))
    · exact absurd hlogin.symm (hother hx' hid' hp' hxp' hp (Option.some.inj hxp.tokenId))
    · rfl
  · intro x hx hactive
    rcases (mem_sessions_rotated hr hrq.userId).mp hx with ⟨hx, -⟩ | rfl
    · exact h.unrevoked x hx hactive
    · exact h.unrevoked r hr hactive

/-! ## What the functions do -/

/-- What a session that an access token names must be. -/
def SessionActive (s : State) (token : Token) : Prop :=
  ∀ sid ∈ token.sid, ∃ r ∈ findSession s sid, r.isActive = true

variable {v : ValidatedToken}

theorem validateLocalAccessToken_ok :
    validateLocalAccessToken cfg s token = .ok v ↔
      Decodes cfg s token ∧ s.blacklist.get? token = none ∧ SessionActive s token ∧
        v = validatedOf token := by
  rw [validateLocalAccessToken, Decodes]
  by_cases hsigned : Signed cfg s token
  · rw [if_neg (not_not.mpr hsigned)]
    split_ifs with hexpired hblacklist hsession
    · refine ⟨fun h => absurd h (by simp), fun h => ?_⟩
      have hle := h.1.2
      omega
    · exact ⟨fun h => absurd h (by simp), fun h => absurd h.2.1 hblacklist⟩
    · refine ⟨fun h => absurd h (by simp), fun h => ?_⟩
      obtain ⟨sid, hsid, hno⟩ := hsession
      exact absurd (h.2.2.1 sid hsid) hno
    · have hle : seconds s.clock ≤ token.exp := by omega
      have hactive : SessionActive s token := fun sid hsid =>
        not_not.mp fun hno => hsession ⟨sid, hsid, hno⟩
      refine ⟨fun h => ?_, fun h => ?_⟩
      · exact ⟨⟨hsigned, hle⟩, not_not.mp hblacklist, hactive, (Except.ok.inj h).symm⟩
      · rw [h.2.2.2]
  · rw [if_pos hsigned]
    exact ⟨fun h => absurd h (by simp), fun h => absurd h.1.1 hsigned⟩

/-- The token is in the cache, and its entry has not expired. -/
def Cached (s : State) (token : Token) : Prop :=
  ∃ c ∈ s.cache, c.token = token ∧ s.clock < c.expiresAt

theorem getValidatedToken_spec (cfg : Settings) (s : State) (token : Token) :
    (∀ v ∈ (getValidatedToken cfg s token).1, ∃ c ∈ s.cache, c.token = token ∧
      s.clock < c.expiresAt ∧ v = c.validated) ∧
    ∃ t, (getValidatedToken cfg s token).2 = { s with cache := t } ∧ ∀ c ∈ t, c ∈ s.cache := by
  unfold getValidatedToken
  split_ifs with hoff
  · exact ⟨fun v hv => absurd hv (by simp), s.cache, rfl, fun c hc => hc⟩
  · refine ⟨fun v hv => ?_, _, rfl, fun c hc => (Table.mem_deleteWhere.mp hc).1⟩
    obtain ⟨c, hc, rfl⟩ := Option.map_eq_some_iff.mp hv
    obtain ⟨hmem, hkey⟩ := Table.get?_eq_some.mp hc
    obtain ⟨hmem, hlive⟩ := Table.mem_deleteWhere.mp hmem
    exact ⟨c, hmem, hkey, by simpa using hlive, rfl⟩

theorem storeValidatedToken_spec (cfg : Settings) (s : State) (token : Token) (v : ValidatedToken) :
    ∃ t, storeValidatedToken cfg s token v = { s with cache := t } ∧
      ∀ c ∈ t, c ∈ s.cache ∨ c.token = token ∧ c.validated = v := by
  unfold storeValidatedToken
  split_ifs with hoff
  · exact ⟨s.cache, rfl, fun c hc => .inl hc⟩
  · refine ⟨_, rfl, fun c hc => ?_⟩
    rcases Table.mem_put.mp hc with rfl | ⟨hc, -⟩
    · exact .inr ⟨rfl, rfl⟩
    · exact .inl (Table.mem_deleteWhere.mp hc).1

theorem getValidatedToken_cases (h : Consistent cfg s) (token : Token) :
    ∃ t, (∀ c ∈ t, c ∈ s.cache) ∧
      (getValidatedToken cfg s token = (some (validatedOf token), { s with cache := t }) ∧
          Cached s token ∨
        getValidatedToken cfg s token = (none, { s with cache := t })) := by
  obtain ⟨hfound, t, hstate, hsub⟩ := getValidatedToken_spec cfg s token
  refine ⟨t, hsub, ?_⟩
  cases hget : (getValidatedToken cfg s token).1 with
  | none => exact .inr (Prod.ext hget hstate)
  | some v =>
    obtain ⟨c, hc, htoken, hlive, rfl⟩ := hfound v hget
    have hv : c.validated = validatedOf token := htoken ▸ (h.cached c hc).2
    exact .inl ⟨Prod.ext (hget.trans (congrArg some hv)) hstate, c, hc, htoken, hlive⟩

theorem getUserFromToken_spec (h : Consistent cfg s) (token : Token) :
    (∀ user, (getUserFromToken cfg s token).1 = .ok user →
      (Cached s token ∨ validateLocalAccessToken cfg s token = .ok (validatedOf token)) ∧
        userOf cfg s (validatedOf token) = .ok user) ∧
    ∃ t, (getUserFromToken cfg s token).2 = { s with cache := t } ∧ ∀ c ∈ t, c ∈ s.cache ∨
      c.token = token ∧ validateLocalAccessToken cfg s token = .ok c.validated := by
  obtain ⟨t, hsub, ⟨hget, hcached⟩ | hget⟩ := getValidatedToken_cases h token
  · simp only [getUserFromToken, hget]
    exact ⟨fun user huser => ⟨.inl hcached, huser⟩, t, rfl, fun c hc => .inl (hsub c hc)⟩
  · have hsame : validateLocalAccessToken cfg { s with cache := t } token =
        validateLocalAccessToken cfg s token := rfl
    simp only [getUserFromToken, hget, hsame]
    cases hvalid : validateLocalAccessToken cfg s token with
    | error e =>
      exact ⟨fun user huser => absurd huser (by simp), t, rfl, fun c hc => .inl (hsub c hc)⟩
    | ok v =>
      obtain ⟨-, -, -, rfl⟩ := validateLocalAccessToken_ok.mp hvalid
      obtain ⟨t', hstate', hsub'⟩ :=
        storeValidatedToken_spec cfg { s with cache := t } token (validatedOf token)
      refine ⟨fun user huser => ⟨.inr rfl, huser⟩, t', hstate', fun c hc => ?_⟩
      rcases hsub' c hc with hc | ⟨htoken, hv⟩
      · exact .inl (hsub c hc)
      · exact .inr ⟨htoken, by rw [hv]⟩

variable {user : Account}

theorem userOf_ok (h : userOf cfg s v = .ok user) :
    user ∈ s.users ∧ user.id = v.userId := by
  cases hget : s.users.get? v.userId with
  | none =>
    simp [userOf, hget] at h
  | some u =>
    simp only [userOf, hget] at h
    cases hcheck : checkUser cfg.usersNaive u v with
    | error e =>
      simp [hcheck] at h
    | ok _ =>
      rw [hcheck] at h
      obtain rfl := Except.ok.inj h
      exact Table.get?_eq_some.mp hget

/-- A token that passes every check is accepted, from the cache or not. -/
theorem getUserFromToken_of_valid (h : Consistent cfg s)
    (hvalid : validateLocalAccessToken cfg s token = .ok (validatedOf token))
    (huser : userOf cfg s (validatedOf token) = .ok user) :
    (getUserFromToken cfg s token).1 = .ok user := by
  obtain ⟨t, -, ⟨hget, -⟩ | hget⟩ := getValidatedToken_cases h token
  · simp only [getUserFromToken, hget]
    exact huser
  · have hsame : validateLocalAccessToken cfg { s with cache := t } token =
        validateLocalAccessToken cfg s token := rfl
    simp only [getUserFromToken, hget, hsame, hvalid]
    exact huser

theorem activeSession_eq_some (h : Consistent cfg s) :
    activeSession cfg s token = some r ↔ r ∈ s.sessions ∧ r.isActive = true ∧
      ∃ q ∈ s.pairs, r.Of cfg q ∧ token = q.refresh cfg ∧ seconds s.clock ≤ token.exp := by
  unfold activeSession
  constructor
  · intro hr
    split_ifs at hr with hdecodes
    obtain ⟨⟨⟨q, hq, hhas⟩, hexp⟩, -⟩ := hdecodes
    obtain ⟨i, hi, hfind⟩ := Option.bind_eq_some_iff.mp hr
    obtain ⟨hrefresh, rfl⟩ := hhas.of_jti hi
    have hprop := Table.find?_prop hfind
    simp only [Bool.decide_and, Bool.and_eq_true, decide_eq_true_eq, Bool.decide_eq_true] at hprop
    have hmem : r ∈ s.sessions := Table.find?_mem hfind
    exact ⟨hmem, hprop.2, q, hq, h.of_tokenId hmem hq hprop.1, hrefresh, hexp⟩
  · rintro ⟨hr, hactive, q, hq, hrq, rfl, hexp⟩
    rw [if_pos ⟨⟨⟨q, hq, .inr rfl⟩, hexp⟩, rfl⟩, Pair.refresh_jti, Option.bind_some]
    cases hfind : s.sessions.find? fun r => r.tokenId = some q.jti ∧ r.isActive = true with
    | none =>
      have hno := Table.find?_eq_none.mp hfind r hr
      simp [hrq.tokenId, hactive] at hno
    | some r' =>
      have hprop := Table.find?_prop hfind
      simp only [Bool.decide_and, Bool.and_eq_true, decide_eq_true_eq] at hprop
      exact congrArg some (h.eq_of_tokenId (Table.find?_mem hfind) hr
        (hprop.1.trans hrq.tokenId.symm))

theorem validateSession_of_none (hnone : activeSession cfg s token = none) :
    validateSession cfg s token = (.ok none, s) := by rw [validateSession, hnone]

theorem validateSession_of_some (h : Consistent cfg s) (hr : activeSession cfg s token = some r) :
    validateSession cfg s token =
      if cfg.sessionsNaive = true then (.error .typeError, s)
      else if ∃ e ∈ r.expiresAt, e < s.clock then (.ok none, revoked s r)
      else (.ok (some r), s) := by
  obtain ⟨hmem, hactive, q, -, hrq, rfl, -⟩ := (activeSession_eq_some h).mp hr
  have hrevoked := h.unrevoked r hmem hactive
  simp [validateSession, hr, hrevoked, hrq.expiresAt, hrq.refreshTokenHash]

theorem refreshToken_cases (h : Consistent cfg s) (token : Token) :
    (∃ e s', refreshToken cfg s token = (.error e, s') ∧ (s' = s ∨ ∃ r,
      activeSession cfg s token = some r ∧ (∃ e ∈ r.expiresAt, e < s.clock) ∧ s' = revoked s r)) ∨
    cfg.sessionsNaive = false ∧ ∃ r ∈ s.sessions, r.isActive = true ∧ ∃ q ∈ s.pairs, r.Of cfg q ∧
      token = q.refresh cfg ∧
      refreshToken cfg s token = (.ok (nextPair s q.subject true (some q.login)),
        rotated cfg s r q.subject q.login) := by
  cases hr : activeSession cfg s token with
  | none =>
    rw [refreshToken, validateSession_of_none hr]
    exact .inl ⟨_, s, rfl, .inl rfl⟩
  | some r =>
    rw [refreshToken, validateSession_of_some h hr]
    split_ifs with hnaive hexpired
    · exact .inl ⟨_, s, rfl, .inl rfl⟩
    · exact .inl ⟨_, _, rfl, .inr ⟨r, rfl, hexpired, rfl⟩⟩
    · obtain ⟨hmem, hactive, q, hq, hrq, rfl, -⟩ := (activeSession_eq_some h).mp hr
      cases huser : s.users.get? (q.refresh cfg).sub with
      | none => exact .inl ⟨authUnauthorized "token_invalid", s, by simp only [huser], .inl rfl⟩
      | some user =>
        refine .inr ⟨by simpa using hnaive, r, hmem, hactive, q, hq, hrq, rfl, ?_⟩
        have hid : user.id = q.subject := (Table.get?_eq_some.mp huser).2
        have hpair : s.pairs.get? q.jti = some q := Table.get?_of_mem hq
        have hfind : findSession (sign s q.subject true (some q.login)).2 q.jti = some r :=
          h.findSession_eq hmem hrq.tokenId
        simp only [huser, hid, Pair.refresh_jti, Option.bind_some, hpair, Option.map_some,
          updateUserSession, hfind]
        rfl

theorem refreshToken_of_valid (h : Consistent cfg s) (haware : cfg.sessionsNaive = false)
    (hr : r ∈ s.sessions) (hactive : r.isActive = true) {q : Pair}
    (hq : q ∈ s.pairs) (hrq : r.Of cfg q) (hnow : s.clock ≤ q.issuedAt + cfg.refreshLifetime)
    (huser : user ∈ s.users) (hid : user.id = q.subject) :
    ∃ pair, (refreshToken cfg s (q.refresh cfg)).1 = .ok pair := by
  have hsession : activeSession cfg s (q.refresh cfg) = some r :=
    (activeSession_eq_some h).mpr ⟨hr, hactive, q, hq, hrq, rfl, seconds_mono hnow⟩
  have hleft : ¬ ∃ e ∈ r.expiresAt, e < s.clock := by
    rintro ⟨e, he, hlt⟩
    have heq : q.issuedAt + cfg.refreshLifetime = e := Option.some.inj (hrq.expiresAt.symm.trans he)
    omega
  have hget : s.users.get? (q.refresh cfg).sub = some user := by
    rw [Pair.refresh_sub, ← hid]
    exact Table.get?_of_mem huser
  rw [refreshToken, validateSession_of_some h hsession, haware, if_neg (by simp), if_neg hleft]
  simp only [hget, Pair.refresh_jti]
  exact ⟨_, rfl⟩

theorem passwordLogin_cases (unknown inactive : Exc) (cfg : Settings) (s : State)
    (credential : Option ℕ) :
    (∃ e, passwordLogin unknown inactive cfg s credential = (.error e, s)) ∨
    ∃ user ∈ credential.bind s.users.get?, user.isActive = true ∧
      passwordLogin unknown inactive cfg s credential =
        (.ok (nextPair s user.id true none), opened cfg s user.id true) := by
  unfold passwordLogin
  cases huser : credential.bind s.users.get? with
  | none => exact .inl ⟨_, rfl⟩
  | some user =>
    by_cases hactive : user.isActive = true
    · refine .inr ⟨user, rfl, hactive, ?_⟩
      simp only [hactive, Bool.true_eq_false, if_false]
      rfl
    · exact .inl ⟨inactive, by simp [hactive]⟩

theorem findOrCreateUser_spec (s : State) (found : Option ℕ) :
    (∃ user ∈ found.bind s.users.get?, findOrCreateUser s found = (user.id, s)) ∨
    found.bind s.users.get? = none ∧ findOrCreateUser s found =
      (s.users.freshKey, { s with users := s.users.add newUser fun _ => rfl }) := by
  unfold findOrCreateUser
  cases huser : found.bind s.users.get? with
  | none => exact .inr ⟨rfl, rfl⟩
  | some user => exact .inl ⟨user, rfl, rfl⟩

theorem mem_of_found {found : Option ℕ} (h : user ∈ found.bind s.users.get?) : user ∈ s.users := by
  obtain ⟨i, -, hget⟩ := Option.bind_eq_some_iff.mp h
  exact (Table.get?_eq_some.mp hget).1

section CurrentUser

variable {α : Type} {request : Account → State → α × State}

theorem withCurrentUser_error {e : Exc} (h : (getUserFromToken cfg s token).1 = .error e) :
    withCurrentUser cfg s token request = (.error e, (getUserFromToken cfg s token).2) := by
  unfold withCurrentUser
  split <;> rename_i heq <;> rw [heq] at h ⊢
  · rw [Except.error.inj h]
  · exact absurd h nofun

theorem withCurrentUser_ok (h : (getUserFromToken cfg s token).1 = .ok user) :
    withCurrentUser cfg s token request =
      (request user (getUserFromToken cfg s token).2).map .ok id := by
  unfold withCurrentUser
  split <;> rename_i heq <;> rw [heq] at h ⊢
  · exact absurd h nofun
  · rw [Except.ok.inj h]

/-- What holds after the user is found, and is kept by the rest of the request. -/
theorem withCurrentUser_keeps {I : State → Prop} (hI : I (getUserFromToken cfg s token).2)
    (hrequest : ∀ user s', I s' → I (request user s').2) :
    I (withCurrentUser cfg s token request).2 := by
  cases h : (getUserFromToken cfg s token).1 with
  | error e =>
    rw [withCurrentUser_error h]
    exact hI
  | ok user =>
    rw [withCurrentUser_ok h]
    exact hrequest user _ hI

end CurrentUser

theorem revokeSession_spec (cfg : Settings) (s : State) (token : Token) :
    ∃ t c, revokeSession cfg s token = { s with sessions := t, cache := c } ∧
      Weakened s.sessions t ∧ ∀ x ∈ c, x ∈ s.cache := by
  have hsame : ∃ t c, s = { s with sessions := t, cache := c } ∧
      Weakened s.sessions t ∧ ∀ x ∈ c, x ∈ s.cache :=
    ⟨s.sessions, s.cache, rfl, .refl _, fun _ hx => hx⟩
  unfold revokeSession
  split_ifs with hdecodes
  · cases hfind : (token.jti.or token.sid).bind (findSession s) with
    | none => exact hsame
    | some r =>
      obtain ⟨i, -, hr⟩ := Option.bind_eq_some_iff.mp hfind
      exact ⟨_, s.cache.erase token, rfl, weakened_set (findSession_eq_some hr).1, fun x hx =>
        (Table.mem_erase.mp hx).1⟩
  · exact hsame

theorem blacklistToken_spec (cfg : Settings) (s : State) (token : Token) :
    ∃ b, blacklistToken cfg s token = { s with blacklist := b } ∧
      ∀ x ∈ b, x ∈ s.blacklist ∨ x.token = token ∧ Signed cfg s token := by
  unfold blacklistToken
  split
  · rename_i hnew
    refine ⟨_, rfl, fun x hx => ?_⟩
    rcases Table.mem_put.mp hx with rfl | ⟨hx, -⟩
    · exact .inr ⟨rfl, hnew.1.1⟩
    · exact .inl hx
  · exact ⟨s.blacklist, rfl, fun _ hx => .inl hx⟩

/-! ### Consistency is kept -/

protected theorem Consistent.users (h : Consistent cfg s) (t : Table Account) :
    Consistent cfg { s with users := t } :=
  ⟨h.epoch, h.issued, h.session, h.one, h.unrevoked, h.cached⟩

protected theorem Consistent.blacklist (h : Consistent cfg s) (t : Table BlacklistedToken) :
    Consistent cfg { s with blacklist := t } :=
  ⟨h.epoch, h.issued, h.session, h.one, h.unrevoked, h.cached⟩

theorem Consistent.findOrCreateUser (h : Consistent cfg s) (found : Option ℕ) :
    Consistent cfg (Tokens.findOrCreateUser s found).2 := by
  rcases findOrCreateUser_spec s found with ⟨user, -, heq⟩ | ⟨-, heq⟩
  · rw [heq]
    exact h
  · rw [heq]
    exact h.users _

theorem Consistent.getUserFromToken (h : Consistent cfg s) (token : Token) :
    Consistent cfg (Tokens.getUserFromToken cfg s token).2 := by
  obtain ⟨-, t, hstate, hsub⟩ := getUserFromToken_spec h token
  rw [hstate]
  refine h.cache fun c hc => (hsub c hc).imp_right fun ⟨htoken, hvalid⟩ => ?_
  obtain ⟨⟨hsigned, -⟩, -, -, hv⟩ := validateLocalAccessToken_ok.mp hvalid
  exact htoken ▸ ⟨hsigned, hv⟩

theorem Consistent.passwordLogin (h : Consistent cfg s) (unknown inactive : Exc)
    (credential : Option ℕ) :
    Consistent cfg (Tokens.passwordLogin unknown inactive cfg s credential).2 := by
  rcases passwordLogin_cases unknown inactive cfg s credential with ⟨e, heq⟩ | ⟨user, -, -, heq⟩
  · rw [heq]
    exact h
  · rw [heq]
    exact h.opened

theorem Consistent.refreshToken (h : Consistent cfg s) (token : Token) :
    Consistent cfg (Tokens.refreshToken cfg s token).2 := by
  rcases refreshToken_cases h token with ⟨e, s', heq, rfl | ⟨r, hr, -, rfl⟩⟩ |
    ⟨-, r, hr, -, q, hq, hrq, -, heq⟩
  · rw [heq]
    exact h
  · rw [heq]
    exact h.revoked ((activeSession_eq_some h).mp hr).1
  · rw [heq]
    exact h.rotated hr hq hrq

theorem Consistent.revokeSession (h : Consistent cfg s) (token : Token) :
    Consistent cfg (Tokens.revokeSession cfg s token) := by
  obtain ⟨t, c, heq, ht, hc⟩ := revokeSession_spec cfg s token
  rw [heq]
  exact (h.weakened ht).cache fun x hx => .inl (hc x hx)

theorem Consistent.revokeAllUserSessions (h : Consistent cfg s) (userId : ℕ) :
    Consistent cfg (Tokens.revokeAllUserSessions s userId) :=
  ((h.weakened weakened_update).cache fun _ hc => .inl (Table.mem_deleteWhere.mp hc).1).users _

theorem Consistent.handle (h : Consistent cfg s) (request : Request) :
    Consistent cfg (Tokens.handle cfg s request).2 := by
  cases request with
  | processLogin credential => exact h.passwordLogin _ _ credential
  | login credential => exact h.passwordLogin _ _ credential
  | verifyRegistrationOtp target => exact ((h.findOrCreateUser target).users _).opened
  | socialLogin identity => exact (h.findOrCreateUser identity).opened
  | registerWithPassword => exact (h.findOrCreateUser none).signNew
  | refreshToken token => exact h.refreshToken token
  | selectRole token =>
    exact withCurrentUser_keeps (h.getUserFromToken token) fun _ _ hs => hs.signNew
  | logout token =>
    show Consistent cfg (Tokens.logout cfg s token).2
    unfold Tokens.logout
    refine withCurrentUser_keeps (h.getUserFromToken token) fun _ s' hs => ?_
    obtain ⟨b, hb, -⟩ := blacklistToken_spec cfg (Tokens.revokeSession cfg s' token) token
    exact hb ▸ (hs.revokeSession token).blacklist b
  | logoutAll token =>
    show Consistent cfg (Tokens.logoutAll cfg s token).2
    unfold Tokens.logoutAll
    exact withCurrentUser_keeps (h.getUserFromToken token) fun user _ hs =>
      hs.revokeAllUserSessions user.id
  | getUserFromToken token => exact h.getUserFromToken token
  | cleanupExpiredTokens => exact h.blacklist _

end WezuBackend.Auth.Tokens
