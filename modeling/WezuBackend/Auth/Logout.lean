import WezuBackend.Auth.Tokens

/-!
# Logging out

What a logout with an access token ends is spread over the session row, the blacklist and the cache
of validated tokens, and it reaches the other tokens of the login by the session alone.  A run of
requests is watched: which logins have been logged out, and when each user was logged out
everywhere.  An orderly logout is final (`logout_takes_effect`).  After a logout from everywhere
nothing older is accepted in any case (`Closed.since_user`, `Closed.since_refresh`).
-/

namespace WezuBackend.Auth.Logout

open Lib.Tables Lib.Runs Core.Base Auth.Tokens

/-! ## Watched runs -/

/-- A request, or a part of a call of `get_user_from_token` that others may come between: it has not
found the token in the cache and checks it; later it caches the token and goes on. -/
inductive Action where
  | request (request : Request)
  | check (token : Token)
  | store (token : Token)

/-- An action comes so many microseconds after the one before it. -/
structure Turn where
  elapsed : ℕ
  action : Action

structure Watch where
  state : State
  /-- the tokens that were checked and not yet cached -/
  pending : List Token
  /-- the logins that were logged out -/
  loggedOut : List ℕ
  /-- the users that were logged out everywhere, and when -/
  everywhere : List (ℕ × ℤ)

def bearerToken : Request → Option Token
  | .selectRole token | .logout token | .logoutAll token | .getUserFromToken token => some token
  | _ => none

def presentedToken : Request → Option Token
  | .refreshToken token => some token
  | request => bearerToken request

/-- The logins that an answered request logs out. -/
def loggedOutBy (cfg : Settings) (s : State) : Request → List ℕ
  | .logout token => if token.type = .access then loginsOf cfg s token else []
  | _ => []

/-- The user that an answered request logs out everywhere. -/
def everywhereBy (s : State) : Request → List (ℕ × ℤ)
  | .logoutAll token => [(token.sub, s.clock)]
  | _ => []

/-- The state in which an action begins. -/
def Watch.arrival (w : Watch) (t : Turn) : State := w.state.at (w.state.clock + t.elapsed)

def watch (cfg : Settings) (w : Watch) (t : Turn) : Watch :=
  let s := w.arrival t
  match t.action with
  | .request request =>
    let answer := handle cfg s request
    { state := answer.2
      pending := w.pending
      loggedOut := (if answer.1.isOk then loggedOutBy cfg s request else []) ++ w.loggedOut
      everywhere := (if answer.1.isOk then everywhereBy s request else []) ++ w.everywhere }
  | .check token =>
    let found := getValidatedToken cfg s token
    { w with
      state := found.2
      pending :=
        if found.1 = none ∧ (validateLocalAccessToken cfg s token).isOk then token :: w.pending
        else w.pending }
  | .store token =>
    if token ∈ w.pending then
      { w with
        state := storeValidatedToken cfg s token (validatedOf token)
        pending := w.pending.erase token }
    else { w with state := s }

def Watch.start (users : Table Account) (now : ℤ) : Watch := ⟨Tokens.start users now, [], [], []⟩

def accepted (cfg : Settings) (w : Watch) (t : Turn) : Option Token :=
  match t.action with
  | .request request =>
    if (handle cfg (w.arrival t) request).1.isOk then presentedToken request else none
  | .check _ => none
  | .store token =>
    if token ∈ w.pending ∧ (userOf cfg (w.arrival t) (validatedOf token)).isOk then some token
    else none

/-- What is accepted was not issued for a login that was logged out, and not in a second before its
user was logged out everywhere. -/
def Refused (cfg : Settings) (w : Watch) (t : Turn) : Prop :=
  ∀ token ∈ accepted cfg w t, (∀ l ∈ loginsOf cfg w.state token, l ∉ w.loggedOut) ∧
    ∀ x ∈ w.everywhere, x.1 = token.sub → seconds x.2 ≤ token.iat

/-- A logout with the token reaches all tokens of its login: its session is there, and no other
token of the login is in the cache or an access token without a session. -/
def Thorough (cfg : Settings) (s : State) (token : Token) : Prop :=
  Decodes cfg s token ∧ (∃ sid ∈ token.sid, findSession s sid ≠ none) ∧
    ∀ p ∈ s.pairs, p.login ∈ loginsOf cfg s token →
      (∀ t ∈ [p.access cfg, p.refresh cfg], t ≠ token → ¬ Cached s t) ∧
      (p.hasSid = false → ¬ Decodes cfg s (p.access cfg))

def checkedToken : Action → Option Token
  | .request request => bearerToken request
  | .check token => some token
  | .store _ => none

def logoutToken : Action → Option Token
  | .request (.logout token) => some token
  | _ => none

/-- No refresh token of a login that was logged out is checked as bearer while it would decode. -/
def KeepsRefreshTokens (cfg : Settings) (w : Watch) (t : Turn) : Prop :=
  ∀ token ∈ checkedToken t.action, token.type = .refresh → Decodes cfg (w.arrival t) token →
    w.state.blacklist.get? token = none → ∀ l ∈ loginsOf cfg w.state token, l ∉ w.loggedOut

/-- A logout with an access token is thorough, and no token of its login is about to be cached. -/
def LogsOut (cfg : Settings) (w : Watch) (t : Turn) : Prop :=
  ∀ token ∈ logoutToken t.action, token.type = .access →
    (handle cfg (w.arrival t) (.logout token)).1.isOk → Thorough cfg (w.arrival t) token ∧
      ∀ t ∈ w.pending, ∀ l ∈ loginsOf cfg w.state t, l ∉ loginsOf cfg w.state token

def Orderly (cfg : Settings) (w : Watch) (t : Turn) : Prop :=
  KeepsRefreshTokens cfg w t ∧ LogsOut cfg w t

instance (s : State) (token : Token) : Decidable (Cached s token) := by
  unfold Cached
  infer_instance

instance (cfg : Settings) (s : State) (token : Token) : Decidable (Thorough cfg s token) := by
  unfold Thorough
  infer_instance

instance (cfg : Settings) (w : Watch) (t : Turn) : Decidable (KeepsRefreshTokens cfg w t) :=
  decidable_of_iff (∀ token ∈ checkedToken t.action, token.type ≠ .refresh ∨
    ¬ Decodes cfg (w.arrival t) token ∨ w.state.blacklist.get? token ≠ none ∨
      ∀ l ∈ loginsOf cfg w.state token, l ∉ w.loggedOut) (by
        simp only [KeepsRefreshTokens, imp_iff_not_or, ne_eq])

instance (cfg : Settings) (w : Watch) (t : Turn) : Decidable (LogsOut cfg w t) := by
  unfold LogsOut
  infer_instance

instance (cfg : Settings) (w : Watch) (t : Turn) : Decidable (Orderly cfg w t) :=
  inferInstanceAs (Decidable (_ ∧ _))

instance (cfg : Settings) (w : Watch) (t : Turn) : Decidable (Refused cfg w t) := by
  unfold Refused
  infer_instance

variable {cfg : Settings} {s : State} {token : Token} {P : List Token} {L : List ℕ}
  {E : List (ℕ × ℤ)}

/-- The logins `L` are logged out, and the users in `E` were logged out everywhere; the tokens `P`
have been checked, and are about to be cached. -/
structure Closed (cfg : Settings) (P : List Token) (L : List ℕ) (E : List (ℕ × ℤ)) (s : State) :
    Prop where
  consistent : Consistent cfg s
  known : ∀ l ∈ L, ∃ p ∈ s.pairs, p.login = l
  inactive : ∀ r ∈ s.sessions, ∀ p ∈ s.pairs, r.Of cfg p → p.login ∈ L → r.isActive = false
  uncached : ∀ p ∈ s.pairs, p.login ∈ L → ∀ t, p.Has cfg t → ¬ Cached s t
  pending : ∀ t ∈ P, Signed cfg s t ∧ ∀ p ∈ s.pairs, p.login ∈ L → ¬ p.Has cfg t
  expired : ∀ p ∈ s.pairs, p.login ∈ L → p.hasSid = false →
    (p.access cfg).exp < seconds s.clock
  past : ∀ x ∈ E, x.2 ≤ s.clock
  recorded : ∀ x ∈ E, ∃ u ∈ s.users, u.id = x.1 ∧ ∃ t ∈ u.lastGlobalLogoutAt, x.2 ≤ t
  renewed : ∀ x ∈ E, ∀ r ∈ s.sessions, ∀ p ∈ s.pairs, r.Of cfg p → r.isActive = true →
    p.subject = x.1 → seconds x.2 ≤ seconds p.issuedAt

variable {now : ℤ} {v : ValidatedToken}

namespace Closed

/-! ### What is accepted -/

/-- Of a login that was logged out, only the refresh token passes the checks of a bearer. -/
theorem refresh_of_valid (h : Closed cfg P L E s)
    (hvalid : validateLocalAccessToken cfg s token = .ok v) {l : ℕ}
    (hl : l ∈ loginsOf cfg s token) (hL : l ∈ L) :
    token.type = .refresh ∧ Decodes cfg s token ∧ s.blacklist.get? token = none := by
  obtain ⟨p, hp, hhas, rfl⟩ := mem_loginsOf.mp hl
  obtain ⟨hdecodes, hblacklist, hactive, -⟩ := validateLocalAccessToken_ok.mp hvalid
  refine ⟨?_, hdecodes, hblacklist⟩
  rcases hhas with rfl | rfl
  · -- an access token has a session, which is inactive, or has expired
    exfalso
    by_cases hsid : p.hasSid = true
    · have hid : (p.access cfg).sid = some p.jti := if_pos hsid
      obtain ⟨r, hr, hract⟩ := hactive p.jti hid
      obtain ⟨hr, hrid⟩ := findSession_eq_some hr
      have hinactive := h.inactive r hr p hp (h.consistent.of_tokenId hr hp hrid) hL
      rw [hinactive] at hract
      exact absurd hract (by decide)
    · have hexpired := h.expired p hp hL (by simpa using hsid)
      have hexp := hdecodes.2
      omega
  · rfl

variable {user : Account}

theorem refresh_of_accepted (h : Closed cfg P L E s)
    (hok : (getUserFromToken cfg s token).1 = .ok user) {l : ℕ} (hl : l ∈ loginsOf cfg s token)
    (hL : l ∈ L) :
    token.type = .refresh ∧ Decodes cfg s token ∧ s.blacklist.get? token = none := by
  obtain ⟨hvalid, -⟩ := (getUserFromToken_spec h.consistent token).1 user hok
  rcases hvalid with hcached | hvalid
  · obtain ⟨p, hp, hhas, rfl⟩ := mem_loginsOf.mp hl
    exact absurd hcached (h.uncached p hp hL token hhas)
  · exact h.refresh_of_valid hvalid hl hL

variable {pair : Pair}

/-- None of its refresh tokens is accepted by the refresh endpoint. -/
theorem refreshToken (h : Closed cfg P L E s)
    (hok : (Tokens.refreshToken cfg s token).1 = .ok pair) {l : ℕ}
    (hl : l ∈ loginsOf cfg s token) : l ∉ L := by
  intro hL
  obtain ⟨p, hp, hhas, rfl⟩ := mem_loginsOf.mp hl
  rcases refreshToken_cases h.consistent token with ⟨e, s', heq, -⟩ |
    ⟨-, r, hr, hactive, q, hq, hrq, rfl, -⟩
  · rw [heq] at hok
    exact absurd hok nofun
  · have hjti : q.jti = p.jti := ((hhas.of_jti (Pair.refresh_jti q)).2).symm
    have hqp : q = p := Table.eq_of_key hq hp hjti
    have hinactive := h.inactive r hr q hq hrq (hqp ▸ hL)
    rw [hinactive] at hactive
    exact absurd hactive (by decide)

variable {x : ℕ × ℤ}

/-- A signed token whose user passes was issued in no second before the user was logged out
everywhere. -/
theorem since_user (h : Closed cfg P L E s) (hsigned : Signed cfg s token)
    (huser : userOf cfg s (validatedOf token) = .ok user) (hx : x ∈ E)
    (hsub : x.1 = token.sub) : seconds x.2 ≤ token.iat := by
  obtain ⟨p, hp, hhas⟩ := hsigned
  have hiat : 1 ≤ token.iat := by
    rw [hhas.iat, seconds_le_iff, one_mul]
    exact (h.consistent.issued p hp).1
  obtain ⟨u, hu, hid, t, ht, hle⟩ := h.recorded x hx
  have hget : s.users.get? token.sub = some u := by
    rw [← hsub, ← hid]
    exact Table.get?_of_mem hu
  have ht : u.lastGlobalLogoutAt = some t := ht
  -- the check of the user compares the two times
  have hlast : t ≤ token.iat * second := by
    simp only [userOf, validatedOf, hget, checkUser, ht] at huser
    split_ifs at huser with hdeleted hactive hzero hnaive hlt
    · simp at huser
    · simp at huser
    · omega
    · simp at huser
    · simp at huser
    · omega
  have hx2 : x.2 ≤ token.iat * second := by omega
  exact Int.ediv_le_of_le_mul (by decide) hx2

theorem since_bearer (h : Closed cfg P L E s)
    (hok : (getUserFromToken cfg s token).1 = .ok user) (hx : x ∈ E)
    (hsub : x.1 = token.sub) : seconds x.2 ≤ token.iat := by
  obtain ⟨hvalid, huser⟩ := (getUserFromToken_spec h.consistent token).1 user hok
  have hsigned : Signed cfg s token := by
    rcases hvalid with ⟨c, hc, rfl, -⟩ | hvalid
    · exact (h.consistent.cached c hc).1
    · exact (validateLocalAccessToken_ok.mp hvalid).1.1
  exact h.since_user hsigned huser hx hsub

theorem since_refresh (h : Closed cfg P L E s)
    (hok : (Tokens.refreshToken cfg s token).1 = .ok pair) (hx : x ∈ E)
    (hsub : x.1 = token.sub) : seconds x.2 ≤ token.iat := by
  rcases refreshToken_cases h.consistent token with ⟨e, s', heq, -⟩ |
    ⟨-, r, hr, hactive, q, hq, hrq, rfl, -⟩
  · rw [heq] at hok
    exact absurd hok nofun
  · exact h.renewed x hx r hr q hq hrq hactive hsub.symm

/-! ### What keeps them closed -/

theorem later (h : Closed cfg P L E s) (hnow : s.clock ≤ now) :
    Closed cfg P L E (s.at now) where
  consistent := h.consistent.at hnow
  known := h.known
  inactive := h.inactive
  uncached p hp hL t hhas := by
    rintro ⟨c, hc, htoken, hlive⟩
    have hlive' : now < c.expiresAt := hlive
    have hbefore : s.clock < c.expiresAt := by omega
    exact h.uncached p hp hL t hhas ⟨c, hc, htoken, hbefore⟩
  pending := h.pending
  expired p hp hL hsid := by
    have hexp := h.expired p hp hL hsid
    have hlater : seconds s.clock ≤ seconds now := seconds_mono hnow
    show (p.access cfg).exp < seconds now
    omega
  past x hx := by
    have hle := h.past x hx
    show x.2 ≤ now
    omega
  recorded := h.recorded
  renewed := h.renewed

protected theorem users (h : Closed cfg P L E s) {t : Table Account}
    (ht : ∀ u ∈ s.users, ∃ u' ∈ t, u'.id = u.id ∧ ∀ x ∈ u.lastGlobalLogoutAt,
      ∃ y ∈ u'.lastGlobalLogoutAt, x ≤ y ∨ s.clock ≤ y) :
    Closed cfg P L E { s with users := t } where
  consistent := h.consistent.users t
  known := h.known
  inactive := h.inactive
  uncached := h.uncached
  pending := h.pending
  expired := h.expired
  past := h.past
  recorded x hx := by
    obtain ⟨u, hu, hid, z, hz, hle⟩ := h.recorded x hx
    obtain ⟨u', hu', hid', hall⟩ := ht u hu
    obtain ⟨y, hy, hzy⟩ := hall z hz
    have hpast := h.past x hx
    exact ⟨u', hu', hid'.trans hid, y, hy, by omega⟩
  renewed := h.renewed

/-- The users stay as they are, but for new ones and what is not looked at. -/
theorem users_of_kept (h : Closed cfg P L E s) {t : Table Account}
    (ht : ∀ u ∈ s.users, ∃ u' ∈ t, u'.id = u.id ∧ u'.lastGlobalLogoutAt = u.lastGlobalLogoutAt) :
    Closed cfg P L E { s with users := t } :=
  h.users fun u hu => by
    obtain ⟨u', hu', hid, hsame⟩ := ht u hu
    exact ⟨u', hu', hid, fun x hx => ⟨x, hsame ▸ hx, .inl (Int.le_refl x)⟩⟩

protected theorem blacklist (h : Closed cfg P L E s) (t : Table BlacklistedToken) :
    Closed cfg P L E { s with blacklist := t } :=
  ⟨h.consistent.blacklist t, h.known, h.inactive, h.uncached, h.pending, h.expired, h.past,
    h.recorded, h.renewed⟩

protected theorem weakened (h : Closed cfg P L E s) {t : Table UserSession}
    (ht : Weakened s.sessions t) : Closed cfg P L E { s with sessions := t } where
  consistent := h.consistent.weakened ht
  known := h.known
  inactive r' hr' p hp hrp hL := by
    obtain ⟨r, hr, hsame, heq⟩ := ht r' hr'
    by_contra hactive
    have hrr : r' = r := heq (by simpa using hactive)
    exact hactive (hrr ▸ h.inactive r hr p hp (hrr ▸ hrp) hL)
  uncached := h.uncached
  pending := h.pending
  expired := h.expired
  past := h.past
  recorded := h.recorded
  renewed x hx r' hr' p hp hrp hactive hsub := by
    obtain ⟨r, hr, hsame, heq⟩ := ht r' hr'
    obtain rfl := heq hactive
    exact h.renewed x hx r' hr p hp hrp hactive hsub

protected theorem cache (h : Closed cfg P L E s) {t : Table CachedToken}
    (ht : ∀ c ∈ t, c ∈ s.cache ∨ (Signed cfg s c.token ∧ c.validated = validatedOf c.token) ∧
      ∀ l ∈ loginsOf cfg s c.token, l ∉ L) : Closed cfg P L E { s with cache := t } where
  consistent := h.consistent.cache fun c hc => (ht c hc).imp_right And.left
  known := h.known
  inactive := h.inactive
  uncached p hp hL token hhas := by
    rintro ⟨c, hc, rfl, hlive⟩
    rcases ht c hc with hc | ⟨-, hno⟩
    · exact h.uncached p hp hL c.token hhas ⟨c, hc, rfl, hlive⟩
    · exact hno p.login (mem_loginsOf.mpr ⟨p, hp, hhas, rfl⟩) hL
  pending := h.pending
  expired := h.expired
  past := h.past
  recorded := h.recorded
  renewed := h.renewed

section Sign

variable {subject : ℕ} {hasSid : Bool} {l : Option ℕ}

protected theorem sign (h : Closed cfg P L E s) (hl : ∀ i ∈ l, ∃ p ∈ s.pairs, p.login = i)
    (hnew : (nextPair s subject hasSid l).login ∉ L) :
    Closed cfg P L E (sign s subject hasSid l).2 where
  consistent := h.consistent.sign hl
  known i hi := by
    obtain ⟨p, hp, hlogin⟩ := h.known i hi
    exact ⟨p, mem_pairs_sign.mpr (.inl hp), hlogin⟩
  inactive r hr p hp hrp := h.inactive r hr p (h.consistent.mem_of_session hr hp hrp) hrp
  uncached p hp hL := by
    rcases mem_pairs_sign.mp hp with hp | rfl
    · exact h.uncached p hp hL
    · exact absurd hL hnew
  pending t ht := by
    obtain ⟨hsigned, hno⟩ := h.pending t ht
    refine ⟨hsigned.sign, fun p hp hL => ?_⟩
    rcases mem_pairs_sign.mp hp with hp | rfl
    · exact hno p hp hL
    · exact absurd hL hnew
  expired p hp hL := by
    rcases mem_pairs_sign.mp hp with hp | rfl
    · exact h.expired p hp hL
    · exact absurd hL hnew
  past := h.past
  recorded := h.recorded
  renewed x hx r hr p hp hrp := h.renewed x hx r hr p (h.consistent.mem_of_session hr hp hrp) hrp

theorem new_login (h : Closed cfg P L E s) : (nextPair s subject hasSid none).login ∉ L := by
  intro hL
  obtain ⟨p, hp, hlogin⟩ := h.known _ hL
  obtain ⟨-, -, hle⟩ := h.consistent.issued p hp
  have hlt : p.jti < (nextPair s subject hasSid none).jti := jti_lt_nextPair hp
  have hown : (nextPair s subject hasSid none).login = (nextPair s subject hasSid none).jti := rfl
  omega

theorem signNew (h : Closed cfg P L E s) : Closed cfg P L E (Tokens.sign s subject hasSid none).2 :=
  h.sign (fun _ hi => absurd hi (by simp)) h.new_login

theorem of_newSession (h : Closed cfg P L E s) (hnew : (nextPair s subject hasSid l).login ∉ L)
    {r : UserSession} {p : Pair} (hp : p ∈ (Tokens.sign s subject hasSid l).2.pairs)
    (hrp : r.Of cfg p) (hr : r.tokenId = some (nextPair s subject hasSid l).jti) :
    p.login ∉ L ∧ ∀ x ∈ E, seconds x.2 ≤ seconds p.issuedAt := by
  have hpnew : p = nextPair s subject hasSid l :=
    Consistent.of_jti hp (mem_pairs_sign.mpr (.inr rfl)) hrp hr
  rw [hpnew]
  exact ⟨hnew, fun x hx => seconds_mono (h.past x hx)⟩

end Sign

protected theorem opened (h : Closed cfg P L E s) {subject : ℕ} {hasSid : Bool} :
    Closed cfg P L E (opened cfg s subject hasSid) where
  consistent := h.consistent.opened
  known := h.signNew.known
  inactive r hr p hp hrp hL := by
    rcases (Table.mem_add_mk fun _ => rfl).mp hr with hr | rfl
    · exact h.signNew.inactive r hr p hp hrp hL
    · exact absurd hL (h.of_newSession h.new_login hp hrp rfl).1
  uncached := h.signNew.uncached
  pending := h.signNew.pending
  expired := h.signNew.expired
  past := h.past
  recorded := h.recorded
  renewed x hx r hr p hp hrp hactive hsub := by
    rcases (Table.mem_add_mk fun _ => rfl).mp hr with hr | rfl
    · exact h.signNew.renewed x hx r hr p hp hrp hactive hsub
    · exact (h.of_newSession h.new_login hp hrp rfl).2 x hx

protected theorem rotated (h : Closed cfg P L E s) {r : UserSession} (hr : r ∈ s.sessions)
    (hactive : r.isActive = true) {q : Pair} (hq : q ∈ s.pairs) (hrq : r.Of cfg q) :
    Closed cfg P L E (rotated cfg s r q.subject q.login) := by
  have hnew : (nextPair s q.subject true (some q.login)).login ∉ L := by
    intro hL
    have hinactive := h.inactive r hr q hq hrq hL
    rw [hinactive] at hactive
    exact absurd hactive (by decide)
  have hsigned := h.sign (fun i hi => ⟨q, hq, Option.some.inj hi⟩) hnew
  refine ⟨h.consistent.rotated hr hq hrq, hsigned.known, ?_, hsigned.uncached, hsigned.pending,
    hsigned.expired, h.past, h.recorded, ?_⟩
  · intro x hx p hp hxp hL
    rcases (mem_sessions_rotated hr hrq.userId).mp hx with ⟨hx, -⟩ | rfl
    · exact hsigned.inactive x hx p hp hxp hL
    · exact absurd hL (h.of_newSession hnew hp hxp rfl).1
  · intro y hy x hx p hp hxp hxactive hsub
    rcases (mem_sessions_rotated hr hrq.userId).mp hx with ⟨hx, -⟩ | rfl
    · exact hsigned.renewed y hy x hx p hp hxp hxactive hsub
    · exact (h.of_newSession hnew hp hxp rfl).2 y hy

/-! ### The requests -/

theorem findOrCreateUser (h : Closed cfg P L E s) (found : Option ℕ) :
    Closed cfg P L E (Tokens.findOrCreateUser s found).2 := by
  rcases findOrCreateUser_spec s found with ⟨user, -, heq⟩ | ⟨-, heq⟩
  · rw [heq]
    exact h
  · rw [heq]
    exact h.users_of_kept fun u hu => ⟨u, (Table.mem_add_mk fun _ => rfl).mpr (.inl hu), rfl, rfl⟩

theorem activate (h : Closed cfg P L E s) (userId : ℕ) :
    Closed cfg P L E (Tokens.activate s userId) :=
  h.users_of_kept fun u hu => by
    refine ⟨_, Table.mem_update.mpr ⟨u, hu, rfl⟩, ?_⟩
    split <;> exact ⟨rfl, rfl⟩

theorem passwordLogin (h : Closed cfg P L E s) (unknown inactive : Exc) (credential : Option ℕ) :
    Closed cfg P L E (Tokens.passwordLogin unknown inactive cfg s credential).2 := by
  rcases passwordLogin_cases unknown inactive cfg s credential with ⟨e, heq⟩ | ⟨user, -, -, heq⟩
  · rw [heq]
    exact h
  · rw [heq]
    exact h.opened

theorem afterRefresh (h : Closed cfg P L E s) (token : Token) :
    Closed cfg P L E (Tokens.refreshToken cfg s token).2 := by
  rcases refreshToken_cases h.consistent token with ⟨e, s', heq, rfl | ⟨r, hr, -, rfl⟩⟩ |
    ⟨-, r, hr, hactive, q, hq, hrq, -, heq⟩
  · rw [heq]
    exact h
  · rw [heq]
    exact h.weakened (weakened_set ((activeSession_eq_some h.consistent).mp hr).1)
  · rw [heq]
    exact h.rotated hr hactive hq hrq

theorem afterBearer (h : Closed cfg P L E s)
    (horderly : token.type = .refresh → Decodes cfg s token → s.blacklist.get? token = none →
      ∀ l ∈ loginsOf cfg s token, l ∉ L) :
    Closed cfg P L E (getUserFromToken cfg s token).2 := by
  obtain ⟨-, t, hstate, hsub⟩ := getUserFromToken_spec h.consistent token
  rw [hstate]
  refine h.cache fun c hc => (hsub c hc).imp_right ?_
  rintro ⟨rfl, hvalid⟩
  obtain ⟨⟨hsigned, -⟩, -, -, hv⟩ := validateLocalAccessToken_ok.mp hvalid
  refine ⟨⟨hsigned, hv⟩, fun l hl hL => ?_⟩
  obtain ⟨htype, hdecodes, hblacklist⟩ := h.refresh_of_valid hvalid hl hL
  exact horderly htype hdecodes hblacklist l hl hL

theorem revokeSession (h : Closed cfg P L E s) (token : Token) :
    Closed cfg P L E (Tokens.revokeSession cfg s token) := by
  obtain ⟨t, c, heq, ht, hc⟩ := revokeSession_spec cfg s token
  rw [heq]
  exact (h.weakened ht).cache fun x hx => .inl (hc x hx)

theorem blacklistToken (h : Closed cfg P L E s) (token : Token) :
    Closed cfg P L E (Tokens.blacklistToken cfg s token) := by
  obtain ⟨b, heq, -⟩ := blacklistToken_spec cfg s token
  rw [heq]
  exact h.blacklist b

/-- A thorough logout closes the login, if the cache has gained at most the token since. -/
theorem loggedOut (h : Closed cfg P L E s) (hthorough : Thorough cfg s token)
    {t : Table CachedToken} (hclosed : Closed cfg P L E { s with cache := t })
    (hsub : ∀ c ∈ t, c ∈ s.cache ∨ c.token = token)
    (hpending : ∀ t ∈ P, ∀ l ∈ loginsOf cfg s t, l ∉ loginsOf cfg s token) :
    Closed cfg P (loginsOf cfg s token ++ L) E
      (Tokens.revokeSession cfg { s with cache := t } token) := by
  obtain ⟨hdecodes, ⟨sid, hsid, hfound⟩, hothers⟩ := hthorough
  obtain ⟨p₀, hp₀, hhas₀⟩ := hdecodes.1
  obtain ⟨rfl, hp₀sid, rfl⟩ := hhas₀.of_sid hsid
  obtain ⟨r, hr⟩ := Option.ne_none_iff_exists'.mp hfound
  obtain ⟨hrmem, hrid⟩ := findSession_eq_some hr
  have hrp₀ : r.Of cfg p₀ := h.consistent.of_tokenId hrmem hp₀ hrid
  -- the logins of the access token are that of its pair
  have hlogins : ∀ l ∈ loginsOf cfg s (p₀.access cfg), l = p₀.login := by
    intro l hl
    obtain ⟨p, hp, hhas, rfl⟩ := mem_loginsOf.mp hl
    have hjti : p.jti = p₀.jti := (hhas.of_sid hsid).2.2
    rw [Table.eq_of_key hp hp₀ hjti]
  have hstate : Tokens.revokeSession cfg { s with cache := t } (p₀.access cfg) =
      { revoked s r with cache := t.erase (p₀.access cfg) } := by
    have hdecodes' : Decodes cfg { s with cache := t } (p₀.access cfg) := hdecodes
    have hfind : findSession { s with cache := t } p₀.jti = some r := hr
    have hid : (p₀.access cfg).sid = some p₀.jti := hsid
    rw [Tokens.revokeSession, if_pos hdecodes', Pair.access_jti, Option.none_or, hid,
      Option.bind_some, hfind]
    rfl
  have hkept := hclosed.revokeSession (p₀.access cfg)
  rw [hstate] at hkept ⊢
  have hnew : ∀ {p : Pair}, p.login ∈ loginsOf cfg s (p₀.access cfg) ++ L →
      p.login ∈ loginsOf cfg s (p₀.access cfg) ∨ p.login ∈ L := List.mem_append.mp
  refine ⟨hkept.consistent, ?_, ?_, ?_, ?_, ?_, hkept.past, hkept.recorded, hkept.renewed⟩
  · intro l hl
    rcases List.mem_append.mp hl with hl | hl
    · exact ⟨p₀, hp₀, (hlogins l hl).symm⟩
    · exact h.known l hl
  · intro x hx p hp hxp hL
    rcases hnew hL with hl | hL
    · -- the session of the login is the one that was found
      obtain ⟨y, hy, hsame, heq⟩ := weakened_set hrmem x hx
      have hyr : y = r := h.consistent.one y hy r hrmem p hp p₀ hp₀
        ((UserSession.Of.of_weakened hsame).mp hxp) hrp₀ (hlogins _ hl)
      rcases Table.mem_set.mp hx with ⟨-, hid⟩ | ⟨rfl, -⟩
      · have hxid : x.id = y.id := by rw [hsame]
        exact absurd (hxid.trans (congrArg UserSession.id hyr)) hid
      · rfl
    · exact hkept.inactive x hx p hp hxp hL
  · intro p hp hL token' hhas
    rcases hnew hL with hl | hL
    · rintro ⟨c, hc, rfl, hlive⟩
      obtain ⟨hc, hne⟩ := Table.mem_erase.mp hc
      have hmem : c.token ∈ [p.access cfg, p.refresh cfg] := by simpa [Pair.Has] using hhas
      rcases hsub c hc with hc | heq
      · exact (hothers p hp hl).1 c.token hmem hne ⟨c, hc, rfl, hlive⟩
      · exact absurd heq hne
    · exact hkept.uncached p hp hL token' hhas
  · intro t' ht'
    obtain ⟨hsigned, hno⟩ := hkept.pending t' ht'
    refine ⟨hsigned, fun p hp hL => ?_⟩
    rcases hnew hL with hl | hL
    · intro hhas
      exact hpending t' ht' p.login (mem_loginsOf.mpr ⟨p, hp, hhas, rfl⟩) hl
    · exact hno p hp hL
  · intro p hp hL hno
    rcases hnew hL with hl | hL
    · have hundecoded := (hothers p hp hl).2 hno
      by_contra hlater
      have hle : seconds s.clock ≤ (p.access cfg).exp := Int.not_lt.mp hlater
      exact hundecoded ⟨⟨p, hp, .inl rfl⟩, hle⟩
    · exact hkept.expired p hp hL hno

theorem loggedOutEverywhere (h : Closed cfg P L E s) (huser : user ∈ s.users) :
    Closed cfg P L ((user.id, s.clock) :: E) (revokeAllUserSessions s user.id) := by
  have hkept : Closed cfg P L E (revokeAllUserSessions s user.id) := by
    refine ((h.weakened weakened_update).cache fun c hc =>
      .inl (Table.mem_deleteWhere.mp hc).1).users fun u hu => ?_
    refine ⟨_, Table.mem_update.mpr ⟨u, hu, rfl⟩, ?_⟩
    split
    · exact ⟨rfl, fun x _ => ⟨s.clock, rfl, .inr (Int.le_refl _)⟩⟩
    · exact ⟨rfl, fun x hx => ⟨x, hx, .inl (Int.le_refl _)⟩⟩
  refine ⟨hkept.consistent, hkept.known, hkept.inactive, hkept.uncached, hkept.pending,
    hkept.expired, ?_, ?_, ?_⟩
  · rintro x (_ | ⟨_, hx⟩)
    · exact Int.le_refl _
    · exact hkept.past x hx
  · rintro x (_ | ⟨_, hx⟩)
    · have hmem : { user with lastGlobalLogoutAt := some s.clock } ∈
          (revokeAllUserSessions s user.id).users := by
        simp only [revokeAllUserSessions, Table.mem_update]
        exact ⟨user, huser, by simp⟩
      exact ⟨_, hmem, rfl, s.clock, rfl, Int.le_refl _⟩
    · exact hkept.recorded x hx
  · rintro x (_ | ⟨_, hx⟩) r hr p hp hrp hactive hsub
    · -- the sessions of the user are inactive
      simp only [revokeAllUserSessions, Table.mem_update] at hr
      obtain ⟨y, -, rfl⟩ := hr
      have hyid : y.userId = user.id := by
        have hid := hrp.userId.trans hsub
        split at hid <;> exact hid
      by_cases hy : y.isActive = true
      · simp [hyid, hy] at hactive
      · simp [hyid, hy] at hactive
    · exact hkept.renewed x hx r hr p hp hrp hactive hsub

end Closed

/-! ## Runs -/

variable {request : Request}

theorem bearer_ok (htoken : token ∈ bearerToken request) (hok : (handle cfg s request).1.isOk) :
    ∃ user, (getUserFromToken cfg s token).1 = .ok user := by
  cases hget : (getUserFromToken cfg s token).1 with
  | ok user => exact ⟨user, rfl⟩
  | error e =>
    exfalso
    cases request <;>
      simp only [bearerToken, Option.mem_def, reduceCtorEq, Option.some.injEq] at htoken
    all_goals
      subst htoken
      simp [handle, selectRole, logout, logoutAll, withCurrentUser_error hget, hget, Except.map,
        Except.isOk, Except.toBool] at hok

theorem presentedToken_cases (h : token ∈ presentedToken request) :
    request = .refreshToken token ∨ token ∈ bearerToken request := by
  cases request with
  | refreshToken t => exact .inl (congrArg Request.refreshToken (Option.some.inj h))
  | _ => exact .inr h

theorem refresh_ok (hok : (handle cfg s (.refreshToken token)).1.isOk) :
    ∃ pair, (Tokens.refreshToken cfg s token).1 = .ok pair := by
  cases h : (Tokens.refreshToken cfg s token).1 with
  | ok pair => exact ⟨pair, rfl⟩
  | error e => simp [handle, h, Except.map, Except.isOk, Except.toBool] at hok

theorem Closed.afterLogout (h : Closed cfg P L E s)
    (hbearer : Closed cfg P L E (getUserFromToken cfg s token).2)
    (hthorough : token.type = .access → (handle cfg s (.logout token)).1.isOk →
      Thorough cfg s token ∧ ∀ t ∈ P, ∀ l ∈ loginsOf cfg s t, l ∉ loginsOf cfg s token) :
    Closed cfg P ((if (handle cfg s (.logout token)).1.isOk then loggedOutBy cfg s (.logout token)
      else []) ++ L) E (handle cfg s (.logout token)).2 := by
  cases hget : (getUserFromToken cfg s token).1 with
  | error e =>
    have hanswer : handle cfg s (.logout token) = (.error e, (getUserFromToken cfg s token).2) := by
      rw [handle, logout, withCurrentUser_error hget]
      rfl
    rw [hanswer]
    exact hbearer
  | ok user =>
    have hanswer : handle cfg s (.logout token) = (.ok none, Tokens.blacklistToken cfg
        (Tokens.revokeSession cfg (getUserFromToken cfg s token).2 token) token) := by
      rw [handle, logout, withCurrentUser_ok hget]
      rfl
    rw [hanswer] at hthorough ⊢
    refine Closed.blacklistToken ?_ token
    by_cases htype : token.type = .access
    · obtain ⟨-, t, hstate, hsub⟩ := getUserFromToken_spec h.consistent token
      obtain ⟨hreached, hpending⟩ := hthorough htype rfl
      rw [hstate] at hbearer ⊢
      have hclosed := h.loggedOut hreached hbearer (fun c hc => (hsub c hc).imp_right And.left)
        hpending
      simpa [loggedOutBy, htype, Except.isOk, Except.toBool] using hclosed
    · simpa [loggedOutBy, htype] using hbearer.revokeSession token

theorem Closed.afterLogoutAll (h : Closed cfg P L E s)
    (hbearer : Closed cfg P L E (getUserFromToken cfg s token).2) :
    Closed cfg P L ((if (handle cfg s (.logoutAll token)).1.isOk then
      everywhereBy s (.logoutAll token) else []) ++ E) (handle cfg s (.logoutAll token)).2 := by
  cases hget : (getUserFromToken cfg s token).1 with
  | error e =>
    have hanswer : handle cfg s (.logoutAll token) =
        (.error e, (getUserFromToken cfg s token).2) := by
      rw [handle, logoutAll, withCurrentUser_error hget]
      rfl
    rw [hanswer]
    exact hbearer
  | ok user =>
    have hanswer : handle cfg s (.logoutAll token) =
        (.ok none, revokeAllUserSessions (getUserFromToken cfg s token).2 user.id) := by
      rw [handle, logoutAll, withCurrentUser_ok hget]
      rfl
    obtain ⟨haccepted, t, hstate, -⟩ := getUserFromToken_spec h.consistent token
    obtain ⟨hmem, hid⟩ := userOf_ok (haccepted user hget).2
    rw [hanswer]
    rw [hstate] at hbearer ⊢
    have hid : user.id = token.sub := hid
    have hclosed := hbearer.loggedOutEverywhere hmem
    simpa [everywhereBy, hid, Except.isOk, Except.toBool] using hclosed

theorem Closed.stored (h : Closed cfg P L E s) (hmem : token ∈ P) :
    Closed cfg (P.erase token) L E (storeValidatedToken cfg s token (validatedOf token)) := by
  obtain ⟨hsigned, hno⟩ := h.pending token hmem
  obtain ⟨t, hstate, hsub⟩ := storeValidatedToken_spec cfg s token (validatedOf token)
  rw [hstate]
  have hcached := h.cache (t := t) fun c hc => (hsub c hc).imp_right fun ⟨htoken, hv⟩ => by
    refine ⟨htoken ▸ ⟨hsigned, hv⟩, fun l hl hL => ?_⟩
    obtain ⟨p, hp, hhas, rfl⟩ := mem_loginsOf.mp hl
    exact hno p hp hL (htoken ▸ hhas)
  exact { hcached with pending := fun x hx => hcached.pending x (List.mem_of_mem_erase hx) }

theorem Closed.looked (h : Closed cfg P L E s) (token : Token) :
    Closed cfg P L E (getValidatedToken cfg s token).2 := by
  obtain ⟨-, t, hstate, hsub⟩ := getValidatedToken_spec cfg s token
  rw [hstate]
  exact h.cache fun c hc => .inl (hsub c hc)

theorem Closed.checked (h : Closed cfg P L E s)
    (horderly : token.type = .refresh → Decodes cfg s token → s.blacklist.get? token = none →
      ∀ l ∈ loginsOf cfg s token, l ∉ L) (hvalid : validateLocalAccessToken cfg s token = .ok v) :
    Closed cfg (token :: P) L E (getValidatedToken cfg s token).2 := by
  obtain ⟨-, t, hstate, -⟩ := getValidatedToken_spec cfg s token
  refine { h.looked token with pending := fun x hx => ?_ }
  rcases List.mem_cons.mp hx with rfl | hx
  · obtain ⟨⟨hsigned, -⟩, -⟩ := validateLocalAccessToken_ok.mp hvalid
    rw [hstate]
    refine ⟨hsigned, fun p hp hL hhas => ?_⟩
    have hl : p.login ∈ loginsOf cfg s x := mem_loginsOf.mpr ⟨p, hp, hhas, rfl⟩
    obtain ⟨htype, hdecodes, hblacklist⟩ := h.refresh_of_valid hvalid hl hL
    exact horderly htype hdecodes hblacklist _ hl hL
  · exact (h.looked token).pending x hx

theorem Closed.handle (h : Closed cfg P L E s)
    (hbearer : ∀ token ∈ bearerToken request, Closed cfg P L E (getUserFromToken cfg s token).2)
    (hthorough : ∀ token ∈ logoutToken (.request request), token.type = .access →
      (handle cfg s (.logout token)).1.isOk →
      Thorough cfg s token ∧ ∀ t ∈ P, ∀ l ∈ loginsOf cfg s t, l ∉ loginsOf cfg s token) :
    Closed cfg P ((if (handle cfg s request).1.isOk then loggedOutBy cfg s request else []) ++ L)
      ((if (handle cfg s request).1.isOk then everywhereBy s request else []) ++ E)
      (handle cfg s request).2 := by
  -- most requests log nobody out
  have hquiet : loggedOutBy cfg s request = [] → everywhereBy s request = [] →
      Closed cfg P L E (Tokens.handle cfg s request).2 →
      Closed cfg P
        ((if (Tokens.handle cfg s request).1.isOk then loggedOutBy cfg s request else []) ++ L)
        ((if (Tokens.handle cfg s request).1.isOk then everywhereBy s request else []) ++ E)
        (Tokens.handle cfg s request).2 := fun hlogin huser hclosed => by
    simpa [hlogin, huser] using hclosed
  cases request with
  | processLogin credential => exact hquiet rfl rfl (h.passwordLogin _ _ credential)
  | login credential => exact hquiet rfl rfl (h.passwordLogin _ _ credential)
  | verifyRegistrationOtp target =>
    exact hquiet rfl rfl ((h.findOrCreateUser target).activate _).opened
  | socialLogin identity => exact hquiet rfl rfl (h.findOrCreateUser identity).opened
  | registerWithPassword => exact hquiet rfl rfl (h.findOrCreateUser none).signNew
  | refreshToken token => exact hquiet rfl rfl (h.afterRefresh token)
  | selectRole token =>
    exact hquiet rfl rfl (withCurrentUser_keeps (hbearer token rfl) fun _ _ hs => hs.signNew)
  | getUserFromToken token => exact hquiet rfl rfl (hbearer token rfl)
  | cleanupExpiredTokens => exact hquiet rfl rfl (h.blacklist _)
  | logout token =>
    have hclosed := h.afterLogout (hbearer token rfl) (hthorough token rfl)
    simpa [everywhereBy] using hclosed
  | logoutAll token =>
    have hclosed := h.afterLogoutAll (hbearer token rfl)
    simpa [loggedOutBy] using hclosed

section Step

variable {w : Watch} {t : Turn}

theorem Closed.refused (h : Closed cfg w.pending w.loggedOut w.everywhere w.state)
    (horderly : Orderly cfg w t) : Refused cfg w t := by
  have harrival : Closed cfg w.pending w.loggedOut w.everywhere (w.arrival t) := h.later (by omega)
  have hkept := horderly.1
  intro token htoken
  obtain ⟨elapsed, action⟩ := t
  cases action with
  | request request =>
    obtain ⟨hok, hpresented⟩ := Option.ite_none_right_eq_some.mp htoken
    rcases presentedToken_cases hpresented with rfl | hbearer
    · obtain ⟨pair, hpair⟩ := refresh_ok hok
      exact ⟨fun l hl => harrival.refreshToken hpair hl, fun x hx hsub =>
        harrival.since_refresh hpair hx hsub⟩
    · obtain ⟨user, huser⟩ := bearer_ok hbearer hok
      refine ⟨fun l hl hL => ?_, fun x hx hsub => harrival.since_bearer huser hx hsub⟩
      obtain ⟨htype, hdecodes, hblacklist⟩ := harrival.refresh_of_accepted huser hl hL
      exact hkept token hbearer htype hdecodes hblacklist l hl hL
  | check t => exact absurd htoken nofun
  | store t =>
    obtain ⟨⟨hmem, hok⟩, heq⟩ := Option.ite_none_right_eq_some.mp htoken
    obtain rfl := Option.some.inj heq
    obtain ⟨hsigned, hno⟩ := harrival.pending t hmem
    refine ⟨fun l hl hL => ?_, fun x hx hsub => ?_⟩
    · obtain ⟨p, hp, hhas, rfl⟩ := mem_loginsOf.mp hl
      exact hno p hp hL hhas
    · cases huser : userOf cfg (w.arrival ⟨elapsed, .store t⟩) (validatedOf t) with
      | error e => rw [huser] at hok; exact absurd hok (by simp [Except.isOk, Except.toBool])
      | ok user => exact harrival.since_user hsigned huser hx hsub

theorem Closed.watch (h : Closed cfg w.pending w.loggedOut w.everywhere w.state)
    (horderly : Orderly cfg w t) :
    Closed cfg (watch cfg w t).pending (watch cfg w t).loggedOut (watch cfg w t).everywhere
      (watch cfg w t).state := by
  have harrival : Closed cfg w.pending w.loggedOut w.everywhere (w.arrival t) := h.later (by omega)
  obtain ⟨hkept, hlogsOut⟩ := horderly
  obtain ⟨elapsed, action⟩ := t
  cases action with
  | request request =>
    exact harrival.handle (fun token htoken => harrival.afterBearer (hkept token htoken)) hlogsOut
  | check token =>
    simp only [Logout.watch]
    split_ifs with hchecked
    · cases hvalid : validateLocalAccessToken cfg (w.arrival ⟨elapsed, .check token⟩) token with
      | error e =>
        rw [hvalid] at hchecked
        exact absurd hchecked.2 (by simp [Except.isOk, Except.toBool])
      | ok v => exact harrival.checked (hkept token rfl) hvalid
    · exact harrival.looked token
  | store token =>
    simp only [Logout.watch]
    split_ifs with hmem
    · exact harrival.stored hmem
    · exact harrival

end Step

theorem closed_start {users : Table Account} (hnow : second ≤ now) :
    Closed cfg [] [] [] (Tokens.start users now) where
  consistent := consistent_start hnow
  known := nofun
  inactive r hr := absurd hr (Table.not_mem_empty r)
  uncached p hp := absurd hp (Table.not_mem_empty p)
  pending := nofun
  expired p hp := absurd hp (Table.not_mem_empty p)
  past := nofun
  recorded := nofun
  renewed := nofun

/-- **Logging out takes effect** in every run of orderly steps. -/
theorem logout_takes_effect (cfg : Settings) (users : Table Account) (now : ℤ)
    (hnow : second ≤ now) (ts : List Turn)
    (horderly : Along (watch cfg) (Orderly cfg) (Watch.start users now) ts) :
    Along (watch cfg) (Refused cfg) (Watch.start users now) ts :=
  along_of_along (I := fun w => Closed cfg w.pending w.loggedOut w.everywhere w.state)
    (fun _ _ h ho => h.watch ho) (fun _ _ h ho => h.refused ho) (closed_start hnow) horderly

def settings : Settings := ⟨1440, 30, 5, 0, true, true⟩

def user : Account := ⟨4, true, false, none⟩

def users : Table Account := ⟨[user], by decide⟩

def firstPair (hasSid : Bool) : Pair := ⟨1, 4, hasSid, 7000000, 1⟩

/-- A login with a password, a request, a logout, and the request again. -/
def passwordRun : List Turn :=
  [⟨1000000, .request (.login (some 4))⟩,
    ⟨500, .request (.getUserFromToken ((firstPair true).access settings))⟩,
    ⟨500, .request (.logout ((firstPair true).access settings))⟩,
    ⟨500, .request (.getUserFromToken ((firstPair true).access settings))⟩]

theorem logout_takes_effect_sample :
    Along (watch settings) (Refused settings) (Watch.start users 6000000) passwordRun :=
  logout_takes_effect settings users 6000000 (by decide) passwordRun (by decide +kernel)

/-- The refresh token of a social login is still good as bearer after the logout. -/
theorem social_refresh_token_accepted :
    ¬ Along (watch settings) (Refused settings) (Watch.start users 6000000)
      [⟨1000000, .request (.socialLogin (some 4))⟩,
        ⟨500, .request (.logout ((firstPair false).access settings))⟩,
        ⟨500, .request (.getUserFromToken ((firstPair false).refresh settings))⟩] := by
  decide +kernel

end WezuBackend.Auth.Logout
