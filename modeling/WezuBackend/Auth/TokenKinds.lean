import WezuBackend.Auth.Logout

/-!
# Two kinds of tokens

Access and refresh tokens are signed with one key, and tell their kind in a claim.  The refresh
endpoint looks at the claim; `_validate_local_access_token` does not.  So the kinds are kept apart
exactly while no refresh token passes the other checks of a bearer token (`kinds_separate_iff`).
-/

namespace WezuBackend.Auth.TokenKinds

open Lib.Tables Lib.Runs Auth.Tokens

/-! ## What should hold -/

def Authenticates (cfg : Settings) (s : State) (token : Token) : Prop :=
  ∃ user, (getUserFromToken cfg s token).1 = .ok user

def Exchanges (cfg : Settings) (s : State) (token : Token) : Prop :=
  ∃ pair, (refreshToken cfg s token).1 = .ok pair

structure Separate (cfg : Settings) (s : State) (token : Token) : Prop where
  once : ¬ (Authenticates cfg s token ∧ Exchanges cfg s token)
  refresh : token.type = .refresh → ¬ Authenticates cfg s token
  access : token.type = .access → ¬ Exchanges cfg s token

/-- The refresh token of the pair passes the checks of a bearer token: it is in the cache, or has
not expired and is not on the blacklist, and its user is found active and has not logged out from
everywhere since. -/
def Bearable (cfg : Settings) (s : State) (q : Pair) : Prop :=
  (0 < cfg.authTokenCacheTtl ∧ Cached s (q.refresh cfg) ∨
    seconds s.clock ≤ (q.refresh cfg).exp ∧ s.blacklist.get? (q.refresh cfg) = none) ∧
  ∃ user ∈ s.users.get? q.subject,
    checkUser cfg.usersNaive user (validatedOf (q.refresh cfg)) = .ok ()

instance (s : State) (token : Token) : Decidable (Cached s token) :=
  inferInstanceAs (Decidable (∃ c ∈ s.cache, _))

instance (cfg : Settings) (s : State) (q : Pair) : Decidable (Bearable cfg s q) := by
  unfold Bearable
  infer_instance

variable {cfg : Settings} {s : State} {token : Token}

/-! ## What the two places accept -/

variable {v : ValidatedToken}

theorem userOf_iff : (∃ user, userOf cfg s v = .ok user) ↔
    ∃ user ∈ s.users.get? v.userId, checkUser cfg.usersNaive user v = .ok () := by
  unfold userOf
  rcases s.users.get? v.userId with _ | user
  · exact iff_of_false (by simp) (by simp)
  · rcases hcheck : checkUser cfg.usersNaive user v with e | u
    · simp [hcheck]
    · simp [hcheck]

theorem getValidatedToken_of_cached (h : Consistent cfg s) (hon : 0 < cfg.authTokenCacheTtl)
    (hcached : Cached s token) : (getValidatedToken cfg s token).1 = some (validatedOf token) := by
  obtain ⟨c, hc, rfl, hlive⟩ := hcached
  have hmem : c ∈ (pruneAuthCache s).cache :=
    Table.mem_deleteWhere.mpr ⟨hc, decide_eq_false (Int.not_le.mpr hlive)⟩
  have hget : (pruneAuthCache s).cache.get? c.token = some c := Table.get?_of_mem hmem
  unfold getValidatedToken
  rw [if_neg (Int.not_le.mpr hon)]
  dsimp only
  rw [hget, Option.map_some, (h.cached c hc).2]

theorem cached_of_read (hv : (getValidatedToken cfg s token).1 = some v) :
    0 < cfg.authTokenCacheTtl ∧ Cached s token := by
  constructor
  · by_contra hoff
    unfold getValidatedToken at hv
    rw [if_pos (Int.not_lt.mp hoff)] at hv
    cases hv
  · obtain ⟨c, hc, htoken, hlive, -⟩ := (getValidatedToken_spec cfg s token).1 v hv
    exact ⟨c, hc, htoken, hlive⟩

theorem authenticates_iff (h : Consistent cfg s) : Authenticates cfg s token ↔
    (0 < cfg.authTokenCacheTtl ∧ Cached s token ∨
      validateLocalAccessToken cfg s token = .ok (validatedOf token)) ∧
    ∃ user ∈ s.users.get? token.sub,
      checkUser cfg.usersNaive user (validatedOf token) = .ok () := by
  have huser : (∃ user, userOf cfg s (validatedOf token) = .ok user) ↔ _ := userOf_iff
  rw [show token.sub = (validatedOf token).userId from rfl, ← huser]
  constructor
  · rintro ⟨user, hok⟩
    obtain ⟨hvalid, huser⟩ := (getUserFromToken_spec h token).1 user hok
    refine ⟨?_, user, huser⟩
    obtain ⟨t, -, ⟨hget, -⟩ | hget⟩ := getValidatedToken_cases h token
    · exact .inl (cached_of_read (congrArg Prod.fst hget))
    · rcases hvalid with hcached | hvalid
      · by_cases hon : 0 < cfg.authTokenCacheTtl
        · have hread := getValidatedToken_of_cached h hon hcached
          rw [hget] at hread
          cases hread
        · -- without a cache the token was validated
          refine .inr ?_
          have hsame : validateLocalAccessToken cfg { s with cache := t } token =
              validateLocalAccessToken cfg s token := rfl
          simp only [getUserFromToken, hget, hsame] at hok
          rcases hlocal : validateLocalAccessToken cfg s token with e | v
          · rw [hlocal] at hok
            cases hok
          · rw [(validateLocalAccessToken_ok.mp hlocal).2.2.2]
      · exact .inr hvalid
  · rintro ⟨hcached | hvalid, user, huser⟩
    · have hread := getValidatedToken_of_cached h hcached.1 hcached.2
      obtain ⟨t, -, ⟨hget, -⟩ | hget⟩ := getValidatedToken_cases h token
      · refine ⟨user, ?_⟩
        simp only [getUserFromToken, hget]
        exact huser
      · rw [hget] at hread
        cases hread
    · exact ⟨user, getUserFromToken_of_valid h hvalid huser⟩

variable {q : Pair}

/-- A refresh token names no session that would have to be active. -/
theorem validate_refresh_iff (hq : q ∈ s.pairs) :
    validateLocalAccessToken cfg s (q.refresh cfg) = .ok (validatedOf (q.refresh cfg)) ↔
      seconds s.clock ≤ (q.refresh cfg).exp ∧ s.blacklist.get? (q.refresh cfg) = none := by
  rw [validateLocalAccessToken_ok]
  constructor
  · rintro ⟨⟨-, hexp⟩, hlisted, -, -⟩
    exact ⟨hexp, hlisted⟩
  · rintro ⟨hexp, hlisted⟩
    exact ⟨⟨⟨q, hq, .inr rfl⟩, hexp⟩, hlisted, fun sid hsid => absurd hsid nofun, rfl⟩

theorem bearable_iff (h : Consistent cfg s) (hq : q ∈ s.pairs) :
    Authenticates cfg s (q.refresh cfg) ↔ Bearable cfg s q := by
  rw [authenticates_iff h, validate_refresh_iff hq]
  exact Iff.rfl

theorem signed_of_authenticates (h : Consistent cfg s) (hauth : Authenticates cfg s token) :
    Signed cfg s token := by
  obtain ⟨⟨-, c, hc, rfl, -⟩ | hvalid, -⟩ := (authenticates_iff h).mp hauth
  · exact (h.cached c hc).1
  · exact (validateLocalAccessToken_ok.mp hvalid).1.1

theorem refresh_of_exchanges (h : Consistent cfg s) (hex : Exchanges cfg s token) :
    token.type = .refresh := by
  obtain ⟨pair, hok⟩ := hex
  rcases refreshToken_cases h token with ⟨e, s', heq, -⟩ | ⟨-, r, -, -, q, -, -, rfl, -⟩
  · rw [heq] at hok
    cases hok
  · rfl

/-- **The kinds are apart in a state** exactly if no refresh token passes for a bearer token. -/
theorem separate_iff (h : Consistent cfg s) :
    (∀ token, Separate cfg s token) ↔ ∀ q ∈ s.pairs, ¬ Bearable cfg s q := by
  constructor
  · intro hsep q hq hbearable
    exact (hsep (q.refresh cfg)).refresh rfl ((bearable_iff h hq).mpr hbearable)
  · intro hnone token
    have hrefresh : token.type = .refresh → ¬ Authenticates cfg s token := by
      intro htype hauth
      obtain ⟨q, hq, rfl | rfl⟩ := signed_of_authenticates h hauth
      · cases htype
      · exact hnone q hq ((bearable_iff h hq).mp hauth)
    refine ⟨fun ⟨hauth, hex⟩ => hrefresh (refresh_of_exchanges h hex) hauth, hrefresh, ?_⟩
    intro htype hex
    rw [refresh_of_exchanges h hex] at htype
    cases htype

/-! ## Runs -/

/-- A request arrives and is answered. -/
def arrive (cfg : Settings) (s : State) (e : Event) : State :=
  (handle cfg (s.at (s.clock + e.elapsed)) e.request).2

def after (cfg : Settings) (users : Table Account) (now : ℤ) (events : List Event) (elapsed : ℕ) :
    State :=
  let s := run (arrive cfg) (start users now) events
  s.at (s.clock + elapsed)

theorem consistent_after {users : Table Account} {now : ℤ} (hnow : second ≤ now)
    (events : List Event) (elapsed : ℕ) : Consistent cfg (after cfg users now events elapsed) := by
  have hrun : Consistent cfg (run (arrive cfg) (start users now) events) :=
    run_invariant (fun s e h => (h.at (by omega)).handle e.request) (consistent_start hnow) events
  exact hrun.at (by omega)

/-- **Token kinds are separate** in a state of a run exactly if no refresh token that has been
issued passes the other checks of a bearer token. -/
theorem kinds_separate_iff (cfg : Settings) (users : Table Account) {now : ℤ} (hnow : second ≤ now)
    (events : List Event) (elapsed : ℕ) :
    (∀ token, Separate cfg (after cfg users now events elapsed) token) ↔
      ∀ q ∈ (after cfg users now events elapsed).pairs,
        ¬ Bearable cfg (after cfg users now events elapsed) q :=
  separate_iff (consistent_after hnow events elapsed)

/-! ## A refresh token as bearer -/

open Auth.Logout (settings user users firstPair)

def loggedIn : List Event := [⟨1000000, .login (some 4)⟩]

/-- A login with a password, and a logout from everywhere. -/
def loggedOut : List Event :=
  loggedIn ++ [⟨2000000, .logoutAll ((firstPair true).access settings)⟩]

theorem kinds_separate_sample :
    Separate settings (after settings users 6000000 loggedOut 500)
      ((firstPair true).refresh settings) :=
  (kinds_separate_iff settings users (by decide) loggedOut 500).mpr (by decide +kernel) _

/-- The refresh token of a login authenticates requests. -/
theorem refresh_token_authenticates :
    ¬ ∀ token, Separate settings (after settings users 6000000 loggedIn 500) token := by
  intro h
  refine (h ((firstPair true).refresh settings)).refresh rfl ⟨user, ?_⟩
  decide +kernel

end WezuBackend.Auth.TokenKinds
