import WezuBackend.Auth.Tokens
import WezuBackend.Lib.ReverseIndex

/-!
# The cache of validated tokens

`_auth_cache` of `app/api/deps.py` keeps what a token was validated to for a short time, and
`_auth_user_index` the keys of the cache by user, so that a global logout can drop them.  The second
dictionary is a function of the first over every run (`cache_index`); a read gives what was stored
last, unless its time has passed or it was invalidated (`read_iff`); and the two dictionaries do the
work of the one table of `Auth.Tokens` (`cache_refines`).

Each function holds the lock while it works on them.  Times are only compared, so that the clock is
any linear order, and need not go on: nothing depends on it.
-/

namespace WezuBackend.Auth.TokenCache

open Lib.Tables Lib.Runs Lib.ReverseIndex

/-! ## The two dictionaries -/

/-- A validated token is a user's. -/
class Validated (ν : Type) (υ : outParam Type) where
  userId : ν → υ

export Validated (userId)

structure Settings (κ τ : Type) where
  /-- `AUTH_TOKEN_CACHE_TTL_SECONDS` -/
  authTokenCacheTtl : ℤ
  /-- the SHA-256 hash of a token -/
  authCacheKey : String → κ
  /-- the lifetime of an entry later -/
  expiry : τ → τ

/-- An item of `_auth_cache`. -/
structure Entry (κ ν τ : Type) where
  key : κ
  expiresAt : τ
  validated : ν

instance {κ ν τ : Type} : Row (Entry κ ν τ) κ := ⟨Entry.key⟩

structure Cache (κ ν υ τ : Type) where
  authCache : Table (Entry κ ν τ) := .empty
  authUserIndex : υ → Option (Finset κ) := fun _ => none

variable {κ ν υ τ : Type} [DecidableEq κ] [DecidableEq υ] [Validated ν υ] [LinearOrder τ]

def Entry.user (e : Entry κ ν τ) : υ := userId e.validated

/-- Pop a key, and take it out of the set of the user whose entry it was. -/
def evict (c : Cache κ ν υ τ) (key : κ) : Cache κ ν υ τ :=
  match c.authCache.get? key with
  | none => c
  | some cached => ⟨c.authCache.erase key, discard c.authUserIndex cached.user key⟩

def pruneAuthCache (now : τ) (c : Cache κ ν υ τ) : Cache κ ν υ τ :=
  ((c.authCache.filter fun e => e.expiresAt ≤ now).map Entry.key).foldl evict c

def storeValidatedToken (cfg : Settings κ τ) (now : τ) (token : String) (validated : ν)
    (c : Cache κ ν υ τ) : Cache κ ν υ τ :=
  if cfg.authTokenCacheTtl ≤ 0 then c
  else
    let cacheKey := cfg.authCacheKey token
    let pruned := pruneAuthCache now c
    let index := match pruned.authCache.get? cacheKey with
      | none => pruned.authUserIndex
      | some previous => discard pruned.authUserIndex previous.user cacheKey
    ⟨pruned.authCache.put ⟨cacheKey, cfg.expiry now, validated⟩,
      add index (userId validated) cacheKey⟩

def getValidatedToken (cfg : Settings κ τ) (now : τ) (token : String) (c : Cache κ ν υ τ) :
    Option ν × Cache κ ν υ τ :=
  if cfg.authTokenCacheTtl ≤ 0 then (none, c)
  else
    let pruned := pruneAuthCache now c
    match pruned.authCache.get? (cfg.authCacheKey token) with
    | none => (none, pruned)
    | some cached => (if cached.expiresAt ≤ now then none else some cached.validated, pruned)

def invalidateTokenCache (cfg : Settings κ τ) (token : Option String) (c : Cache κ ν υ τ) :
    Cache κ ν υ τ :=
  match token with
  | none => c
  | some token => if token = "" then c else evict c (cfg.authCacheKey token)

def invalidateUserTokenCache (user : υ) (c : Cache κ ν υ τ) : Cache κ ν υ τ where
  authCache := c.authCache.deleteWhere fun e => e.key ∈ (c.authUserIndex user).getD ∅
  authUserIndex := Function.update c.authUserIndex user none

/-! ## Runs -/

inductive Call (ν υ : Type) where
  | storeValidatedToken (token : String) (validated : ν)
  | getValidatedToken (token : String)
  | pruneAuthCache
  | invalidateTokenCache (token : Option String)
  | invalidateUserTokenCache (user : υ)

def step (cfg : Settings κ τ) (c : Cache κ ν υ τ) (call : τ × Call ν υ) : Cache κ ν υ τ :=
  match call.2 with
  | .storeValidatedToken token validated => storeValidatedToken cfg call.1 token validated c
  | .getValidatedToken token => (getValidatedToken cfg call.1 token c).2
  | .pruneAuthCache => pruneAuthCache call.1 c
  | .invalidateTokenCache token => invalidateTokenCache cfg token c
  | .invalidateUserTokenCache user => invalidateUserTokenCache user c

def Stores (user : υ) (call : τ × Call ν υ) : Prop :=
  ∃ token validated, call.2 = .storeValidatedToken token validated ∧ userId validated = user

variable {cfg : Settings κ τ} {c : Cache κ ν υ τ} {now : τ}

/-! ## The index is that of the cache -/

def Coherent (c : Cache κ ν υ τ) : Prop := c.authUserIndex = indexOf Entry.user c.authCache

omit [LinearOrder τ] in
theorem evict_cases (c : Cache κ ν υ τ) (key : κ) :
    (∀ e ∈ c.authCache, e.key ≠ key) ∧ evict c key = c ∨
      ∃ e ∈ c.authCache, e.key = key ∧
        evict c key = ⟨c.authCache.erase key, discard c.authUserIndex e.user key⟩ := by
  unfold evict
  rcases hget : c.authCache.get? key with _ | e
  · exact .inl ⟨Table.get?_eq_none.mp hget, rfl⟩
  · obtain ⟨he, hkey⟩ := Table.get?_eq_some.mp hget
    exact .inr ⟨e, he, hkey, rfl⟩

variable {e : Entry κ ν τ}

omit [LinearOrder τ] in
theorem mem_evict {key : κ} :
    e ∈ (evict c key).authCache ↔ e ∈ c.authCache ∧ e.key ≠ key := by
  rcases evict_cases c key with ⟨hnone, heq⟩ | ⟨_, -, -, heq⟩
  · rw [heq]
    exact ⟨fun he => ⟨he, hnone e he⟩, fun he => he.1⟩
  · rw [heq]
    exact Table.mem_erase

omit [LinearOrder τ] in
protected theorem Coherent.evict (h : Coherent c) (key : κ) : Coherent (evict c key) := by
  rcases evict_cases c key with ⟨-, heq⟩ | ⟨e, he, rfl, heq⟩
  · rw [heq]
    exact h
  · rw [heq]
    unfold Coherent at h ⊢
    dsimp only
    rw [h]
    exact discard_indexOf he

omit [LinearOrder τ] in
theorem mem_foldl_evict {keys : List κ} :
    e ∈ (keys.foldl evict c).authCache ↔ e ∈ c.authCache ∧ e.key ∉ keys := by
  induction keys generalizing c with
  | nil => simp
  | cons key keys ih =>
    rw [List.foldl_cons, ih, mem_evict, List.mem_cons, not_or, and_assoc]

theorem mem_pruneAuthCache :
    e ∈ (pruneAuthCache now c).authCache ↔ e ∈ c.authCache ∧ now < e.expiresAt := by
  unfold pruneAuthCache
  rw [mem_foldl_evict]
  refine and_congr_right fun he => ?_
  simp only [List.mem_map, Table.mem_filter, decide_eq_true_eq, not_exists, not_and, and_imp]
  constructor
  · intro h
    exact not_le.mp fun hle => h e he hle rfl
  · intro hlt x hx hle hkey
    rw [Table.eq_of_key hx he hkey] at hle
    exact absurd hle (not_le.mpr hlt)

protected theorem Coherent.prune (h : Coherent c) : Coherent (pruneAuthCache now c) := by
  unfold pruneAuthCache
  generalize (c.authCache.filter _).map Entry.key = keys
  induction keys generalizing c with
  | nil => exact h
  | cons key keys ih => exact ih (h.evict key)

variable {token : String}

theorem mem_store (hon : 0 < cfg.authTokenCacheTtl) {validated : ν} :
    e ∈ (storeValidatedToken cfg now token validated c).authCache ↔
      e = ⟨cfg.authCacheKey token, cfg.expiry now, validated⟩ ∨
        (e ∈ c.authCache ∧ now < e.expiresAt) ∧ e.key ≠ cfg.authCacheKey token := by
  unfold storeValidatedToken
  rw [if_neg (not_le.mpr hon)]
  dsimp only
  rw [Table.mem_put, mem_pruneAuthCache]
  rfl

protected theorem Coherent.store (h : Coherent c) (token : String) (validated : ν) :
    Coherent (storeValidatedToken cfg now token validated c) := by
  unfold storeValidatedToken
  split_ifs with hoff
  · exact h
  · have hpruned : Coherent (pruneAuthCache now c) := h.prune
    unfold Coherent at hpruned ⊢
    dsimp only
    -- once what was under the key is taken out, the index is that of the other entries
    have hother : (match (pruneAuthCache now c).authCache.get? (cfg.authCacheKey token) with
        | none => (pruneAuthCache now c).authUserIndex
        | some previous => discard (pruneAuthCache now c).authUserIndex previous.user
            (cfg.authCacheKey token)) =
        indexOf Entry.user ((pruneAuthCache now c).authCache.erase (cfg.authCacheKey token)) := by
      rw [hpruned]
      rcases hget : (pruneAuthCache now c).authCache.get? (cfg.authCacheKey token) with _ | previous
      · dsimp only
        funext u
        refine indexOf_congr fun k => exists_congr fun e => and_congr_left' ?_
        rw [Table.mem_erase]
        exact ⟨fun he => ⟨he, Table.get?_eq_none.mp hget e he⟩, fun he => he.1⟩
      · obtain ⟨hprevious, hkey⟩ := Table.get?_eq_some.mp hget
        dsimp only
        rw [← hkey]
        exact discard_indexOf hprevious
    rw [hother]
    exact add_indexOf (⟨cfg.authCacheKey token, cfg.expiry now, validated⟩ :
      Entry κ ν τ)

omit [LinearOrder τ] in
protected theorem Coherent.invalidateUser (h : Coherent c) (user : υ) :
    Coherent (invalidateUserTokenCache user c) := by
  unfold Coherent at h ⊢
  unfold invalidateUserTokenCache
  dsimp only
  rw [h]
  exact update_indexOf user

variable {user : υ}

omit [LinearOrder τ] in
theorem mem_invalidateUser (h : Coherent c) :
    e ∈ (invalidateUserTokenCache user c).authCache ↔ e ∈ c.authCache ∧ e.user ≠ user := by
  unfold Coherent at h
  unfold invalidateUserTokenCache
  dsimp only
  rw [h, Table.mem_deleteWhere, decide_eq_false_iff_not]
  exact and_congr_right fun he => not_congr (mem_getD_indexOf he)

/-- A read leaves a cache without what has expired, or all of it where there is no cache. -/
theorem getValidatedToken_snd (token : String) :
    (getValidatedToken cfg now token c).2 =
      if cfg.authTokenCacheTtl ≤ 0 then c else pruneAuthCache now c := by
  unfold getValidatedToken
  split_ifs with hoff
  · rfl
  · dsimp only
    split <;> rfl

theorem mem_getValidatedToken {v : ν} :
    v ∈ (getValidatedToken cfg now token c).1 ↔ 0 < cfg.authTokenCacheTtl ∧
      ∃ e ∈ c.authCache, e.key = cfg.authCacheKey token ∧ now < e.expiresAt ∧ e.validated = v := by
  unfold getValidatedToken
  split_ifs with hoff
  · exact iff_of_false (by simp) fun h => absurd h.1 (not_lt.mpr hoff)
  · rw [and_iff_right (not_le.mp hoff)]
    dsimp only
    rcases hget : (pruneAuthCache now c).authCache.get? (cfg.authCacheKey token) with _ | cached
    · refine iff_of_false (by simp) ?_
      rintro ⟨e, he, hkey, hlt, -⟩
      exact Table.get?_eq_none.mp hget e (mem_pruneAuthCache.mpr ⟨he, hlt⟩) hkey
    · obtain ⟨hmem, hkey⟩ := Table.get?_eq_some.mp hget
      obtain ⟨hcached, hlt⟩ := mem_pruneAuthCache.mp hmem
      dsimp only
      rw [if_neg (not_le.mpr hlt), Option.mem_some_iff]
      constructor
      · rintro rfl
        exact ⟨cached, hcached, hkey, hlt, rfl⟩
      · rintro ⟨e, he, hkey', -, rfl⟩
        have hsame : cached = e := Table.eq_of_key hcached he (hkey.trans hkey'.symm)
        rw [hsame]

protected theorem Coherent.step (h : Coherent c) (call : τ × Call ν υ) :
    Coherent (step cfg c call) := by
  obtain ⟨now, call⟩ := call
  cases call with
  | storeValidatedToken token validated => exact h.store token validated
  | getValidatedToken token =>
    show Coherent (getValidatedToken cfg now token c).2
    rw [getValidatedToken_snd]
    split_ifs
    · exact h
    · exact h.prune
  | pruneAuthCache => exact h.prune
  | invalidateTokenCache token =>
    show Coherent (invalidateTokenCache cfg token c)
    unfold invalidateTokenCache
    split
    · exact h
    · split_ifs
      · exact h
      · exact h.evict _
  | invalidateUserTokenCache user => exact h.invalidateUser user

omit [DecidableEq κ] [LinearOrder τ] in
theorem coherent_start [DecidableEq κ] : Coherent ({} : Cache κ ν υ τ) := indexOf_empty.symm

theorem coherent_run (calls : List (τ × Call ν υ)) :
    Coherent (run (step cfg) ({} : Cache κ ν υ τ) calls) :=
  run_invariant (fun _ call h => h.step call) coherent_start calls

/-- A call that stores the entry. -/
def Files (cfg : Settings κ τ) (e : Entry κ ν τ) (call : τ × Call ν υ) : Prop :=
  match call.2 with
  | .storeValidatedToken token validated =>
    0 < cfg.authTokenCacheTtl ∧ e = ⟨cfg.authCacheKey token, cfg.expiry call.1, validated⟩
  | _ => False

/-- A call that leaves the entry where it is: one that prunes comes before it expires. -/
def Spares (cfg : Settings κ τ) (e : Entry κ ν τ) (call : τ × Call ν υ) : Prop :=
  match call.2 with
  | .storeValidatedToken token _ =>
    0 < cfg.authTokenCacheTtl → call.1 < e.expiresAt ∧ e.key ≠ cfg.authCacheKey token
  | .getValidatedToken _ => 0 < cfg.authTokenCacheTtl → call.1 < e.expiresAt
  | .pruneAuthCache => call.1 < e.expiresAt
  | .invalidateTokenCache token => ∀ t ∈ token, t ≠ "" → e.key ≠ cfg.authCacheKey t
  | .invalidateUserTokenCache user => e.user ≠ user

theorem mem_step (h : Coherent c) (call : τ × Call ν υ) :
    e ∈ (step cfg c call).authCache ↔ Files cfg e call ∨ e ∈ c.authCache ∧ Spares cfg e call := by
  obtain ⟨now, call⟩ := call
  cases call with
  | storeValidatedToken token validated =>
    simp only [Files, Spares]
    by_cases hon : 0 < cfg.authTokenCacheTtl
    · simp only [hon, true_and, forall_const, ← and_assoc]
      exact mem_store hon
    · have hsame : step cfg c (now, .storeValidatedToken token validated) = c :=
        if_pos (not_lt.mp hon)
      simp [hsame, hon]
  | getValidatedToken token =>
    show e ∈ (getValidatedToken cfg now token c).2.authCache ↔ _
    rw [getValidatedToken_snd]
    simp only [Files, Spares, false_or]
    split_ifs with hoff
    · exact (and_iff_left fun hon => absurd hon (not_lt.mpr hoff)).symm
    · rw [mem_pruneAuthCache, forall_prop_of_true (not_le.mp hoff)]
  | pruneAuthCache => exact mem_pruneAuthCache.trans (or_iff_right not_false).symm
  | invalidateTokenCache token =>
    show e ∈ (invalidateTokenCache cfg token c).authCache ↔ _
    unfold invalidateTokenCache
    simp only [Files, Spares, false_or]
    cases token with
    | none => simp
    | some token =>
      dsimp only
      split_ifs with hempty
      · simp [hempty]
      · simp [hempty, mem_evict]
  | invalidateUserTokenCache user =>
    exact (mem_invalidateUser h).trans (or_iff_right not_false).symm

theorem step_mem (h : Coherent c) {call : τ × Call ν υ} (hno : ¬ Stores user call)
    (he : e ∈ (step cfg c call).authCache) (huser : e.user = user) :
    e ∈ c.authCache := by
  refine ((mem_step h call).mp he).elim (fun hfiles => ?_) And.left
  obtain ⟨now, call⟩ := call
  cases call with
  | storeValidatedToken token validated =>
    obtain ⟨-, rfl⟩ := hfiles
    exact absurd ⟨token, validated, rfl, huser⟩ hno
  | _ => exact hfiles.elim

/-- Until a token of the user is stored, no entry is the user's. -/
theorem run_no_entry (h : Coherent c) (hnone : ∀ e ∈ c.authCache, e.user ≠ user)
    {calls : List (τ × Call ν υ)} (hno : ∀ call ∈ calls, ¬ Stores user call) :
    ∀ e ∈ (run (step cfg) c calls).authCache, e.user ≠ user := by
  induction calls generalizing c with
  | nil => exact hnone
  | cons call calls ih =>
    refine ih (h.step call) (fun e he huser => ?_) fun x hx => hno x (List.mem_cons_of_mem _ hx)
    exact hnone e (step_mem h (hno call List.mem_cons_self) he huser) huser

/-- **The index of the cache**: after every run of calls, the index has for each user exactly the
keys of the user's entries, and no empty set; and once a user's entries are invalidated, no token is
read as the user's until one is stored. -/
theorem cache_index (cfg : Settings κ τ) (calls : List (τ × Call ν υ)) :
    (∀ (user : υ) (keys : Finset κ),
      (run (step cfg) ({} : Cache κ ν υ τ) calls).authUserIndex user = some keys ↔
        keys ≠ ∅ ∧ ∀ key, key ∈ keys ↔
          ∃ e ∈ (run (step cfg) ({} : Cache κ ν υ τ) calls).authCache,
            e.key = key ∧ userId e.validated = user) ∧
    ∀ (user : υ) (later : List (τ × Call ν υ)), (∀ call ∈ later, ¬ Stores user call) →
      ∀ (now : τ) (token : String), ∀ v ∈ (getValidatedToken cfg now token (run (step cfg)
        (invalidateUserTokenCache user (run (step cfg) {} calls)) later)).1, userId v ≠ user := by
  have h : Coherent (run (step cfg) ({} : Cache κ ν υ τ) calls) := coherent_run calls
  refine ⟨fun user keys => ?_, fun user later hno now token v hv => ?_⟩
  · rw [h]
    exact indexOf_eq_some
  · obtain ⟨-, e, he, -, -, rfl⟩ := mem_getValidatedToken.mp hv
    exact run_no_entry (h.invalidateUser user) (fun e he => ((mem_invalidateUser h).mp he).2) hno e
      he

/-- **What the cache answers**, after any calls at any times: what was stored under the key of the
token, before its lifetime has passed, if no later call has found it expired, stored something else
under the key, or invalidated the token or its user. -/
theorem read_iff (cfg : Settings κ τ) (calls : List (τ × Call ν υ)) (now : τ) (token : String)
    (v : ν) : (getValidatedToken cfg now token (run (step cfg) {} calls)).1 = some v ↔
      0 < cfg.authTokenCacheTtl ∧ ∃ before stored text later,
        calls = before ++ (stored, .storeValidatedToken text v) :: later ∧
        cfg.authCacheKey text = cfg.authCacheKey token ∧ now < cfg.expiry stored ∧
        ∀ call ∈ later, Spares cfg ⟨cfg.authCacheKey token, cfg.expiry stored, v⟩ call := by
  have hmem (e : Entry κ ν τ) : e ∈ (run (step cfg) ({} : Cache κ ν υ τ) calls).authCache ↔
      ∃ before call later, calls = before ++ call :: later ∧ Files cfg e call ∧
        ∀ x ∈ later, Spares cfg e x := by
    have hstart : ¬ e ∈ ({} : Cache κ ν υ τ).authCache := Table.not_mem_empty e
    refine (holds_iff_made (I := Coherent) (H := fun c => e ∈ c.authCache)
      (fun _ call h => h.step call) (fun _ call h => mem_step h call) coherent_start calls).trans ?_
    exact or_iff_right fun he => hstart he.1
  refine mem_getValidatedToken.trans (and_congr_right fun hon => ?_)
  constructor
  · rintro ⟨e, he, hkey, hlt, rfl⟩
    obtain ⟨before, ⟨stored, call⟩, later, hcalls, hfiles, hspares⟩ := (hmem e).mp he
    cases call with
    | storeValidatedToken text v =>
      obtain ⟨-, rfl⟩ := hfiles
      exact ⟨before, stored, text, later, hcalls, hkey, hlt, hkey ▸ hspares⟩
    | _ => exact hfiles.elim
  · rintro ⟨before, stored, text, later, hcalls, hkey, hlt, hspares⟩
    exact ⟨_, (hmem _).mpr ⟨before, _, later, hcalls, ⟨hon, hkey ▸ rfl⟩, hspares⟩, rfl, hlt, rfl⟩

/-! ## The one table of the tokens' model -/

section Tokens

open Auth.Tokens (Token CachedToken second)

instance : Validated Tokens.ValidatedToken ℕ := ⟨Tokens.ValidatedToken.userId⟩

/-- The settings of the tokens' model, with the hash of a text. -/
def settingsOf (cfg : Tokens.Settings) (authCacheKey : String → κ) : Settings κ ℤ where
  authTokenCacheTtl := cfg.authTokenCacheTtl
  authCacheKey := authCacheKey
  expiry now := now + cfg.authTokenCacheTtl * second

/-- The cache has the rows of the table for the tokens in use, under the hashes of these. -/
def Represents (T : Set Token) (key : Token → κ) (c : Cache κ Tokens.ValidatedToken ℕ ℤ)
    (t : Table CachedToken) : Prop :=
  ∀ x : CachedToken, x.token ∈ T →
    (x ∈ t ↔ ⟨key x.token, x.expiresAt, x.validated⟩ ∈ c.authCache)

variable {cfg : Tokens.Settings} {s : Tokens.State} {c : Cache κ Tokens.ValidatedToken ℕ ℤ}
  {key : String → κ} {text : Token → String} {T : Set Token}

theorem represents_prune (h : Represents T (key ∘ text) c s.cache) :
    Represents T (key ∘ text) (pruneAuthCache s.clock c) (Tokens.pruneAuthCache s).cache := by
  intro x hT
  rw [mem_pruneAuthCache, ← h x hT]
  unfold Tokens.pruneAuthCache
  rw [Table.mem_deleteWhere, decide_eq_false_iff_not, not_le]

theorem represents_store (hkey : Set.InjOn (key ∘ text) T)
    (h : Represents T (key ∘ text) c s.cache) {token : Token} (htoken : token ∈ T)
    (v : Tokens.ValidatedToken) :
    Represents T (key ∘ text) (storeValidatedToken (settingsOf cfg key) s.clock (text token) v c)
      (Tokens.storeValidatedToken cfg s token v).cache := by
  intro x hT
  unfold Tokens.storeValidatedToken
  by_cases hoff : cfg.authTokenCacheTtl ≤ 0
  · have hsame : storeValidatedToken (settingsOf cfg key) s.clock (text token) v c = c :=
      if_pos hoff
    rw [if_pos hoff, hsame]
    exact h x hT
  · rw [if_neg hoff, mem_store (not_le.mp hoff), ← h x hT]
    dsimp only
    rw [Table.mem_put, represents_prune h x hT, mem_pruneAuthCache, ← h x hT]
    have htoken : (key ∘ text) x.token = key (text token) ↔ x.token = token :=
      hkey.eq_iff hT htoken
    constructor
    · rintro (rfl | ⟨hx, hne⟩)
      · exact .inl rfl
      · exact .inr ⟨hx, fun hsame => hne (htoken.mp hsame)⟩
    · rintro (heq | ⟨hx, hne⟩)
      · obtain ⟨hhash, hexpires, hv⟩ := Entry.mk.inj heq
        refine .inl ?_
        rw [← htoken.mp hhash, ← hv]
        exact congrArg (fun e => (⟨x.token, e, x.validated⟩ : CachedToken)) hexpires
      · exact .inr ⟨hx, fun hsame => hne (htoken.mpr hsame)⟩

theorem represents_get (h : Represents T (key ∘ text) c s.cache) {token : Token}
    (htoken : token ∈ T) :
    (getValidatedToken (settingsOf cfg key) s.clock (text token) c).1 =
        (Tokens.getValidatedToken cfg s token).1 ∧
      Represents T (key ∘ text) (getValidatedToken (settingsOf cfg key) s.clock (text token) c).2
        (Tokens.getValidatedToken cfg s token).2.cache := by
  have hiff : ∀ v, v ∈ (getValidatedToken (settingsOf cfg key) s.clock (text token) c).1 ↔ _ :=
    fun v => mem_getValidatedToken
  rw [getValidatedToken_snd]
  unfold Tokens.getValidatedToken
  by_cases hoff : cfg.authTokenCacheTtl ≤ 0
  · have hoff' : (settingsOf cfg key).authTokenCacheTtl ≤ 0 := hoff
    rw [if_pos hoff, if_pos hoff']
    refine ⟨Option.eq_none_iff_forall_not_mem.mpr fun v hv => ?_, h⟩
    exact absurd ((hiff v).mp hv).1 (not_lt.mpr hoff')
  · have hoff' : ¬ (settingsOf cfg key).authTokenCacheTtl ≤ 0 := hoff
    rw [if_neg hoff, if_neg hoff']
    refine ⟨Option.ext fun v => (hiff v).trans ?_, represents_prune h⟩
    dsimp only
    rw [Option.map_eq_some_iff]
    constructor
    · rintro ⟨-, ⟨_, expiresAt, v⟩, he, rfl, hlt, rfl⟩
      have hx : (⟨token, expiresAt, v⟩ : CachedToken) ∈ (Tokens.pruneAuthCache s).cache :=
        (represents_prune h _ htoken).mpr (mem_pruneAuthCache.mpr ⟨he, hlt⟩)
      exact ⟨_, Table.get?_of_mem hx, rfl⟩
    · rintro ⟨x, hget, rfl⟩
      obtain ⟨hx, rfl⟩ := Table.get?_eq_some.mp hget
      obtain ⟨hmem, hlt⟩ := mem_pruneAuthCache.mp ((represents_prune h x htoken).mp hx)
      exact ⟨not_le.mp hoff', _, hmem, rfl, hlt, rfl⟩

theorem represents_invalidateToken (hkey : Set.InjOn (key ∘ text) T)
    (h : Represents T (key ∘ text) c s.cache) {token : Token} (htoken : token ∈ T)
    (htext : text token ≠ "") :
    Represents T (key ∘ text) (invalidateTokenCache (settingsOf cfg key) (some (text token)) c)
      (s.cache.erase token) := by
  intro x hT
  have hevict : invalidateTokenCache (settingsOf cfg key) (some (text token)) c =
      evict c (key (text token)) := if_neg htext
  rw [hevict, mem_evict, Table.mem_erase, h x hT]
  exact and_congr_right fun _ => not_congr (hkey.eq_iff hT htoken).symm

theorem represents_invalidateUser (hc : Coherent c) (h : Represents T (key ∘ text) c s.cache)
    (user : ℕ) : Represents T (key ∘ text) (invalidateUserTokenCache user c)
      (s.cache.deleteWhere fun e => e.validated.userId = user) := by
  intro x hT
  rw [mem_invalidateUser hc, Table.mem_deleteWhere, decide_eq_false_iff_not, h x hT]
  rfl

/-- What the service does with the cache. -/
inductive Use (T : Set Token) where
  | store (token : T) (validated : Tokens.ValidatedToken)
  | get (token : T)
  | invalidateToken (token : T)
  | invalidateUser (user : ℕ)

def Use.call (text : Token → String) : Use T → Call Tokens.ValidatedToken ℕ
  | store token validated => .storeValidatedToken (text token) validated
  | get token => .getValidatedToken (text token)
  | invalidateToken token => .invalidateTokenCache (some (text token))
  | invalidateUser user => .invalidateUserTokenCache user

/-- The same with the one table. -/
def Use.apply (cfg : Tokens.Settings) (s : Tokens.State) : Use T → Tokens.State
  | store token validated => Tokens.storeValidatedToken cfg s token validated
  | get token => (Tokens.getValidatedToken cfg s token).2
  | invalidateToken token => { s with cache := s.cache.erase token.1 }
  | invalidateUser user =>
    { s with cache := s.cache.deleteWhere fun e => e.validated.userId = user }

theorem represents_use (hkey : Set.InjOn (key ∘ text) T) (htext : ∀ token ∈ T, text token ≠ "")
    (hc : Coherent c) (h : Represents T (key ∘ text) c s.cache) (use : ℤ × Use T) :
    Represents T (key ∘ text) (step (settingsOf cfg key) c (use.map id (Use.call text)))
      (use.2.apply cfg (s.at use.1)).cache := by
  obtain ⟨now, use⟩ := use
  have h' : Represents T (key ∘ text) c (s.at now).cache := h
  cases use with
  | store token validated => exact represents_store hkey h' token.2 validated
  | get token => exact (represents_get h' token.2).2
  | invalidateToken token => exact represents_invalidateToken hkey h' token.2 (htext token token.2)
  | invalidateUser user => exact represents_invalidateUser hc h' user

/-- **The two dictionaries refine the one table**: after the same uses at the same times, every read
gives the same, if no two of the tokens in use have the same hash. -/
theorem cache_refines (cfg : Tokens.Settings) (text : Token → String)
    (hkey : Set.InjOn (key ∘ text) T) (htext : ∀ token ∈ T, text token ≠ "")
    (users : Table Tokens.Account) (began : ℤ) (uses : List (ℤ × Use T)) (now : ℤ) {token : Token}
    (htoken : token ∈ T) :
    (getValidatedToken (settingsOf cfg key) now (text token)
        (run (step (settingsOf cfg key)) {} (uses.map (Prod.map id (Use.call text))))).1 =
      (Tokens.getValidatedToken cfg ((run (fun s use => use.2.apply cfg (s.at use.1))
        (Tokens.start users began) uses).at now) token).1 := by
  have hrun : Represents T (key ∘ text)
      (run (step (settingsOf cfg key)) {} (uses.map (Prod.map id (Use.call text))))
      (run (fun s use => use.2.apply cfg (s.at use.1)) (Tokens.start users began) uses).cache := by
    induction uses using List.reverseRecOn with
    | nil => exact fun x _ => iff_of_false (Table.not_mem_empty x) (Table.not_mem_empty _)
    | append_singleton uses use ih =>
      rw [List.map_append, List.map_singleton, run_concat, run_concat]
      exact represents_use hkey htext (coherent_run _) ih use
  have hnow : Represents T (key ∘ text) _ (Tokens.State.at _ now).cache := hrun
  exact (represents_get hnow htoken).1

def fiveSeconds : Tokens.Settings := ⟨60, 7, 5, 0, true, true⟩

def tokenOfSeven : Token := ⟨.access, 7, 100, 0, none, none⟩

def tokenOfEight : Token := ⟨.access, 8, 100, 0, none, none⟩

def twoTokens : Set Token := {tokenOfSeven, tokenOfEight}

def nameOf (token : Token) : String := if token.sub = 7 then "seven" else "eight"

theorem nameOf_injOn : Set.InjOn (id ∘ nameOf) twoTokens := by
  rintro t (rfl | rfl) t' (rfl | rfl) h
  · rfl
  · exact absurd h (by decide)
  · exact absurd h (by decide)
  · rfl

theorem nameOf_ne (token : Token) (_ : token ∈ twoTokens) : nameOf token ≠ "" := by
  unfold nameOf
  split_ifs <;> decide

/-- Both tokens are stored, and those of user 8 are invalidated. -/
def usesOfTwo : List (ℤ × Use twoTokens) :=
  [(0, .store ⟨tokenOfSeven, .inl rfl⟩ ⟨7, none, some 0⟩),
    (0, .store ⟨tokenOfEight, .inr rfl⟩ ⟨8, none, some 0⟩), (1, .invalidateUser 8)]

/-- A token's name is its hash. -/
theorem cache_refines_sample :
    (getValidatedToken (settingsOf fiveSeconds id) (3 * second) "seven"
      (run (step (settingsOf fiveSeconds id)) ({} : Cache String Tokens.ValidatedToken ℕ ℤ)
        (usesOfTwo.map (Prod.map id (Use.call nameOf))))).1 = some ⟨7, none, some 0⟩ ∧
    (getValidatedToken (settingsOf fiveSeconds id) (3 * second) "eight"
      (run (step (settingsOf fiveSeconds id)) ({} : Cache String Tokens.ValidatedToken ℕ ℤ)
        (usesOfTwo.map (Prod.map id (Use.call nameOf))))).1 = none :=
  ⟨(cache_refines fiveSeconds nameOf nameOf_injOn nameOf_ne .empty 0 usesOfTwo (3 * second)
      (.inl rfl : tokenOfSeven ∈ twoTokens)).trans rfl,
    (cache_refines fiveSeconds nameOf nameOf_injOn nameOf_ne .empty 0 usesOfTwo (3 * second)
      (.inr rfl : tokenOfEight ∈ twoTokens)).trans rfl⟩

/-- A token is its own hash. -/
def plain : Settings String ℤ := ⟨5, id, (· + 5)⟩

/-- A token of user 7 is stored, all of the user's are invalidated, and one of user 8 is stored. -/
theorem cache_index_sample : ¬ ∃ v ∈ (getValidatedToken plain 3 "seven" (run (step plain)
    (invalidateUserTokenCache 7 (run (step plain) {}
      [(1, .storeValidatedToken "seven" (⟨7, none, none⟩ : Tokens.ValidatedToken))]))
    [(2, .storeValidatedToken "eight" ⟨8, none, none⟩)])).1, userId v = 7 := by
  rintro ⟨v, hv, hseven⟩
  refine (cache_index plain _).2 7 _ ?_ 3 "seven" v hv hseven
  rintro call hcall ⟨token, v, hv, huser⟩
  obtain rfl := List.mem_singleton.mp hcall
  obtain ⟨rfl, rfl⟩ := Call.storeValidatedToken.inj hv
  exact absurd huser (by decide)

end Tokens

end WezuBackend.Auth.TokenCache
