import WezuBackend.Auth.Tokens

/-!
# Issued tokens

Every endpoint that answers with a pair of tokens promises that they will be accepted.  A ledger
keeps the pairs that were answered to active users, until they are rotated or logged out.  They work
as long as those that issue them write a session, and issue nothing within the second of a logout
that would cover it (`issued_tokens_work`).
-/

namespace WezuBackend.Auth.IssuedTokens

open Lib.Tables Lib.Runs Core.Base Auth.Tokens

/-! ## The ledger -/

structure Ledger where
  state : State
  /-- the pairs that were answered to active users and are not over -/
  promised : List Pair

def ActiveUser (s : State) (p : Pair) : Prop :=
  ∃ u ∈ s.users, u.id = p.subject ∧ u.isActive = true ∧ u.isDeleted = false

instance (s : State) (p : Pair) : Decidable (ActiveUser s p) := by
  unfold ActiveUser
  infer_instance

/-- An answered request ends what was promised for the pair. -/
def Over (cfg : Settings) (s : State) (p : Pair) : Request → Prop
  | .refreshToken token => p.refresh cfg = token
  | .logout token => p.login ∈ loginsOf cfg s token
  | .logoutAll token => p.subject = token.sub
  | _ => False

instance (cfg : Settings) (s : State) (p : Pair) (request : Request) :
    Decidable (Over cfg s p request) := by
  cases request <;> dsimp only [Over] <;> infer_instance

def Ledger.arrival (w : Ledger) (e : Event) : State := w.state.at (w.state.clock + e.elapsed)

def ledger (cfg : Settings) (w : Ledger) (e : Event) : Ledger :=
  let s := w.arrival e
  let answer := handle cfg s e.request
  { state := answer.2
    promised :=
      match answer.1 with
      | .error _ => w.promised
      | .ok pair => (pair.toList.filter fun p => ActiveUser answer.2 p) ++
          w.promised.filter fun p => ¬ Over cfg s p e.request }

def Ledger.start (users : Table Account) (now : ℤ) : Ledger := ⟨Tokens.start users now, []⟩

/-- From now on both tokens are accepted until they expire. -/
def Works (cfg : Settings) (s : State) (p : Pair) : Prop :=
  ∀ now, s.clock ≤ now →
    (now < (p.access cfg).exp * second →
      (getUserFromToken cfg (s.at now) (p.access cfg)).1.isOk = true) ∧
    (now < (p.refresh cfg).exp * second →
      (refreshToken cfg (s.at now) (p.refresh cfg)).1.isOk = true)

/-- No logout from everywhere covers what is issued to the user now. -/
def Uncovered (cfg : Settings) (s : State) (u : Account) : Prop :=
  ∀ t ∈ u.lastGlobalLogoutAt, cfg.usersNaive = true ∧ t ≤ seconds s.clock * second

instance (cfg : Settings) (s : State) (u : Account) : Decidable (Uncovered cfg s u) := by
  unfold Uncovered
  infer_instance

/-- The requests whose pairs work: a login or a refresh of a user without a logout from everywhere
in this second, where the times of sessions can be compared; no social login with the text of an
access token that was logged out; no refresh with a session that has run out while the access token
has time left; no registration and no role selection. -/
def Proper (cfg : Settings) (s : State) : Request → Prop
  | .processLogin found | .login found =>
    ∀ u ∈ found.bind s.users.get?, u.isActive = true → u.isDeleted = false →
      cfg.sessionsNaive = false ∧ Uncovered cfg s u
  | .verifyRegistrationOtp found =>
    (∀ u ∈ found.bind s.users.get?, u.isDeleted = false →
      cfg.sessionsNaive = false ∧ Uncovered cfg s u) ∧
    (found.bind s.users.get? = none → cfg.sessionsNaive = false)
  | .socialLogin found =>
    (∀ u ∈ found.bind s.users.get?, u.isActive = true → u.isDeleted = false →
      cfg.sessionsNaive = false ∧ Uncovered cfg s u ∧
        s.blacklist.get? (createAccessToken cfg u.id none s.clock) = none) ∧
    (found.bind s.users.get? = none → cfg.sessionsNaive = false)
  | .refreshToken token =>
    ∀ r ∈ activeSession cfg s token,
      ((∃ e ∈ r.expiresAt, e < s.clock) → ∀ p ∈ s.pairs, p.refresh cfg = token →
        (p.access cfg).exp * second ≤ s.clock) ∧
      ∀ u ∈ s.users.get? token.sub, u.isActive = true → u.isDeleted = false → Uncovered cfg s u
  | .registerWithPassword => False
  | .selectRole token => (getUserFromToken cfg s token).1.isOk = false
  | _ => True

instance (cfg : Settings) (s : State) (request : Request) : Decidable (Proper cfg s request) := by
  cases request <;> dsimp only [Proper] <;> infer_instance

/-! ## What makes a pair work -/

variable {cfg : Settings} {s : State} {p : Pair} {token : Token}

/-- The pair meets every check. -/
structure Good (cfg : Settings) (s : State) (p : Pair) : Prop where
  mem : p ∈ s.pairs
  session : ∃ r ∈ s.sessions, r.Of cfg p ∧ r.isActive = true
  unlisted : s.blacklist.get? (p.access cfg) = none
  user : ∃ u ∈ s.users, u.id = p.subject ∧ u.isActive = true ∧ u.isDeleted = false ∧
    ∀ t ∈ u.lastGlobalLogoutAt, cfg.usersNaive = true ∧ t ≤ seconds p.issuedAt * second
  aware : cfg.sessionsNaive = false

theorem Good.works (h : Good cfg s p) (hs : Consistent cfg s) : Works cfg s p := by
  intro now hnow
  have hs' : Consistent cfg (s.at now) := hs.at hnow
  obtain ⟨r, hr, hrp, hactive⟩ := h.session
  obtain ⟨u, hu, hid, huactive, hdeleted, hcovered⟩ := h.user
  constructor
  · intro hlt
    have hget : (s.at now).users.get? (p.access cfg).sub = some u := by
      rw [Pair.access_sub, ← hid]
      exact Table.get?_of_mem hu
    have huser : userOf cfg (s.at now) (validatedOf (p.access cfg)) = .ok u := by
      have hcheck : checkUser cfg.usersNaive u (validatedOf (p.access cfg)) = .ok () := by
        simp only [checkUser, hdeleted, huactive, Bool.false_eq_true, if_false, Bool.true_eq_false]
        cases ht : u.lastGlobalLogoutAt with
        | none => rfl
        | some t =>
          obtain ⟨hnaive, hle⟩ := hcovered t ht
          have hnot : ¬ (p.access cfg).iat * second < t := by
            rw [Pair.access_iat]
            omega
          simp only [validatedOf, hnaive, Bool.true_eq_false, if_false, if_neg hnot, ite_self]
      simp only [userOf, validatedOf] at hcheck ⊢
      rw [hget]
      simp only [hcheck]
      rfl
    have hvalid : validateLocalAccessToken cfg (s.at now) (p.access cfg) =
        .ok (validatedOf (p.access cfg)) := by
      refine validateLocalAccessToken_ok.mpr ⟨⟨⟨p, h.mem, .inl rfl⟩, ?_⟩, h.unlisted, ?_, rfl⟩
      · have hlt' : seconds now < (p.access cfg).exp := Int.ediv_lt_of_lt_mul (by decide) hlt
        show seconds now ≤ (p.access cfg).exp
        omega
      · intro sid hsid
        have hjti : p.jti = sid := (Pair.Has.of_sid (.inl rfl) hsid).2.2
        exact ⟨r, hs'.findSession_eq hr (hjti ▸ hrp.tokenId), hactive⟩
    rw [getUserFromToken_of_valid hs' hvalid huser]
    rfl
  · intro hlt
    have hleft : now ≤ p.issuedAt + cfg.refreshLifetime := by
      have hexp : (p.refresh cfg).exp * second ≤ p.issuedAt + cfg.refreshLifetime :=
        seconds_le_iff.mp (Int.le_refl _)
      omega
    obtain ⟨pair, hpair⟩ := refreshToken_of_valid hs' h.aware hr hactive h.mem hrp hleft hu hid
    rw [hpair]
    rfl

/-! ## What keeps it good -/

namespace Good

theorem later (h : Good cfg s p) (now : ℤ) : Good cfg (s.at now) p :=
  ⟨h.mem, h.session, h.unlisted, h.user, h.aware⟩

protected theorem cache (h : Good cfg s p) (t : Table CachedToken) :
    Good cfg { s with cache := t } p :=
  ⟨h.mem, h.session, h.unlisted, h.user, h.aware⟩

protected theorem users (h : Good cfg s p) {t : Table Account}
    (ht : ∀ u ∈ s.users, u.id = p.subject → ∃ u' ∈ t, u'.id = u.id ∧
      (u.isActive = true → u'.isActive = true) ∧ u'.isDeleted = u.isDeleted ∧
        u'.lastGlobalLogoutAt = u.lastGlobalLogoutAt) : Good cfg { s with users := t } p := by
  obtain ⟨u, hu, hid, hactive, hdeleted, hcovered⟩ := h.user
  obtain ⟨u', hu', hid', hactive', hdeleted', hlogout⟩ := ht u hu hid
  exact ⟨h.mem, h.session, h.unlisted, ⟨u', hu', hid'.trans hid, hactive' hactive,
    hdeleted'.trans hdeleted, hlogout ▸ hcovered⟩, h.aware⟩

protected theorem blacklist (h : Good cfg s p) {t : Table BlacklistedToken}
    (ht : ∀ b ∈ t, b ∈ s.blacklist ∨ b.token ≠ p.access cfg) :
    Good cfg { s with blacklist := t } p := by
  refine ⟨h.mem, h.session, Table.get?_eq_none.mpr fun b hb => ?_, h.user, h.aware⟩
  rcases ht b hb with hb | hne
  · exact Table.get?_eq_none.mp h.unlisted b hb
  · exact hne

protected theorem sessions (h : Good cfg s p) {t : Table UserSession}
    (ht : ∀ r ∈ s.sessions, r.Of cfg p → r ∈ t) : Good cfg { s with sessions := t } p := by
  obtain ⟨r, hr, hrp, hactive⟩ := h.session
  exact ⟨h.mem, ⟨r, ht r hr hrp, hrp, hactive⟩, h.unlisted, h.user, h.aware⟩

protected theorem sign (h : Good cfg s p) {subject : ℕ} {hasSid : Bool} {l : Option ℕ} :
    Good cfg (sign s subject hasSid l).2 p :=
  ⟨mem_pairs_sign.mpr (.inl h.mem), h.session, h.unlisted, h.user, h.aware⟩

protected theorem opened (h : Good cfg s p) {subject : ℕ} {hasSid : Bool} :
    Good cfg (opened cfg s subject hasSid) p :=
  h.sign.sessions fun _ hr _ => (Table.mem_add_mk fun _ => rfl).mpr (.inl hr)

protected theorem rotated (h : Good cfg s p) {r : UserSession} (hr : r ∈ s.sessions) {q : Pair}
    (hq : q ∈ s.pairs) (hrq : r.Of cfg q) (hne : p ≠ q) :
    Good cfg (rotated cfg s r q.subject q.login) p :=
  h.sign.sessions fun x hx hxp => by
    refine (mem_sessions_rotated hr hrq.userId).mpr (.inl ⟨hx, fun hid => hne ?_⟩)
    have hxr : x = r := Table.eq_of_key hx hr hid
    exact Consistent.of_jti h.mem hq hxp (hxr ▸ hrq.tokenId)

protected theorem revoked (h : Good cfg s p) {r : UserSession} {q : Pair} (hr : r ∈ s.sessions)
    (hq : q ∈ s.pairs) (hrq : r.Of cfg q) (hne : p ≠ q) : Good cfg (revoked s r) p :=
  h.sessions fun x hx hxp => by
    refine Table.mem_set.mpr (.inl ⟨hx, fun hid => hne ?_⟩)
    have hxr : x = r := Table.eq_of_key hx hr hid
    exact Consistent.of_jti h.mem hq hxp (hxr ▸ hrq.tokenId)

end Good

/-! ## What holds besides -/

/-- Pairs are of users, and what was logged out had been signed. -/
structure Base (cfg : Settings) (s : State) : Prop where
  consistent : Consistent cfg s
  owner : ∀ p ∈ s.pairs, ∃ u ∈ s.users, u.id = p.subject
  listed : ∀ b ∈ s.blacklist, Signed cfg s b.token

variable {now : ℤ}

namespace Base

theorem later (h : Base cfg s) (hnow : s.clock ≤ now) : Base cfg (s.at now) :=
  ⟨h.consistent.at hnow, h.owner, h.listed⟩

protected theorem users (h : Base cfg s) {t : Table Account}
    (ht : ∀ u ∈ s.users, ∃ u' ∈ t, u'.id = u.id) : Base cfg { s with users := t } where
  consistent := h.consistent.users t
  owner p hp := by
    obtain ⟨u, hu, hid⟩ := h.owner p hp
    obtain ⟨u', hu', hid'⟩ := ht u hu
    exact ⟨u', hu', hid'.trans hid⟩
  listed := h.listed

protected theorem sign (h : Base cfg s) {subject : ℕ} (hsubject : ∃ u ∈ s.users, u.id = subject)
    {hasSid : Bool} {l : Option ℕ} (hs : Consistent cfg (sign s subject hasSid l).2) :
    Base cfg (sign s subject hasSid l).2 where
  consistent := hs
  owner p hp := by
    rcases mem_pairs_sign.mp hp with hp | rfl
    · exact h.owner p hp
    · exact hsubject
  listed b hb := (h.listed b hb).sign

protected theorem opened (h : Base cfg s) {subject : ℕ} (hsubject : ∃ u ∈ s.users, u.id = subject)
    {hasSid : Bool} : Base cfg (opened cfg s subject hasSid) :=
  ⟨h.consistent.opened, (h.sign hsubject h.consistent.signNew).owner,
    (h.sign hsubject h.consistent.signNew).listed⟩

protected theorem rotated (h : Base cfg s) {r : UserSession} (hr : r ∈ s.sessions) {q : Pair}
    (hq : q ∈ s.pairs) (hrq : r.Of cfg q) : Base cfg (rotated cfg s r q.subject q.login) := by
  have hs : Consistent cfg (sign s q.subject true (some q.login)).2 :=
    h.consistent.sign fun i hi => ⟨q, hq, Option.some.inj hi⟩
  exact ⟨h.consistent.rotated hr hq hrq, (h.sign (h.owner q hq) hs).owner,
    (h.sign (h.owner q hq) hs).listed⟩

theorem getUserFromToken (h : Base cfg s) (token : Token) :
    Base cfg (Tokens.getUserFromToken cfg s token).2 := by
  obtain ⟨-, t, hstate, -⟩ := getUserFromToken_spec h.consistent token
  have hs := h.consistent.getUserFromToken token
  rw [hstate] at hs ⊢
  exact ⟨hs, h.owner, h.listed⟩

variable {subject : ℕ}

/-- The access token of a new login with a session id has not been logged out. -/
theorem unlisted_of_sid (h : Base cfg s) {l : Option ℕ} :
    s.blacklist.get? ((nextPair s subject true l).access cfg) = none := by
  refine Table.get?_eq_none.mpr fun b hb htoken => ?_
  obtain ⟨q, hq, hhas⟩ := h.listed b hb
  have hb' : b.token = (nextPair s subject true l).access cfg := htoken
  rw [hb'] at hhas
  have hjti : q.jti = (nextPair s subject true l).jti := (hhas.of_sid rfl).2.2
  have hlt : q.jti < (nextPair s subject true l).jti := jti_lt_nextPair hq
  omega

theorem unlisted_of_new (h : Base cfg s) (hnew : ∀ u ∈ s.users, u.id ≠ subject)
    (hsub : token.sub = subject) : s.blacklist.get? token = none := by
  refine Table.get?_eq_none.mpr fun b hb htoken => ?_
  obtain ⟨q, hq, hhas⟩ := h.listed b hb
  have hb' : b.token = token := htoken
  obtain ⟨u, hu, hid⟩ := h.owner q hq
  refine hnew u hu ?_
  rw [hid, ← hhas.sub, hb', hsub]

end Base

variable {u : Account}

theorem good_opened (hu : u ∈ s.users) {hasSid : Bool} (hactive : u.isActive = true)
    (hdeleted : u.isDeleted = false) (haware : cfg.sessionsNaive = false)
    (huncovered : Uncovered cfg s u)
    (hunlisted : s.blacklist.get? ((nextPair s u.id hasSid none).access cfg) = none) :
    Good cfg (opened cfg s u.id hasSid) (nextPair s u.id hasSid none) where
  mem := mem_pairs_sign.mpr (.inr rfl)
  session := ⟨_, (Table.mem_add_mk fun _ => rfl).mpr (.inr rfl), sessionOf_of _ _, rfl⟩
  unlisted := hunlisted
  user := ⟨u, hu, rfl, hactive, hdeleted, huncovered⟩
  aware := haware

theorem good_rotated (hs : Base cfg s) {r : UserSession} (hr : r ∈ s.sessions)
    (hract : r.isActive = true) {q : Pair} (hrq : r.Of cfg q) (hu : u ∈ s.users)
    (hid : u.id = q.subject) (hactive : u.isActive = true) (hdeleted : u.isDeleted = false)
    (haware : cfg.sessionsNaive = false) (huncovered : Uncovered cfg s u) :
    Good cfg (rotated cfg s r q.subject q.login) (nextPair s q.subject true (some q.login)) where
  mem := mem_pairs_sign.mpr (.inr rfl)
  session := ⟨_, (mem_sessions_rotated hr hrq.userId).mpr (.inr rfl), ⟨rfl, rfl, rfl, rfl⟩, hract⟩
  unlisted := hs.unlisted_of_sid
  user := ⟨u, hu, hid, hactive, hdeleted, huncovered⟩
  aware := haware

/-! ## The requests -/

/-- Nothing of the pair is left to be accepted. -/
def Spent (cfg : Settings) (s : State) (p : Pair) : Prop :=
  (p.access cfg).exp * second ≤ s.clock ∧ (p.refresh cfg).exp * second ≤ s.clock

/-- What a proper request leaves behind. -/
structure Keeps (cfg : Settings) (s : State) (ended : Pair → Prop)
    (after : Except Exc (Option Pair) × State) : Prop where
  base : Base cfg after.2
  clock : after.2.clock = s.clock
  kept : ∀ p, Good cfg s p → (after.1.isOk = true → ¬ ended p) → ¬ Spent cfg s p →
    Good cfg after.2 p
  fresh : ∀ p, after.1 = .ok (some p) → ActiveUser after.2 p → Good cfg after.2 p

variable {ended : Pair → Prop}

theorem Base.keeps_error (h : Base cfg s) (e : Exc) : Keeps cfg s ended (.error e, s) :=
  ⟨h, rfl, fun _ hp _ _ => hp, nofun⟩

variable {found : Option ℕ}

theorem keeps_passwordLogin (h : Base cfg s) (unknown inactive : Exc)
    (hproper : Proper cfg s (.login found)) :
    Keeps cfg s ended ((passwordLogin unknown inactive cfg s found).map (Except.map some) id) := by
  rcases passwordLogin_cases unknown inactive cfg s found with ⟨e, heq⟩ | ⟨u, hu, hactive, heq⟩
  · rw [heq]
    exact h.keeps_error e
  · rw [heq]
    have hmem : u ∈ s.users := mem_of_found hu
    refine ⟨h.opened ⟨u, hmem, rfl⟩, rfl, fun p hp _ _ => hp.opened, ?_⟩
    rintro p hanswer ⟨u', hu', hid, -, hdeleted⟩
    obtain rfl := Option.some.inj (Except.ok.inj hanswer)
    have huu : u' = u := Table.eq_of_key hu' hmem hid
    obtain ⟨haware, huncovered⟩ := hproper u hu hactive (huu ▸ hdeleted)
    exact good_opened hmem hactive (huu ▸ hdeleted) haware huncovered h.unlisted_of_sid

theorem findOrCreateUser_keeps (h : Base cfg s) (found : Option ℕ) :
    Base cfg (findOrCreateUser s found).2 ∧ (∀ p, Good cfg s p →
      Good cfg (findOrCreateUser s found).2 p) ∧ (findOrCreateUser s found).2.clock = s.clock ∧
      ∃ u ∈ (findOrCreateUser s found).2.users, u.id = (findOrCreateUser s found).1 := by
  rcases findOrCreateUser_spec s found with ⟨u, hu, heq⟩ | ⟨-, heq⟩
  · rw [heq]
    exact ⟨h, fun _ hp => hp, rfl, u, mem_of_found hu, rfl⟩
  · rw [heq]
    have hold : ∀ u ∈ s.users, u ∈ s.users.add newUser fun _ => rfl := fun u hu =>
      (Table.mem_add_mk fun _ => rfl).mpr (.inl hu)
    refine ⟨h.users fun u hu => ⟨u, hold u hu, rfl⟩, fun p hp => hp.users fun u hu _ =>
      ⟨u, hold u hu, rfl, id, rfl, rfl⟩, rfl, _, (Table.mem_add_mk fun _ => rfl).mpr (.inr rfl),
      rfl⟩

theorem user_of_findOrCreateUser
    (hu : u ∈ (findOrCreateUser s found).2.users) (hid : u.id = (findOrCreateUser s found).1) :
    u ∈ found.bind s.users.get? ∨ found.bind s.users.get? = none ∧
      (∀ x ∈ s.users, x.id ≠ u.id) ∧ u.lastGlobalLogoutAt = none := by
  rcases findOrCreateUser_spec s found with ⟨v, hv, heq⟩ | ⟨hnone, heq⟩
  · rw [heq] at hu hid
    have huv : u = v := Table.eq_of_key hu (mem_of_found hv) hid
    exact .inl (huv ▸ hv)
  · rw [heq] at hu hid
    have hnew : ∀ x ∈ s.users, x.id ≠ u.id := fun x hx hxid => by
      have hlt := Table.key_lt_freshKey hx
      have hkey : Row.key x = s.users.freshKey := hxid.trans hid
      omega
    rcases (Table.mem_add_mk fun _ => rfl).mp hu with hu | rfl
    · exact absurd rfl (hnew u hu)
    · exact .inr ⟨hnone, hnew, rfl⟩

variable {userId : ℕ}

theorem mem_activate (h : u ∈ (activate s userId).users)
    (hid : u.id = userId) : ∃ x ∈ s.users, x.id = userId ∧ u = { x with isActive := true } := by
  simp only [activate, Table.mem_update, decide_eq_true_eq] at h
  obtain ⟨x, hx, rfl⟩ := h
  split_ifs at hid ⊢ with hx'
  · exact ⟨x, hx, hx', rfl⟩
  · exact absurd hid hx'

theorem exists_activate (hu : u ∈ s.users) (userId : ℕ) :
    ∃ u' ∈ (activate s userId).users, u'.id = u.id ∧ (u.isActive = true → u'.isActive = true) ∧
      u'.isDeleted = u.isDeleted ∧ u'.lastGlobalLogoutAt = u.lastGlobalLogoutAt := by
  simp only [activate, Table.mem_update, decide_eq_true_eq]
  by_cases hid : u.id = userId
  · exact ⟨{ u with isActive := true }, ⟨u, hu, if_pos hid⟩, rfl, fun _ => rfl, rfl, rfl⟩
  · exact ⟨u, ⟨u, hu, if_neg hid⟩, rfl, id, rfl, rfl⟩

theorem keeps_verifyRegistrationOtp (h : Base cfg s)
    (hproper : Proper cfg s (.verifyRegistrationOtp found)) :
    Keeps cfg s ended ((verifyRegistrationOtp cfg s found).map (.ok ∘ some) id) := by
  obtain ⟨hbase, hgood, hclock, u₁, hu₁, hid₁⟩ := findOrCreateUser_keeps h found
  have hbase' : Base cfg (activate (findOrCreateUser s found).2 (findOrCreateUser s found).1) :=
    hbase.users fun u hu => by
      obtain ⟨u', hu', hid, -⟩ := exists_activate hu (findOrCreateUser s found).1
      exact ⟨u', hu', hid⟩
  obtain ⟨u₂, hu₂, hid₂, -⟩ := exists_activate hu₁ (findOrCreateUser s found).1
  refine ⟨hbase'.opened ⟨u₂, hu₂, hid₂.trans hid₁⟩, hclock, fun p hp _ _ => ?_, ?_⟩
  · exact ((hgood p hp).users fun u hu _ => exists_activate hu _).opened
  rintro p hanswer ⟨u, hu, hid, hactive, hdeleted⟩
  have hpair : p = nextPair (activate (findOrCreateUser s found).2 (findOrCreateUser s found).1)
      (findOrCreateUser s found).1 true none := (Option.some.inj (Except.ok.inj hanswer)).symm
  rw [hpair] at hid ⊢
  have hid : u.id = (findOrCreateUser s found).1 := hid
  have hu : u ∈ (activate (findOrCreateUser s found).2 (findOrCreateUser s found).1).users := hu
  obtain ⟨x, hx, hxid, hux⟩ := mem_activate hu hid
  have hsafe : cfg.sessionsNaive = false ∧ Uncovered cfg s u := by
    rw [hux] at hdeleted ⊢
    rcases user_of_findOrCreateUser hx hxid with hfound | ⟨hnone, -, hnever⟩
    · exact hproper.1 x hfound hdeleted
    · exact ⟨hproper.2 hnone, fun t ht => absurd (hnever.symm.trans ht) (by simp)⟩
  have hopened := good_opened hu hactive hdeleted hsafe.1 (fun t ht => hclock ▸ hsafe.2 t ht)
    (hbase'.unlisted_of_sid (l := none))
  rw [hid] at hopened
  exact hopened

theorem keeps_socialLogin (h : Base cfg s) (hproper : Proper cfg s (.socialLogin found)) :
    Keeps cfg s ended ((socialLogin cfg s found).map (.ok ∘ some) id) := by
  obtain ⟨hbase, hgood, hclock, u₁, hu₁, hid₁⟩ := findOrCreateUser_keeps h found
  refine ⟨hbase.opened ⟨u₁, hu₁, hid₁⟩, hclock, fun p hp _ _ => (hgood p hp).opened, ?_⟩
  rintro p hanswer ⟨u, hu, hid, hactive, hdeleted⟩
  have hpair : p = nextPair (findOrCreateUser s found).2 (findOrCreateUser s found).1 false none :=
    (Option.some.inj (Except.ok.inj hanswer)).symm
  rw [hpair] at hid ⊢
  have hid : u.id = (findOrCreateUser s found).1 := hid
  have hu : u ∈ (findOrCreateUser s found).2.users := hu
  have hsafe : cfg.sessionsNaive = false ∧ Uncovered cfg s u ∧
      s.blacklist.get? (createAccessToken cfg u.id none s.clock) = none := by
    rcases user_of_findOrCreateUser hu hid with hfound | ⟨hnone, hnew, hnever⟩
    · exact hproper.1 u hfound hactive hdeleted
    · exact ⟨hproper.2 hnone, fun t ht => absurd (hnever.symm.trans ht) (by simp),
        h.unlisted_of_new hnew rfl⟩
  have hlisted : (findOrCreateUser s found).2.blacklist = s.blacklist := by
    rcases findOrCreateUser_spec s found with ⟨v, -, heq⟩ | ⟨-, heq⟩ <;> rw [heq]
  have hunlisted : (findOrCreateUser s found).2.blacklist.get?
      ((nextPair (findOrCreateUser s found).2 u.id false none).access cfg) = none := by
    have haccess : (nextPair (findOrCreateUser s found).2 u.id false none).access cfg =
        createAccessToken cfg u.id none s.clock := by
      rw [← hclock]
      rfl
    rw [hlisted, haccess]
    exact hsafe.2.2
  have hopened := good_opened hu hactive hdeleted hsafe.1 (fun t ht => hclock ▸ hsafe.2.1 t ht)
    hunlisted
  rw [hid] at hopened
  exact hopened

theorem keeps_refreshToken (h : Base cfg s) (hproper : Proper cfg s (.refreshToken token)) :
    Keeps cfg s (fun p => Over cfg s p (.refreshToken token))
      ((refreshToken cfg s token).map (Except.map some) id) := by
  rcases refreshToken_cases h.consistent token with ⟨e, s', heq, rfl | ⟨r, hr, hexpired, rfl⟩⟩ |
    ⟨haware, r, hr, hractive, q, hq, hrq, rfl, heq⟩
  · rw [heq]
    exact h.keeps_error e
  · -- the session has run out
    rw [heq]
    obtain ⟨hmem, -, q, hq, hrq, htoken, -⟩ := (activeSession_eq_some h.consistent).mp hr
    refine ⟨⟨h.consistent.revoked hmem, h.owner, h.listed⟩, rfl, fun p hp _ hleft => ?_, nofun⟩
    refine hp.revoked hmem hq hrq fun hpq => hleft ⟨?_, ?_⟩
    · exact (hproper r hr).1 hexpired p hp.mem (hpq ▸ htoken.symm)
    · obtain ⟨e', he', hlt⟩ := hexpired
      have hend : q.issuedAt + cfg.refreshLifetime = e' :=
        Option.some.inj (hrq.expiresAt.symm.trans he')
      have hexp : (q.refresh cfg).exp * second ≤ q.issuedAt + cfg.refreshLifetime :=
        seconds_le_iff.mp (Int.le_refl _)
      rw [hpq]
      omega
  · rw [heq]
    refine ⟨h.rotated hr hq hrq, rfl, fun p hp hover _ => hp.rotated hr hq hrq fun hpq => ?_, ?_⟩
    · exact hover rfl (congrArg (Pair.refresh cfg) hpq)
    rintro p hanswer ⟨u, hu, hid, hactive, hdeleted⟩
    have hpair : p = nextPair s q.subject true (some q.login) :=
      (Option.some.inj (Except.ok.inj hanswer)).symm
    rw [hpair] at hid ⊢
    have hid : u.id = q.subject := hid
    have hu : u ∈ s.users := hu
    have hget : s.users.get? (q.refresh cfg).sub = some u := by
      rw [Pair.refresh_sub, ← hid]
      exact Table.get?_of_mem hu
    have hsession : activeSession cfg s (q.refresh cfg) ≠ none := by
      intro hnone
      rw [refreshToken, validateSession_of_none hnone] at heq
      exact absurd heq (by simp)
    obtain ⟨r', hr'⟩ := Option.ne_none_iff_exists'.mp hsession
    exact good_rotated h hr hractive hrq hu hid hactive hdeleted haware
      ((hproper r' hr').2 u hget hactive hdeleted)

section Bearer

variable {α : Type} {request : Account → State → α × State} {f : α → Option Pair}

/-- A request with a bearer that is accepted or not; the cache has changed by then. -/
theorem keeps_withCurrentUser (h : Base cfg s)
    (hrequest : ∀ user s', Base cfg s' → (∀ p, Good cfg s p → Good cfg s' p) →
      s'.clock = s.clock → user ∈ s'.users → user.id = token.sub → s'.pairs = s.pairs →
      (getUserFromToken cfg s token).1 = .ok user →
      Keeps cfg s ended (.ok (f (request user s').1), (request user s').2)) :
    Keeps cfg s ended ((withCurrentUser cfg s token request).map (Except.map f) id) := by
  have hbase := h.getUserFromToken token
  obtain ⟨haccepted, t, hstate, -⟩ := getUserFromToken_spec h.consistent token
  cases hget : (getUserFromToken cfg s token).1 with
  | error e =>
    rw [withCurrentUser_error hget]
    rw [hstate] at hbase ⊢
    exact ⟨hbase, rfl, fun p hp _ _ => hp.cache t, nofun⟩
  | ok user =>
    rw [withCurrentUser_ok hget]
    obtain ⟨hmem, hid⟩ := userOf_ok (haccepted user hget).2
    rw [hstate] at hbase ⊢
    exact hrequest user _ hbase (fun p hp => hp.cache t) rfl hmem hid rfl hget

end Bearer

theorem keeps_selectRole (h : Base cfg s) (hproper : Proper cfg s (.selectRole token)) :
    Keeps cfg s ended ((selectRole cfg s token).map (Except.map some) id) := by
  refine keeps_withCurrentUser h fun user s' _ _ _ _ _ _ hok => ?_
  have hrefused : (getUserFromToken cfg s token).1.isOk = false := hproper
  rw [hok] at hrefused
  exact absurd hrefused (by simp [Except.isOk, Except.toBool])

theorem Good.revokeSession (h : Good cfg s p) (hs : Consistent cfg s) (hno : ¬ p.Has cfg token) :
    Good cfg (revokeSession cfg s token) p := by
  unfold Tokens.revokeSession
  split_ifs with hdecodes
  · cases hfind : (token.jti.or token.sid).bind (findSession s) with
    | none => exact h
    | some r =>
      obtain ⟨i, hi, hr⟩ := Option.bind_eq_some_iff.mp hfind
      obtain ⟨hmem, hid⟩ := findSession_eq_some hr
      obtain ⟨q, hq, hhas⟩ := hdecodes.1
      have hjti : q.jti = i := by
        rcases Option.or_eq_some_iff.mp hi with hi | ⟨-, hi⟩
        · exact (hhas.of_jti hi).2
        · exact (hhas.of_sid hi).2.2
      have hrq : r.Of cfg q := hs.of_tokenId hmem hq (hjti ▸ hid)
      have hne : p ≠ q := fun hpq => hno (hpq ▸ hhas)
      exact (h.revoked hmem hq hrq hne).cache _
  · exact h

theorem Good.blacklistToken (h : Good cfg s p) (hno : ¬ p.Has cfg token) :
    Good cfg (blacklistToken cfg s token) p := by
  obtain ⟨b, heq, hb⟩ := blacklistToken_spec cfg s token
  rw [heq]
  refine h.blacklist fun x hx => (hb x hx).imp_right fun ⟨htoken, _⟩ haccess => ?_
  exact hno (.inl (htoken.symm.trans haccess))

theorem Base.revokeSession (h : Base cfg s) (token : Token) :
    Base cfg (revokeSession cfg s token) := by
  have hs := h.consistent.revokeSession token
  obtain ⟨t, c, heq, -⟩ := revokeSession_spec cfg s token
  rw [heq] at hs ⊢
  exact ⟨hs, h.owner, h.listed⟩

theorem Base.blacklistToken (h : Base cfg s) (token : Token) :
    Base cfg (blacklistToken cfg s token) := by
  obtain ⟨b, heq, hb⟩ := blacklistToken_spec cfg s token
  rw [heq]
  refine ⟨h.consistent.blacklist b, h.owner, fun x hx => ?_⟩
  rcases hb x hx with hx | ⟨htoken, hsigned⟩
  · exact h.listed x hx
  · exact htoken ▸ hsigned

theorem keeps_logout (h : Base cfg s) :
    Keeps cfg s (fun p => Over cfg s p (.logout token))
      ((logout cfg s token).map (Except.map fun _ => none) id) := by
  refine keeps_withCurrentUser h fun user s' hbase hgood hclock _ _ hpairs _ => ?_
  have hclock' : (blacklistToken cfg (revokeSession cfg s' token) token).clock = s.clock := by
    obtain ⟨b, heq, -⟩ := blacklistToken_spec cfg (revokeSession cfg s' token) token
    obtain ⟨t, c, heq', -⟩ := revokeSession_spec cfg s' token
    rw [heq, heq']
    exact hclock
  refine ⟨(hbase.revokeSession token).blacklistToken token, hclock', fun p hp hover _ => ?_, nofun⟩
  have hno : ¬ p.Has cfg token := fun hhas =>
    hover rfl (mem_loginsOf.mpr ⟨p, hp.mem, hhas, rfl⟩)
  exact ((hgood p hp).revokeSession hbase.consistent hno).blacklistToken hno

theorem Good.revokeAllUserSessions (h : Good cfg s p) (hne : p.subject ≠ userId) :
    Good cfg (revokeAllUserSessions s userId) p := by
  obtain ⟨r, hr, hrp, hactive⟩ := h.session
  obtain ⟨u, hu, hid, huser⟩ := h.user
  refine ⟨h.mem, ⟨r, ?_, hrp, hactive⟩, h.unlisted, ⟨u, ?_, hid, huser⟩, h.aware⟩
  · have hother : r.userId ≠ userId := fun hr => hne (hrp.userId.symm.trans hr)
    simp only [Tokens.revokeAllUserSessions, Table.mem_update]
    exact ⟨r, hr, by simp [hother]⟩
  · have hother : u.id ≠ userId := fun hu => hne (hid.symm.trans hu)
    simp only [Tokens.revokeAllUserSessions, Table.mem_update]
    exact ⟨u, hu, by simp [hother]⟩

theorem keeps_logoutAll (h : Base cfg s) :
    Keeps cfg s (fun p => Over cfg s p (.logoutAll token))
      ((logoutAll cfg s token).map (Except.map fun _ => none) id) := by
  refine keeps_withCurrentUser h fun user s' hbase hgood hclock hmem hid _ _ => ?_
  refine ⟨⟨hbase.consistent.revokeAllUserSessions user.id, fun p hp => ?_, hbase.listed⟩, hclock,
    fun p hp hover _ => ?_, nofun⟩
  · obtain ⟨u, hu, huid⟩ := hbase.owner p hp
    simp only [revokeAllUserSessions, Table.mem_update]
    refine ⟨_, ⟨u, hu, rfl⟩, ?_⟩
    split <;> exact huid
  · have hne : p.subject ≠ user.id := fun hsub => hover rfl (hsub.trans hid)
    exact (hgood p hp).revokeAllUserSessions hne

theorem keeps_handle (h : Base cfg s) {request : Request} (hproper : Proper cfg s request) :
    Keeps cfg s (fun p => Over cfg s p request) (handle cfg s request) := by
  cases request with
  | processLogin found => exact keeps_passwordLogin h _ _ hproper
  | login found => exact keeps_passwordLogin h _ _ hproper
  | verifyRegistrationOtp found => exact keeps_verifyRegistrationOtp h hproper
  | socialLogin found => exact keeps_socialLogin h hproper
  | registerWithPassword => exact absurd hproper id
  | refreshToken token => exact keeps_refreshToken h hproper
  | selectRole token => exact keeps_selectRole h hproper
  | logout token => exact keeps_logout h
  | logoutAll token => exact keeps_logoutAll h
  | getUserFromToken token =>
    have hbase := h.getUserFromToken token
    have hstate := (getUserFromToken_spec h.consistent token).2
    refine ⟨hbase, ?_, fun p hp _ _ => ?_, fun p hanswer => ?_⟩
    all_goals obtain ⟨t, heq, -⟩ := hstate
    · show (getUserFromToken cfg s token).2.clock = s.clock
      rw [heq]
    · show Good cfg (getUserFromToken cfg s token).2 p
      rw [heq]
      exact hp.cache t
    · simp only [handle, Prod.map_fst] at hanswer
      cases hget : (getUserFromToken cfg s token).1 <;> simp [hget, Except.map] at hanswer
  | cleanupExpiredTokens =>
    refine ⟨⟨h.consistent.blacklist _, h.owner, fun b hb => ?_⟩, rfl, fun p hp _ _ => ?_, nofun⟩
    · exact h.listed b (Table.mem_deleteWhere.mp hb).1
    · exact hp.blacklist fun b hb => .inl (Table.mem_deleteWhere.mp hb).1

/-! ## Runs -/

/-- All that was promised and has not expired is good. -/
structure Sound (cfg : Settings) (w : Ledger) : Prop where
  base : Base cfg w.state
  good : ∀ p ∈ w.promised, Spent cfg w.state p ∨ Good cfg w.state p

theorem Sound.ledger {w : Ledger} {e : Event} (h : Sound cfg w)
    (hproper : Proper cfg (w.arrival e) e.request) : Sound cfg (ledger cfg w e) := by
  have hlater : w.state.clock ≤ (w.arrival e).clock := by
    show w.state.clock ≤ w.state.clock + e.elapsed
    omega
  have harrival : Base cfg (w.arrival e) := h.base.later hlater
  obtain ⟨hbase, hclock, hkept, hfresh⟩ := keeps_handle harrival hproper
  refine ⟨hbase, fun p hp => ?_⟩
  -- what was promised before stays good, or has been spent
  have hold : p ∈ w.promised → ((handle cfg (w.arrival e) e.request).1.isOk = true →
      ¬ Over cfg (w.arrival e) p e.request) →
      Spent cfg (handle cfg (w.arrival e) e.request).2 p ∨
        Good cfg (handle cfg (w.arrival e) e.request).2 p := by
    intro hmem hover
    by_cases hspent : Spent cfg (w.arrival e) p
    · left
      unfold Spent
      rw [hclock]
      exact hspent
    · right
      rcases h.good p hmem with ⟨haccess, hrefresh⟩ | hgood
      · refine absurd ⟨?_, ?_⟩ hspent <;> omega
      · exact hkept p (hgood.later _) hover hspent
  simp only [IssuedTokens.ledger] at hp ⊢
  cases hanswer : (handle cfg (w.arrival e) e.request).1 with
  | error exc =>
    rw [hanswer] at hp hold
    exact hold hp nofun
  | ok pair =>
    rw [hanswer] at hp hold
    rcases List.mem_append.mp hp with hp | hp
    · obtain ⟨hpair, hactive⟩ := List.mem_filter.mp hp
      have hpair : pair = some p := by simpa using hpair
      exact .inr (hfresh p (hpair ▸ hanswer) (by simpa using hactive))
    · obtain ⟨hmem, hover⟩ := List.mem_filter.mp hp
      exact hold hmem fun _ => by simpa using hover

theorem Spent.works (h : Spent cfg s p) : Works cfg s p := by
  intro now hnow
  obtain ⟨haccess, hrefresh⟩ := h
  exact ⟨fun hlt => by omega, fun hlt => by omega⟩

theorem sound_start {users : Table Account} (hnow : second ≤ now) :
    Sound cfg (Ledger.start users now) where
  base := ⟨consistent_start hnow, fun p hp => absurd hp (Table.not_mem_empty p),
    fun b hb => absurd hb (Table.not_mem_empty b)⟩
  good := nofun

/-- **Issued tokens work** in every run of proper requests. -/
theorem issued_tokens_work (cfg : Settings) (users : Table Account) (now : ℤ)
    (hnow : second ≤ now) (es : List Event)
    (hproper : Along (ledger cfg) (fun w e => Proper cfg (w.arrival e) e.request)
      (Ledger.start users now) es) :
    ∀ p ∈ (run (ledger cfg) (Ledger.start users now) es).promised,
      Works cfg (run (ledger cfg) (Ledger.start users now) es).state p := by
  have hsound : Sound cfg (run (ledger cfg) (Ledger.start users now) es) :=
    run_invariant_of_along (I := Sound cfg) (fun _ _ h hp => h.ledger hp) (sound_start hnow) hproper
  intro p hp
  rcases hsound.good p hp with hspent | hgood
  · exact hspent.works
  · exact hgood.works hsound.base.consistent

/-! ## A run -/

def zoned : Settings := ⟨1440, 30, 5, 0, false, true⟩

def member : Account := ⟨4, true, false, some 2000000⟩

def members : Table Account := ⟨[member], by decide⟩

/-- The pair of the first login, at 7 s. -/
def memberPair : Pair := ⟨1, 4, true, 7000000, 1⟩

/-- A login, a request, a refresh and a social login of a new user. -/
def properRun : List Event :=
  [⟨1000000, .login (some 4)⟩, ⟨500, .getUserFromToken (memberPair.access zoned)⟩,
    ⟨500, .refreshToken (memberPair.refresh zoned)⟩, ⟨500, .socialLogin none⟩]

theorem issued_tokens_work_sample :
    (run (ledger zoned) (Ledger.start members 6000000) properRun).promised.length = 2 ∧
    ∀ p ∈ (run (ledger zoned) (Ledger.start members 6000000) properRun).promised,
      Works zoned (run (ledger zoned) (Ledger.start members 6000000) properRun).state p :=
  ⟨by decide +kernel,
    issued_tokens_work zoned members 6000000 (by decide) properRun (by decide +kernel)⟩

/-- The pair of a selected role has no session. -/
def roleRun : List Event :=
  [⟨1000000, .login (some 4)⟩, ⟨500, .selectRole (memberPair.access zoned)⟩]

theorem selected_role_refused :
    ¬ ∀ p ∈ (run (ledger zoned) (Ledger.start members 6000000) roleRun).promised,
      Works zoned (run (ledger zoned) (Ledger.start members 6000000) roleRun).state p := by
  intro h
  have hworks := h ⟨2, 4, true, 7000500, 2⟩ (by decide +kernel)
  have haccess := (hworks 8000000 (by decide +kernel)).1 (by decide +kernel)
  exact absurd haccess (by decide +kernel)

end WezuBackend.Auth.IssuedTokens
