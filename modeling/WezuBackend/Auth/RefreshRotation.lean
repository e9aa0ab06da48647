import WezuBackend.Auth.Tokens
import WezuBackend.Lib.Interleaving

/-!
# Concurrent refreshes

A refresh request validates the session of its token, looks for the session again by the old `jti`,
and commits: it rotates the session that it found, or creates a new one.  Requests come between each
other's steps.  The columns of `user_sessions` are without a zone and the clock has one, so that the
comparison of a session's end with the clock raises, and no request gets as far as to commit
(`refresh_single_use`).
-/

namespace WezuBackend.Auth.RefreshRotation

open Lib.Runs Lib.Interleaving Core.Base Auth.Tokens

/-! ## The steps of a request -/

inductive Phase where
  | begun
  | validated
  /-- the session that the second look-up has found -/
  | found (session : Option ℕ)
  | answered (answer : Except Exc Pair)

/-- The requests, and the clock. -/
inductive Process where
  | request (i : ℕ)
  | clock (elapsed : ℕ)
  deriving DecidableEq

def refreshStep (cfg : Settings) (token : Token) (s : State) : Phase → State × Phase
  | .begun =>
    match validateSession cfg s token with
    | (.ok (some _), s') => (s', .validated)
    | (_, s') => (s', .answered (.error (authUnauthorized "token_invalid")))
  | .validated =>
    match s.users.get? token.sub with
    | none => (s, .answered (.error (authUnauthorized "token_invalid")))
    | some _ => (s, .found ((token.jti.bind (findSession s)).map UserSession.id))
  | .found session =>
    -- a token that was validated has a `jti`
    let login := (token.jti.bind s.pairs.get?).map Pair.login
    let (pair, s₁) := sign s token.sub true login
    (storeSession cfg s₁ session (pair.refresh cfg), .answered (.ok pair))
  | .answered answer => (s, .answered answer)

/-- Request `i` presents the token `tokens i`. -/
def act (cfg : Settings) (tokens : ℕ → Token) : Process → State → Phase → State × Phase
  | .request i, s, phase => refreshStep cfg (tokens i) s phase
  | .clock elapsed, s, phase => (s.at (s.clock + elapsed), phase)

/-- Request `i` has obtained a new pair. -/
def Obtained (w : World Process State Phase) (i : ℕ) : Prop :=
  ∃ pair, w.position (.request i) = .answered (.ok pair)

/-- The refresh endpoint would let the token pass. -/
def Accepted (cfg : Settings) (s : State) (token : Token) : Prop :=
  ∃ session, (validateSession cfg s token).1 = .ok (some session)

/-- A refresh token obtains one new pair, and of a login one refresh token is accepted. -/
def SingleUse (cfg : Settings) (tokens : ℕ → Token) (w : World Process State Phase) : Prop :=
  (∀ i j, tokens i = tokens j → Obtained w i → Obtained w j → i = j) ∧
  ∀ t t', Accepted cfg w.store t → Accepted cfg w.store t' →
    (∃ l ∈ loginsOf cfg w.store t, l ∈ loginsOf cfg w.store t') → t = t'

def Carried (s : State) (token : Token) : Prop :=
  ∃ r ∈ s.sessions, r.refreshTokenHash = some token

instance (s : State) (token : Token) : Decidable (Carried s token) := by
  unfold Carried
  infer_instance

variable {cfg : Settings} {tokens : ℕ → Token} {s : State} {token : Token}

/-! ## One step -/

section Step

variable {w : World Process State Phase} {i : ℕ}

/-- The world after a step of request `i`. -/
def World.after (w : World Process State Phase) (i : ℕ) (s : State) (phase : Phase) :
    World Process State Phase :=
  ⟨s, Function.update w.position (.request i) phase⟩

theorem after_self (s : State) (phase : Phase) :
    (World.after w i s phase).position (.request i) = phase := Function.update_self _ _ _

theorem after_ne {j : ℕ} (s : State) (phase : Phase) (h : j ≠ i) :
    (World.after w i s phase).position (.request j) = w.position (.request j) :=
  Function.update_of_ne (by simpa using h) _ _

theorem turn_request :
    turn (act cfg tokens) w (.request i) =
      World.after w i (refreshStep cfg (tokens i) w.store (w.position (.request i))).1
        (refreshStep cfg (tokens i) w.store (w.position (.request i))).2 := rfl

end Step

theorem validateSession_of_naive (hnaive : cfg.sessionsNaive = true) (h : Consistent cfg s)
    (token : Token) : validateSession cfg s token = (.ok none, s) ∨
      validateSession cfg s token = (.error .typeError, s) := by
  cases hr : activeSession cfg s token with
  | none => exact .inl (validateSession_of_none hr)
  | some r => exact .inr (by rw [validateSession_of_some h hr, if_pos hnaive])

/-! ## No refresh gets through -/

/-- The sessions are consistent, and no request has got beyond the comparison of a session's end
with the clock. -/
structure NoneValidated (cfg : Settings) (w : World Process State Phase) : Prop where
  consistent : Consistent cfg w.store
  begun : ∀ i, w.position (.request i) = .begun ∨
    ∃ e, w.position (.request i) = .answered (.error e)

section Naive

variable {w : World Process State Phase} (hnaive : cfg.sessionsNaive = true)

include hnaive

/-- A request that begins is refused, and leaves the sessions as they are. -/
theorem refreshStep_of_begun (h : Consistent cfg s) (token : Token) :
    ∃ e, refreshStep cfg token s .begun = (s, .answered (.error e)) := by
  unfold refreshStep
  rcases validateSession_of_naive hnaive h token with hnot | hraises
  · exact ⟨_, by rw [hnot]⟩
  · exact ⟨_, by rw [hraises]⟩

theorem NoneValidated.request (h : NoneValidated cfg w) (tokens : ℕ → Token) (i : ℕ) :
    ∃ e, turn (act cfg tokens) w (.request i) =
      World.after w i w.store (.answered (.error e)) := by
  rcases h.begun i with hbegun | ⟨e, hanswered⟩
  · obtain ⟨e, hstep⟩ := refreshStep_of_begun hnaive h.consistent (tokens i)
    exact ⟨e, by rw [turn_request, hbegun, hstep]⟩
  · exact ⟨e, by rw [turn_request, hanswered, refreshStep]⟩

theorem NoneValidated.step (h : NoneValidated cfg w) (tokens : ℕ → Token) (p : Process) :
    NoneValidated cfg (turn (act cfg tokens) w p) := by
  cases p with
  | clock elapsed =>
    rw [turn_stays rfl]
    exact ⟨h.consistent.at (show w.store.clock ≤ w.store.clock + elapsed by omega), h.begun⟩
  | request i =>
    obtain ⟨e, hturn⟩ := h.request hnaive tokens i
    rw [hturn]
    refine ⟨h.consistent, fun j => ?_⟩
    by_cases hji : j = i
    · rw [hji, after_self]
      exact .inr ⟨e, rfl⟩
    · rw [after_ne _ _ hji]
      exact h.begun j

/-- **Refresh tokens are single-use** on the columns as they are: no refresh token obtains a pair,
and none is accepted. -/
theorem refresh_single_use (hs : Consistent cfg s) (ps : List Process) :
    let w := run (turn (act cfg tokens)) (World.start s .begun) ps
    SingleUse cfg tokens w ∧ (∀ i, ¬ Obtained w i) ∧ ∀ token, ¬ Accepted cfg w.store token := by
  have hstart : NoneValidated cfg (World.start s Phase.begun) := ⟨hs, fun _ => .inl rfl⟩
  have hend : NoneValidated cfg (run (turn (act cfg tokens)) (World.start s .begun) ps) :=
    run_invariant (fun _ p h => h.step hnaive tokens p) hstart ps
  have hobtained : ∀ i, ¬ Obtained (run (turn (act cfg tokens)) (World.start s .begun) ps) i := by
    rintro i ⟨pair, hpair⟩
    rcases hend.begun i with h | ⟨e, h⟩ <;> rw [h] at hpair <;> exact absurd hpair nofun
  have haccepted : ∀ token, ¬ Accepted cfg
      (run (turn (act cfg tokens)) (World.start s .begun) ps).store token := by
    rintro token ⟨session, hsession⟩
    rcases validateSession_of_naive hnaive hend.consistent token with h | h <;>
      rw [h] at hsession <;> exact absurd hsession nofun
  exact ⟨⟨fun i _ _ hi => absurd hi (hobtained i), fun t _ ht => absurd ht (haccepted t)⟩,
    hobtained, haccepted⟩

end Naive

def naiveSettings : Settings := ⟨60, 7, 5, 0, true, true⟩

def rider : Account := ⟨9, true, false, none⟩

def ridersLogin : State :=
  (handle naiveSettings (start ⟨[rider], by decide⟩ 5000000) (.login (some 9))).2

/-- Every request presents the refresh token of the login. -/
def ridersToken (_ : ℕ) : Token := (Pair.mk 1 9 true 5000000 1).refresh naiveSettings

/-- Two requests, step by step in turn. -/
def interleaved : List Process :=
  [.request 0, .request 1, .clock 20, .request 0, .request 0, .request 1, .request 1]

theorem refresh_single_use_sample :
    let w := run (turn (act naiveSettings ridersToken)) (World.start ridersLogin .begun) interleaved
    Carried ridersLogin (ridersToken 0) ∧
      w.position (.request 1) = .answered (.error (authUnauthorized "token_invalid")) ∧
      SingleUse naiveSettings ridersToken w :=
  ⟨by decide, rfl, (refresh_single_use rfl ((consistent_start (by decide)).handle _)
    interleaved).1⟩

end WezuBackend.Auth.RefreshRotation
