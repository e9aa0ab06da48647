import WezuBackend.Auth.Passkeys
import WezuBackend.Lib.Interleaving

/-!
# Concurrent claims of a challenge

`_claim_challenge` selects the challenge if it is unused, sets `used_at`, and commits.  The select
takes no lock, and the update names the row alone, so a verification that has read an unused
challenge goes on when another one has claimed it in between.  A challenge is claimed at most once
exactly as long as every verification that commits finds the stored challenge still unused
(`claimed_once_iff`).
-/

namespace WezuBackend.Auth.PasskeyClaims

open Lib.Tables Lib.Runs Lib.Interleaving Core.Base Auth.Passkeys

/-! ## The steps of a claim -/

/-- The arguments of `_claim_challenge`. -/
structure Claim where
  challengeId : String
  ceremony : Ceremony
  userId : Option ℕ

inductive Phase where
  | begun
  | timed (now : ℤ)
  /-- it has read the row, which was unused -/
  | selected (challenge : PasskeyChallenge) (now : ℤ)
  /-- the update is made, and not committed -/
  | written (challenge : PasskeyChallenge) (now : ℤ)
  | claimed (challenge : PasskeyChallenge)
  | refused (exc : Exc)

/-- The verifications, and the clock. -/
inductive Process where
  | verification (i : ℕ)
  | clock (elapsed : ℕ)
  deriving DecidableEq

/-- The committed rows, the clock, and the rows that an open transaction has updated. -/
structure Store where
  db : Db
  clock : ℤ
  locked : String → Bool

def Store.begin (db : Db) (clock : ℤ) : Store := ⟨db, clock, fun _ => false⟩

/-- The next step of `_claim_challenge`. -/
def claimStep (q : Claim) (s : Store) : Phase → Store × Phase
  | .begun => (s, .timed s.clock)
  | .timed now =>
    match openChallenge s.db q.challengeId q.ceremony q.userId now with
    | none => (s, .refused challengeInvalid)
    | some challenge => (s, .selected challenge now)
  | .selected challenge now =>
    -- the update waits for the transaction that has updated the row
    if s.locked challenge.challengeId then (s, .selected challenge now)
    else ({ s with locked := Function.update s.locked challenge.challengeId true },
      .written challenge now)
  | .written challenge now =>
    ({ s with
        db := Passkeys.claimed s.db challenge now
        locked := Function.update s.locked challenge.challengeId false },
      .claimed { challenge with usedAt := some now })
  | .claimed challenge => (s, .claimed challenge)
  | .refused exc => (s, .refused exc)

/-- Verification `i` claims what `claims i` says. -/
def act (claims : ℕ → Claim) : Process → Store → Phase → Store × Phase
  | .verification i, s, phase => claimStep (claims i) s phase
  | .clock elapsed, s, phase => ({ s with clock := s.clock + elapsed }, phase)

/-- Verification `i` has claimed its challenge. -/
def Claimed (w : World Process Store Phase) (i : ℕ) : Prop :=
  ∃ challenge, w.position (.verification i) = .claimed challenge

def ClaimedOnce (claims : ℕ → Claim) (w : World Process Store Phase) : Prop :=
  ∀ i j, (claims i).challengeId = (claims j).challengeId → Claimed w i → Claimed w j → i = j

def Unused (db : Db) (challengeId : String) : Prop :=
  ∃ x ∈ db.challenges, x.challengeId = challengeId ∧ x.usedAt = none

/-- A verification that commits does so while the stored challenge is unused. -/
def Timely (w : World Process Store Phase) (p : Process) : Prop :=
  ∀ i, p = .verification i → ∀ challenge now, w.position p = .written challenge now →
    Unused w.store.db challenge.challengeId

variable {claims : ℕ → Claim}

/-! ## What holds between the steps -/

/-- Verification `i` has read the row as unused, and not committed yet. -/
def Pending (w : World Process Store Phase) (i : ℕ) (challenge : PasskeyChallenge) : Prop :=
  ∃ now, w.position (.verification i) = .selected challenge now ∨
    w.position (.verification i) = .written challenge now

structure Held (claims : ℕ → Claim) (w : World Process Store Phase) : Prop where
  once : ClaimedOnce claims w
  used : ∀ i, Claimed w i → ¬ Unused w.store.db (claims i).challengeId
  named : ∀ i challenge, Pending w i challenge →
    challenge.challengeId = (claims i).challengeId ∧ challenge.usedAt = none
  pending : ∀ i challenge, Pending w i challenge → challenge ∈ w.store.db.challenges ∨
    ∃ j, j ≠ i ∧ (claims j).challengeId = (claims i).challengeId ∧ Claimed w j

section Step

variable {w : World Process Store Phase} {i : ℕ}

variable {j : ℕ}

theorem position_ne (h : j ≠ i) :
    (turn (act claims) w (.verification i)).position (.verification j) =
      w.position (.verification j) :=
  turn_position_ne w (by simpa using h)

theorem claimed_ne (h : j ≠ i) :
    Claimed (turn (act claims) w (.verification i)) j ↔ Claimed w j := by
  unfold Claimed
  rw [position_ne h]

theorem pending_ne (h : j ≠ i) (challenge : PasskeyChallenge) :
    Pending (turn (act claims) w (.verification i)) j challenge ↔ Pending w j challenge := by
  unfold Pending
  rw [position_ne h]

theorem Held.advance (h : Held claims w) {before after : Phase} {s : Store}
    (hbefore : w.position (.verification i) = before)
    (hstep : claimStep (claims i) w.store before = (s, after)) (hdb : s.db = w.store.db)
    (hnot : ∀ c, before ≠ .claimed c ∧ after ≠ .claimed c)
    (hread : ∀ c t, after = .selected c t ∨ after = .written c t → before = .selected c t ∨
      c ∈ w.store.db.challenges ∧ c.challengeId = (claims i).challengeId ∧ c.usedAt = none) :
    Held claims (turn (act claims) w (.verification i)) := by
  have hself : (turn (act claims) w (.verification i)).position (.verification i) = after := by
    rw [turn_position_self, act, hbefore, hstep]
  have hstore : (turn (act claims) w (.verification i)).store.db = w.store.db := by
    rw [turn_store, act, hbefore, hstep, hdb]
  have hclaimed : ∀ j, Claimed (turn (act claims) w (.verification i)) j ↔ Claimed w j := by
    intro j
    by_cases hj : j = i
    · subst hj
      constructor
      · rintro ⟨c, hc⟩
        exact absurd (hself.symm.trans hc) (hnot c).2
      · rintro ⟨c, hc⟩
        exact absurd (hbefore.symm.trans hc) (hnot c).1
    · exact claimed_ne hj
  have hpending : ∀ j c, Pending (turn (act claims) w (.verification i)) j c → Pending w j c ∨
      c ∈ w.store.db.challenges ∧ c.challengeId = (claims j).challengeId ∧ c.usedAt = none := by
    intro j c hj
    by_cases hji : j = i
    · subst hji
      obtain ⟨t, hc⟩ := hj
      rw [hself] at hc
      rcases hread c t hc with hc | hc
      · exact .inl ⟨t, .inl (hbefore.trans hc)⟩
      · exact .inr hc
    · exact .inl ((pending_ne hji c).mp hj)
  refine ⟨fun j k hid hj hk => ?_, fun j hj => ?_, fun j c hj => ?_, fun j c hj => ?_⟩
  · exact h.once j k hid ((hclaimed j).mp hj) ((hclaimed k).mp hk)
  · rw [hstore]
    exact h.used j ((hclaimed j).mp hj)
  · rcases hpending j c hj with hj | ⟨-, hnamed⟩
    · exact h.named j c hj
    · exact hnamed
  · rw [hstore]
    rcases hpending j c hj with hj | ⟨hmem, -⟩
    · rcases h.pending j c hj with hmem | ⟨k, hkj, hid, hk⟩
      · exact .inl hmem
      · exact .inr ⟨k, hkj, hid, (hclaimed k).mpr hk⟩
    · exact .inl hmem

variable {challenge : PasskeyChallenge} {now : ℤ}

variable {db : Db}

theorem openChallenge_some {challengeId : String} {ceremony : Ceremony}
    {userId : Option ℕ} (h : openChallenge db challengeId ceremony userId now = some challenge) :
    challenge ∈ db.challenges ∧ challenge.challengeId = challengeId ∧ challenge.usedAt = none := by
  have hprop := Table.find?_prop h
  rw [decide_eq_true_eq] at hprop
  exact ⟨Table.find?_mem h, hprop.1, hprop.2.2.1⟩

theorem unused_claimed {k : String} :
    Unused (Passkeys.claimed db challenge now) k ↔ Unused db k ∧ k ≠ challenge.challengeId := by
  constructor
  · rintro ⟨x, hx, rfl, hunused⟩
    rcases Table.mem_set.mp hx with ⟨hx, hne⟩ | ⟨rfl, -⟩
    · exact ⟨⟨x, hx, rfl, hunused⟩, hne⟩
    · cases hunused
  · rintro ⟨⟨x, hx, rfl, hunused⟩, hne⟩
    exact ⟨x, Table.mem_set.mpr (.inl ⟨hx, hne⟩), rfl, hunused⟩

theorem Held.commit (h : Held claims w)
    (hwritten : w.position (.verification i) = .written challenge now)
    (hunused : Unused w.store.db challenge.challengeId) :
    Held claims (turn (act claims) w (.verification i)) := by
  obtain ⟨hname, -⟩ := h.named i challenge ⟨now, .inr hwritten⟩
  have hself : (turn (act claims) w (.verification i)).position (.verification i) =
      .claimed { challenge with usedAt := some now } := by
    rw [turn_position_self, act, hwritten, claimStep]
  have hdb : (turn (act claims) w (.verification i)).store.db =
      Passkeys.claimed w.store.db challenge now := by
    rw [turn_store, act, hwritten, claimStep]
  have hfirst : ∀ j, (claims j).challengeId = (claims i).challengeId → ¬ Claimed w j := by
    intro j hid hj
    have hused := h.used j hj
    rw [hid, ← hname] at hused
    exact hused hunused
  have hothers : ∀ j, (claims j).challengeId = (claims i).challengeId →
      Claimed (turn (act claims) w (.verification i)) j → j = i := by
    intro j hid hj
    by_contra hne
    exact hfirst j hid ((claimed_ne hne).mp hj)
  have hnotPending : ∀ c, ¬ Pending (turn (act claims) w (.verification i)) i c := by
    rintro c ⟨t, hc | hc⟩ <;> rw [hself] at hc <;> cases hc
  refine ⟨fun j k hid hj hk => ?_, fun j hj => ?_, fun j c hj => ?_, fun j c hj => ?_⟩
  · by_cases hji : j = i
    · subst hji
      exact (hothers k hid.symm hk).symm
    by_cases hki : k = i
    · subst hki
      exact hothers j hid hj
    · exact h.once j k hid ((claimed_ne hji).mp hj) ((claimed_ne hki).mp hk)
  · rw [hdb, unused_claimed]
    rintro ⟨hun, hne⟩
    by_cases hji : j = i
    · subst hji
      exact hne hname.symm
    · exact h.used j ((claimed_ne hji).mp hj) hun
  · have hji : j ≠ i := by
      rintro rfl
      exact hnotPending c hj
    exact h.named j c ((pending_ne hji c).mp hj)
  · have hji : j ≠ i := by
      rintro rfl
      exact hnotPending c hj
    have hj := (pending_ne hji c).mp hj
    by_cases hid : c.challengeId = challenge.challengeId
    · refine .inr ⟨i, hji.symm, ?_, ⟨_, hself⟩⟩
      rw [← hname, ← hid]
      exact (h.named j c hj).1
    · rcases h.pending j c hj with hmem | ⟨k, hkj, hkid, hk⟩
      · rw [hdb]
        exact .inl (Table.mem_set.mpr (.inl ⟨hmem, hid⟩))
      · refine .inr ⟨k, hkj, hkid, ?_⟩
        by_cases hki : k = i
        · subst hki
          exact ⟨_, hself⟩
        · exact (claimed_ne hki).mpr hk

theorem Held.step (h : Held claims w) (p : Process) (htimely : Timely w p) :
    Held claims (turn (act claims) w p) := by
  cases p with
  | clock elapsed =>
    rw [turn_stays rfl]
    exact ⟨h.once, h.used, h.named, h.pending⟩
  | verification i =>
    have hstays : ∀ phase, w.position (.verification i) = phase →
        claimStep (claims i) w.store phase = (w.store, phase) →
        Held claims (turn (act claims) w (.verification i)) := by
      rintro phase rfl hstep
      rw [turn_idle hstep]
      exact h
    cases hphase : w.position (.verification i) with
    | begun => exact h.advance hphase rfl rfl (by simp) (by simp)
    | timed now =>
      cases hopen : openChallenge w.store.db (claims i).challengeId (claims i).ceremony
          (claims i).userId now with
      | none =>
        have hstep : claimStep (claims i) w.store (.timed now) =
            (w.store, .refused challengeInvalid) := by rw [claimStep, hopen]
        exact h.advance hphase hstep rfl (by simp) (by simp)
      | some challenge =>
        have hstep : claimStep (claims i) w.store (.timed now) =
            (w.store, .selected challenge now) := by rw [claimStep, hopen]
        refine h.advance hphase hstep rfl (by simp) ?_
        rintro c t (hc | hc) <;> cases hc
        exact .inr (openChallenge_some hopen)
    | selected challenge now =>
      by_cases hlocked : w.store.locked challenge.challengeId = true
      · exact hstays _ hphase (by rw [claimStep, if_pos hlocked])
      · have hstep : claimStep (claims i) w.store (.selected challenge now) =
            ({ w.store with
              locked := Function.update w.store.locked challenge.challengeId true },
              .written challenge now) := by rw [claimStep, if_neg hlocked]
        refine h.advance hphase hstep rfl (by simp) ?_
        rintro c t (hc | hc) <;> cases hc
        exact .inl rfl
    | written challenge now => exact h.commit hphase (htimely i rfl challenge now hphase)
    | claimed challenge => exact hstays _ hphase rfl
    | refused exc => exact hstays _ hphase rfl

/-- A commit that is late claims a challenge that another verification has claimed. -/
theorem not_claimedOnce_of_late (h : Held claims w) {p : Process} (hlate : ¬ Timely w p) :
    ¬ ClaimedOnce claims (turn (act claims) w p) := by
  intro honce
  refine hlate fun i hp challenge now hwritten => ?_
  subst hp
  have hpending : Pending w i challenge := ⟨now, .inr hwritten⟩
  obtain ⟨-, hunused⟩ := h.named i challenge hpending
  rcases h.pending i challenge hpending with hmem | ⟨j, hji, hid, hj⟩
  · exact ⟨challenge, hmem, rfl, hunused⟩
  · have hi : Claimed (turn (act claims) w (.verification i)) i :=
      ⟨{ challenge with usedAt := some now }, by
        rw [turn_position_self, act, hwritten, claimStep]⟩
    exact absurd (honce j i hid ((claimed_ne hji).mpr hj) hi) hji

end Step

theorem held_start (claims : ℕ → Claim) (db : Db) (clock : ℤ) :
    Held claims (.start (.begin db clock) .begun) := by
  have hclaimed : ∀ i, ¬ Claimed (.start (.begin db clock) .begun) i := by
    rintro i ⟨c, hc⟩
    cases hc
  have hpending : ∀ i c, ¬ Pending (.start (.begin db clock) .begun) i c := by
    rintro i c ⟨t, hc | hc⟩ <;> cases hc
  exact ⟨fun i j _ hi _ => absurd hi (hclaimed i), fun i hi => absurd hi (hclaimed i),
    fun i c hi => absurd hi (hpending i c), fun i c hi => absurd hi (hpending i c)⟩

/-- **A challenge is claimed at most once** at every point of a run exactly if every verification
that commits does so while the stored challenge is unused. -/
theorem claimed_once_iff (claims : ℕ → Claim) (db : Db) (clock : ℤ) (ps : List Process) :
    (∀ p q, ps = p ++ q →
      ClaimedOnce claims (run (turn (act claims)) (.start (.begin db clock) .begun) p)) ↔
    Along (turn (act claims)) Timely (.start (.begin db clock) .begun) ps :=
  holds_iff_along (J := Held claims) (fun _ p h => h.step p) (fun _ h => h.once)
    (fun _ _ h => not_claimedOnce_of_late h) (held_start claims db clock) ps

/-! ## Two responses to one challenge -/

/-- A challenge that is open until 300. -/
def issuedDb : Db where
  users := Table.empty
  challenges := ⟨[⟨"c1", "x", .authentication, some 1, 0, 300, none⟩], by decide⟩
  passkeys := Table.empty

def replayed (_ : ℕ) : Claim := ⟨"c1", .authentication, none⟩

/-- The second verification selects before the first one commits. -/
def crossing : List Process :=
  [.verification 0, .verification 0, .verification 1, .clock 2, .verification 1, .verification 0,
    .verification 1, .verification 0, .verification 1, .verification 1]

theorem claimed_twice :
    ¬ ∀ p q, crossing = p ++ q →
      ClaimedOnce replayed (run (turn (act replayed)) (.start (.begin issuedDb 7) .begun) p) := by
  intro h
  have htwice := h crossing [] rfl 0 1 rfl ⟨_, rfl⟩ ⟨_, rfl⟩
  exact absurd htwice (by decide)

end WezuBackend.Auth.PasskeyClaims
