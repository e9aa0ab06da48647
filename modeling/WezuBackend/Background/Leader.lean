import WezuBackend.Core.Text
import WezuBackend.Lib.Leases
import WezuBackend.Lib.Runs

/-!
# The background leader

`app/services/background_runtime_service.py`: each API process decides once, when it starts, whether
it runs the scheduler and the outbox dispatch.  It does if it takes the leader lock, a Redis key
with a token of its own that expires; a loop renews the key, and the shutdown deletes it, both only
under the token.

No process touches the lock of another one (`lock_respected`).  But the loop ends when it finds the
lock lost, and the decision stands.  At most one process is granted anything, as far as the
processes can know, exactly as long as no renewal finds the lock lost (`leader_iff`).
-/

namespace WezuBackend.Background.Leader

open Lib.Leases Lib.Runs Core.Text

/-! ## The decision -/

structure Settings where
  mode : String := "auto"
  lockTtlSeconds : ℤ := 30
  lockRequired : Bool := true
  runSchedulerInApi : Bool := true
  orderRealtimeOutboxEnabled : Bool := true

structure BackgroundRuntimeDecision where
  mode : String := "auto"
  runScheduler : Bool := false
  runOutboxDispatch : Bool := false
  leaderAcquired : Bool := false
  lockBackendChecked : Bool := false
  lockBackendAvailable : Bool := false
  dedicatedSchedulerAlive : Bool := false
  reason : String := "not_initialized"
  deriving DecidableEq, Repr

def normalizedMode (c : Settings) : String :=
  let raw := lower (strip (if c.mode = "" then "auto" else c.mode))
  if raw ∈ ["auto", "api_only", "workers_only"] then raw else "auto"

def lockTtlSeconds (c : Settings) : ℕ :=
  (max 10 (min 120 (if c.lockTtlSeconds = 0 then 30 else c.lockTtlSeconds))).toNat

def refreshSleepSeconds (c : Settings) : ℕ := max 3 (lockTtlSeconds c / 3)

def desiredScheduler (c : Settings) (dedicatedSchedulerAlive : Bool) : Bool :=
  c.runSchedulerInApi ∧ normalizedMode c ≠ "workers_only" ∧
    ¬ (normalizedMode c = "auto" ∧ dedicatedSchedulerAlive)

def desiredOutbox (c : Settings) : Bool :=
  c.orderRealtimeOutboxEnabled ∧ normalizedMode c ≠ "workers_only"

def needsEmbeddedLeader (c : Settings) (dedicatedSchedulerAlive : Bool) : Bool :=
  desiredScheduler c dedicatedSchedulerAlive || desiredOutbox c

/-- What `_acquire_leader_lock` comes back with. -/
inductive Acquired where
  | token
  | heldByAnother
  | unavailable
  deriving DecidableEq

/-- The decision of `initialize`, where a leader is needed. -/
def embeddedDecision (c : Settings) (dedicatedSchedulerAlive : Bool) (acquired : Acquired) :
    BackgroundRuntimeDecision :=
  let granted : Bool := acquired = .token ∨ acquired = .unavailable ∧ ¬ c.lockRequired
  let checked : Bool := acquired ≠ .unavailable
  { mode := normalizedMode c
    runScheduler := granted && desiredScheduler c dedicatedSchedulerAlive
    runOutboxDispatch := granted && desiredOutbox c
    leaderAcquired := granted
    lockBackendChecked := checked
    lockBackendAvailable := checked
    dedicatedSchedulerAlive
    reason :=
      match acquired with
      | .token => "embedded_leader_acquired"
      | .heldByAnother => "embedded_leader_already_held"
      | .unavailable =>
        if c.lockRequired then "redis_lock_backend_unavailable_embedded_disabled"
        else "redis_lock_backend_unavailable_fallback_local" }

/-- The decision of `initialize`, where none is. -/
def idleDecision (c : Settings) (dedicatedSchedulerAlive : Bool) : BackgroundRuntimeDecision where
  mode := normalizedMode c
  dedicatedSchedulerAlive
  reason := "embedded_background_not_required"

/-! ## Processes -/

inductive Phase where
  | notStarted
  | live
  | ended
  deriving DecidableEq

/-- `_renew_leader_loop`, asleep. -/
structure RenewTask where
  token : ℕ
  wakesAt : ℕ

structure Process where
  phase : Phase := .notStarted
  leaderToken : Option ℕ := none
  leaderRenewTask : Option RenewTask := none
  state : BackgroundRuntimeDecision := {}
  /-- how often the lock had expired when Redis last told the process that the lock is its own, or
  that it is not -/
  checkedAt : ℕ := 0
  /-- the process has found its lock lost -/
  foundLost : Bool := false

structure World where
  clock : ℕ
  /-- the key in Redis -/
  lock : Slot ℕ := none
  /-- how often the lock has expired -/
  expiries : ℕ := 0
  processes : ℕ → Process := fun _ => {}

/-- How a request to Redis ends. -/
inductive Redis where
  /-- there is no client -/
  | unavailable
  /-- an exception, before or after Redis has executed the request -/
  | failed (executed : Bool)
  | answered
  deriving DecidableEq

inductive Action where
  /-- time passes -/
  | clock (elapsed : ℕ)
  | initializeRuntime (p : ℕ) (dedicatedSchedulerAlive : Bool) (redis : Redis)
  /-- the loop wakes up -/
  | renew (p : ℕ) (redis : Redis)
  | shutdown (p : ℕ) (redis : Redis)
  | crash (p : ℕ)

def World.set (w : World) (p : ℕ) (process : Process) : World :=
  { w with processes := Function.update w.processes p process }

def World.pass (w : World) (elapsed : ℕ) : World :=
  let now := w.clock + elapsed
  { w with
    clock := now
    lock := expire now w.lock
    expiries := if expire now w.lock = w.lock then w.expiries else w.expiries + 1 }

/-- `_acquire_leader_lock`: the key is set unless it is there.  The token of process `p` is drawn by
no other process, and is written as `p`. -/
def acquireLeaderLock (c : Settings) (w : World) (p : ℕ) : Redis → Acquired × Slot ℕ
  | .unavailable => (.unavailable, w.lock)
  | .failed executed =>
    (.unavailable, if executed then acquire p (w.clock + lockTtlSeconds c) w.lock else w.lock)
  | .answered =>
    (if w.lock.isNone then .token else .heldByAnother,
      acquire p (w.clock + lockTtlSeconds c) w.lock)

def World.initializeRuntime (c : Settings) (w : World) (p : ℕ) (dedicatedSchedulerAlive : Bool)
    (redis : Redis) : World :=
  if needsEmbeddedLeader c dedicatedSchedulerAlive then
    let (acquired, lock) := acquireLeaderLock c w p redis
    let state := embeddedDecision c dedicatedSchedulerAlive acquired
    let process : Process :=
      if acquired = .token then
        { phase := .live, leaderToken := some p, state
          leaderRenewTask := some ⟨p, w.clock + refreshSleepSeconds c⟩, checkedAt := w.expiries }
      else { phase := .live, state }
    { w.set p process with lock }
  else w.set p { phase := .live, state := idleDecision c dedicatedSchedulerAlive }

/-- One round of `_renew_leader_loop`. -/
def World.renew (c : Settings) (w : World) (p : ℕ) (task : RenewTask) (redis : Redis) : World :=
  let process := w.processes p
  let asleep : Process :=
    { process with
      leaderRenewTask := some { task with wakesAt := w.clock + refreshSleepSeconds c } }
  let extended := extend task.token (w.clock + lockTtlSeconds c) w.lock
  match redis with
  | .unavailable => w.set p asleep
  | .failed executed => { w.set p asleep with lock := if executed then extended else w.lock }
  | .answered =>
    if Holds w.lock task.token then
      { w.set p { asleep with checkedAt := w.expiries } with lock := extended }
    else
      -- the loop returns; the decision of the process stays as it is
      w.set p { process with
        leaderRenewTask := none, checkedAt := w.expiries, foundLost := true }

def World.shutdown (w : World) (p : ℕ) (redis : Redis) : World :=
  let process :=
    { w.processes p with phase := .ended, leaderRenewTask := none, leaderToken := none }
  match (w.processes p).leaderToken with
  | none => w.set p process
  | some token =>
    { w.set p process with
      lock := if redis = .answered ∨ redis = .failed true then release token w.lock else w.lock }

/-- An action that cannot happen does nothing. -/
def step (c : Settings) (w : World) : Action → World
  | .clock elapsed => w.pass elapsed
  | .initializeRuntime p alive redis =>
    if (w.processes p).phase = .notStarted then w.initializeRuntime c p alive redis else w
  | .renew p redis =>
    match (w.processes p).leaderRenewTask with
    | none => w
    | some task =>
      if (w.processes p).phase = .live ∧ task.wakesAt ≤ w.clock then w.renew c p task redis else w
  | .shutdown p redis => if (w.processes p).phase = .live then w.shutdown p redis else w
  | .crash p =>
    if (w.processes p).phase = .live then w.set p { w.processes p with phase := .ended } else w

/-! ## At most one leader -/

/-- The process runs background jobs. -/
def Process.Granted (process : Process) : Prop :=
  process.phase = .live ∧ (process.state.runScheduler = true ∨
    process.state.runOutboxDispatch = true)

structure Sound (w : World) : Prop where
  /-- if all that run background jobs have asked for the lock since it expired last, it is one -/
  single : (∀ p, (w.processes p).Granted → (w.processes p).checkedAt = w.expiries) →
    ∀ p q, (w.processes p).Granted → (w.processes q).Granted → p = q
  /-- a process that has found its lock lost runs none -/
  givesUp : ∀ p, (w.processes p).Granted → (w.processes p).foundLost = false

def Action.actor : Action → Option ℕ
  | .clock _ => none
  | .initializeRuntime p _ _ | .renew p _ | .shutdown p _ | .crash p => some p

/-- The action neither deletes nor extends the lock of another process. -/
def Respects (c : Settings) (w : World) (a : Action) : Prop :=
  ∀ p ∈ a.actor, ∀ l ∈ w.lock, l.token ≠ p → l ∈ (step c w a).lock

/-- A renewal that Redis answers finds the lock the process's own. -/
def Kept (w : World) : Action → Prop
  | .renew p redis => redis = .answered → (w.processes p).phase = .live →
    ∀ task ∈ (w.processes p).leaderRenewTask, task.wakesAt ≤ w.clock → Holds w.lock task.token
  | _ => True

/-! ### What the processes are -/

/-- A process uses its own token, and renews it as long as it runs background jobs. -/
structure Process.Wired (process : Process) (p : ℕ) : Prop where
  token : ∀ t ∈ process.leaderToken, t = p
  task : ∀ task ∈ process.leaderRenewTask, task.token = p
  granted : process.leaderRenewTask.isSome → process.phase = .live → process.Granted

section

variable {c : Settings} {w : World} {p : ℕ}

variable {acquired : Acquired} {alive : Bool}

theorem granted_of_decision (h : needsEmbeddedLeader c alive = true)
    (hacquired : acquired = .token) : (embeddedDecision c alive acquired).runScheduler = true ∨
      (embeddedDecision c alive acquired).runOutboxDispatch = true := by
  subst hacquired
  simpa [embeddedDecision, needsEmbeddedLeader] using h

theorem token_of_granted (hrequired : c.lockRequired = true)
    (h : (embeddedDecision c alive acquired).runScheduler = true ∨
      (embeddedDecision c alive acquired).runOutboxDispatch = true) : acquired = .token := by
  cases acquired
  · rfl
  · simp [embeddedDecision] at h
  · simp [embeddedDecision, hrequired] at h

@[simp] theorem set_self (w : World) (p : ℕ) (process : Process) :
    (w.set p process).processes p = process := Function.update_self _ _ _

theorem set_ne (w : World) {p q : ℕ} (process : Process) (h : q ≠ p) :
    (w.set p process).processes q = w.processes q := Function.update_of_ne h _ _

/-- What an action of a process writes: the process, and the lock. -/
theorem step_cases (c : Settings) (w : World) (a : Action) {p : ℕ} (ha : a.actor = some p) :
    ∃ process lock, step c w a = { w.set p process with lock } := by
  have hidle : w = { w.set p (w.processes p) with lock := w.lock } := by
    simp [World.set]
  cases a with
  | clock elapsed => cases ha
  | initializeRuntime p' alive redis =>
    obtain rfl := Option.some.inj ha
    simp only [step]
    split_ifs
    · unfold World.initializeRuntime
      split_ifs
      · exact ⟨_, _, rfl⟩
      · exact ⟨_, w.lock, rfl⟩
    · exact ⟨_, _, hidle⟩
  | renew p' redis =>
    obtain rfl := Option.some.inj ha
    simp only [step]
    split
    · exact ⟨_, _, hidle⟩
    · split_ifs
      · unfold World.renew
        cases redis
        · exact ⟨_, w.lock, rfl⟩
        · exact ⟨_, _, rfl⟩
        · dsimp only
          split_ifs
          · exact ⟨_, _, rfl⟩
          · exact ⟨_, w.lock, rfl⟩
      · exact ⟨_, _, hidle⟩
  | shutdown p' redis =>
    obtain rfl := Option.some.inj ha
    simp only [step]
    split_ifs
    · unfold World.shutdown
      split
      · exact ⟨_, w.lock, rfl⟩
      · exact ⟨_, _, rfl⟩
    · exact ⟨_, _, hidle⟩
  | crash p' =>
    obtain rfl := Option.some.inj ha
    simp only [step]
    split_ifs
    · exact ⟨_, w.lock, rfl⟩
    · exact ⟨_, _, hidle⟩

variable {a : Action}

theorem process_step_of_ne (h : a.actor ≠ some p) : (step c w a).processes p = w.processes p := by
  rcases hactor : a.actor with _ | p'
  · cases a with
    | clock elapsed => rfl
    | _ => cases hactor
  · obtain ⟨process, lock, heq⟩ := step_cases c w a hactor
    have hne : p ≠ p' := fun hp => h (hp ▸ hactor)
    rw [heq]
    exact set_ne w process hne

theorem process_run_of_ne {as : List Action} (h : ∀ a ∈ as, a.actor ≠ some p) :
    (run (step c) w as).processes p = w.processes p := by
  induction as generalizing w with
  | nil => rfl
  | cons a as ih =>
    rw [run_cons, ih fun b hb => h b (List.mem_cons_of_mem a hb)]
    exact process_step_of_ne (h a List.mem_cons_self)

theorem Process.Wired.of_eq {process process' : Process} (h : process.Wired p)
    (htoken : process'.leaderToken = process.leaderToken)
    (htask : ∀ task ∈ process'.leaderRenewTask, task.token = p)
    (hgranted : process'.leaderRenewTask.isSome → process'.phase = .live → process'.Granted) :
    process'.Wired p :=
  ⟨by rw [htoken]; exact h.token, htask, hgranted⟩

theorem wired_step (h : ∀ p, (w.processes p).Wired p) (a : Action) (p : ℕ) :
    ((step c w a).processes p).Wired p := by
  by_cases hactor : a.actor = some p
  · cases a with
    | clock elapsed => cases hactor
    | initializeRuntime p' alive redis =>
      obtain rfl := Option.some.inj hactor
      simp only [step]
      split_ifs with hphase
      · unfold World.initializeRuntime
        split_ifs with hneeded
        · simp only [set_self]
          split_ifs with hacquired
          · exact ⟨by simp, by simp, fun _ _ => ⟨rfl, granted_of_decision hneeded hacquired⟩⟩
          · exact ⟨by simp, by simp, by simp⟩
        · rw [set_self]
          exact ⟨by simp, by simp, by simp⟩
      · exact h p'
    | renew p' redis =>
      obtain rfl := Option.some.inj hactor
      simp only [step]
      split
      · exact h p'
      · rename_i task htask
        have hasleep : ∀ task' ∈ some { task with wakesAt := w.clock + refreshSleepSeconds c },
            task'.token = p' := by
          rintro task' htask'
          cases htask'
          exact (h p').task task htask
        have hgranted : (w.processes p').phase = .live → (w.processes p').Granted :=
          (h p').granted (by simp [htask])
        split_ifs
        · unfold World.renew
          cases redis with
          | unavailable =>
            rw [set_self]
            exact (h p').of_eq rfl hasleep fun _ => hgranted
          | failed executed =>
            rw [set_self]
            exact (h p').of_eq rfl hasleep fun _ => hgranted
          | answered =>
            dsimp only
            split_ifs
            · rw [set_self]
              exact (h p').of_eq rfl hasleep fun _ => hgranted
            · rw [set_self]
              exact (h p').of_eq rfl (by simp) (by simp)
        · exact h p'
    | shutdown p' redis =>
      obtain rfl := Option.some.inj hactor
      simp only [step]
      split_ifs
      · unfold World.shutdown
        split
        · rw [set_self]
          exact ⟨by simp, by simp, by simp⟩
        · rw [set_self]
          exact ⟨by simp, by simp, by simp⟩
      · exact h p'
    | crash p' =>
      obtain rfl := Option.some.inj hactor
      simp only [step]
      split_ifs
      · rw [set_self]
        exact ⟨(h p').token, (h p').task, by simp⟩
      · exact h p'
  · rw [process_step_of_ne hactor]
    exact h p

theorem wired_start (clock : ℕ) (p : ℕ) : (({ clock } : World).processes p).Wired p :=
  ⟨by simp, by simp, by simp⟩

/-! ### Nobody touches the lock of another one -/

theorem not_holds_of_ne {l : Lease ℕ} (hl : l ∈ w.lock) {token : ℕ} (hne : l.token ≠ token) :
    ¬ Holds w.lock token := fun hholds => hne (Holds.unique ⟨l, hl, rfl⟩ hholds)

/-- An action of a process leaves the lock of another one where it is. -/
theorem respects_step (h : ∀ p, (w.processes p).Wired p) (a : Action) : Respects c w a := by
  intro p hp l hl hne
  cases a with
  | clock elapsed => cases hp
  | initializeRuntime p' alive redis =>
    obtain rfl := Option.some.inj hp
    have hacquire : ∀ expiresAt, acquire p' expiresAt w.lock = w.lock := by
      intro expiresAt
      rw [Option.mem_def.mp hl, acquire_of_some]
    simp only [step]
    split_ifs
    · unfold World.initializeRuntime
      split_ifs
      · rcases redis with _ | executed | _
        · exact hl
        · simp only [acquireLeaderLock, hacquire, ite_self]
          exact hl
        · simp only [acquireLeaderLock, hacquire]
          exact hl
      · exact hl
    · exact hl
  | renew p' redis =>
    obtain rfl := Option.some.inj hp
    simp only [step]
    split
    · exact hl
    · rename_i task htask
      have htoken : task.token = p' := (h p').task task htask
      have hextend : ∀ expiresAt, extend task.token expiresAt w.lock = w.lock := fun expiresAt =>
        extend_of_not_holds (not_holds_of_ne hl (htoken ▸ hne))
      split_ifs
      · unfold World.renew
        rcases redis with _ | executed | _
        · exact hl
        · simp only [hextend, ite_self]
          exact hl
        · simp only [hextend]
          split_ifs
          · exact hl
          · exact hl
      · exact hl
  | shutdown p' redis =>
    obtain rfl := Option.some.inj hp
    simp only [step]
    split_ifs
    · unfold World.shutdown
      split
      · exact hl
      · rename_i token htoken
        have hp' : token = p' := (h p').token token htoken
        simp only [release_of_not_holds (not_holds_of_ne hl (hp' ▸ hne)), ite_self]
        exact hl
    · exact hl
  | crash p' =>
    simp only [step]
    split_ifs
    · exact hl
    · exact hl

/-- **No process deletes or extends the lock of another one**, whatever happens. -/
theorem lock_respected (c : Settings) (clock : ℕ) (as : List Action) :
    Along (step c) (Respects c) { clock } as := by
  have hrun : ∀ {w : World}, (∀ p, (w.processes p).Wired p) →
      Along (step c) (Respects c) w as := by
    induction as with
    | nil => exact fun _ => trivial
    | cons a as ih => exact fun h => ⟨respects_step h a, ih (wired_step h a)⟩
  exact hrun (wired_start clock)

/-! ### Who is granted holds the lock -/

/-- As long as no renewal finds the lock lost, a process that runs background jobs and has asked for
the lock since it expired last holds it. -/
structure Held (w : World) : Prop where
  wired : ∀ p, (w.processes p).Wired p
  checked : ∀ p, (w.processes p).checkedAt ≤ w.expiries
  notLost : ∀ p, (w.processes p).Granted → (w.processes p).foundLost = false
  holds : ∀ p, (w.processes p).Granted → (w.processes p).checkedAt = w.expiries → Holds w.lock p

theorem Held.sound (h : Held w) : Sound w :=
  ⟨fun hchecked p q hp hq =>
    (h.holds p hp (hchecked p hp)).unique (h.holds q hq (hchecked q hq)), h.notLost⟩

theorem Held.pass (h : Held w) (elapsed : ℕ) : Held (w.pass elapsed) := by
  unfold World.pass
  dsimp only
  split_ifs with hsame
  · exact ⟨h.wired, h.checked, h.notLost, by rw [hsame]; exact h.holds⟩
  · refine ⟨h.wired, fun p => (h.checked p).trans (Nat.le_succ _), h.notLost,
      fun p _ hchecked => ?_⟩
    have hle : (w.processes p).checkedAt ≤ w.expiries := h.checked p
    have hlt : (w.processes p).checkedAt = w.expiries + 1 := hchecked
    omega

theorem Held.write (h : Held w) {process : Process} {lock : Slot ℕ} (hwired : process.Wired p)
    (hchecked : process.checkedAt ≤ w.expiries)
    (hnotLost : process.Granted → process.foundLost = false)
    (hholds : process.Granted → process.checkedAt = w.expiries → Holds lock p)
    (hothers : ∀ q, q ≠ p → Holds w.lock q → Holds lock q) :
    Held { w.set p process with lock } := by
  have hcases : ∀ q, q = p ∧ (w.set p process).processes q = process ∨
      q ≠ p ∧ (w.set p process).processes q = w.processes q := by
    intro q
    by_cases hq : q = p
    · subst hq
      exact .inl ⟨rfl, set_self w q process⟩
    · exact .inr ⟨hq, set_ne w process hq⟩
  refine ⟨fun q => ?_, fun q => ?_, fun q => ?_, fun q => ?_⟩
  · show ((w.set p process).processes q).Wired q
    rcases hcases q with ⟨rfl, heq⟩ | ⟨hq, heq⟩
    · rwa [heq]
    · rw [heq]
      exact h.wired q
  · show ((w.set p process).processes q).checkedAt ≤ w.expiries
    rcases hcases q with ⟨rfl, heq⟩ | ⟨hq, heq⟩
    · rwa [heq]
    · rw [heq]
      exact h.checked q
  · show ((w.set p process).processes q).Granted → _
    rcases hcases q with ⟨rfl, heq⟩ | ⟨hq, heq⟩
    · dsimp only
      rwa [heq]
    · dsimp only
      rw [heq]
      exact h.notLost q
  · show ((w.set p process).processes q).Granted →
      ((w.set p process).processes q).checkedAt = w.expiries → Holds lock q
    rcases hcases q with ⟨rfl, heq⟩ | ⟨hq, heq⟩
    · rwa [heq]
    · rw [heq]
      exact fun hgranted hat => hothers q hq (h.holds q hgranted hat)

variable {redis : Redis}

theorem holds_of_acquired (h : (acquireLeaderLock c w p redis).1 = .token) :
    Holds (acquireLeaderLock c w p redis).2 p := by
  rcases redis with _ | executed | _
  · cases h
  · cases h
  · have hfree : w.lock = none := by
      by_contra hsome
      simp [acquireLeaderLock, hsome] at h
    exact holds_acquire.mpr (.inr ⟨hfree, rfl⟩)

theorem holds_acquireLeaderLock {q : ℕ} (h : Holds w.lock q) (redis : Redis) :
    Holds (acquireLeaderLock c w p redis).2 q := by
  rcases redis with _ | executed | _
  · exact h
  · simp only [acquireLeaderLock]
    split_ifs
    · exact holds_acquire.mpr (.inl h)
    · exact h
  · exact holds_acquire.mpr (.inl h)

theorem Held.initializeRuntime (h : Held w) (hrequired : c.lockRequired = true) (alive : Bool)
    (redis : Redis) : Held (w.initializeRuntime c p alive redis) := by
  unfold World.initializeRuntime
  split_ifs with hneeded
  · dsimp only
    by_cases hacquired : (acquireLeaderLock c w p redis).1 = .token
    · rw [if_pos hacquired]
      exact h.write
        ⟨by simp, by simp, fun _ _ => ⟨rfl, granted_of_decision hneeded hacquired⟩⟩
        (Nat.le_refl _) (fun _ => rfl) (fun _ _ => holds_of_acquired hacquired)
        fun q _ hq => holds_acquireLeaderLock hq redis
    · rw [if_neg hacquired]
      exact h.write ⟨by simp, by simp, by simp⟩ (Nat.zero_le _) (fun _ => rfl)
        (fun hgranted => absurd (token_of_granted hrequired hgranted.2) hacquired)
        fun q _ hq => holds_acquireLeaderLock hq redis
  · exact h.write ⟨by simp, by simp, by simp⟩ (Nat.zero_le _) (fun _ => rfl)
      (fun hgranted => by rcases hgranted.2 with hruns | hruns <;> cases hruns) fun _ _ => id

theorem Held.renew (h : Held w) {task : RenewTask}
    (htask : (w.processes p).leaderRenewTask = some task)
    (hlive : (w.processes p).phase = .live)
    (hkept : redis = .answered → Holds w.lock task.token) : Held (w.renew c p task redis) := by
  have htoken : task.token = p := (h.wired p).task task htask
  have hgranted : (w.processes p).Granted := (h.wired p).granted (by simp [htask]) hlive
  have hasleep : ∀ checkedAt : ℕ, ({ w.processes p with
      leaderRenewTask := some { task with wakesAt := w.clock + refreshSleepSeconds c }
      checkedAt } : Process).Wired p := fun checkedAt =>
    (h.wired p).of_eq rfl (by rintro task' htask'; cases htask'; exact htoken) fun _ _ => hgranted
  unfold World.renew
  cases redis with
  | unavailable =>
    exact h.write (hasleep _) (h.checked p) (fun _ => h.notLost p hgranted)
      (fun _ => h.holds p hgranted) fun _ _ => id
  | failed executed =>
    refine h.write (hasleep _) (h.checked p) (fun _ => h.notLost p hgranted)
      (fun _ hat => ?_) fun q _ hq => ?_
    · split_ifs
      · exact holds_extend.mpr (h.holds p hgranted hat)
      · exact h.holds p hgranted hat
    · split_ifs
      · exact holds_extend.mpr hq
      · exact hq
  | answered =>
    dsimp only
    rw [if_pos (hkept rfl)]
    exact h.write (hasleep _) (Nat.le_refl _) (fun _ => h.notLost p hgranted)
      (fun _ _ => holds_extend.mpr (htoken ▸ hkept rfl)) fun q _ hq => holds_extend.mpr hq

theorem Held.shutdown (h : Held w) (redis : Redis) : Held (w.shutdown p redis) := by
  unfold World.shutdown
  have hwired : ({ w.processes p with
      phase := .ended, leaderRenewTask := none, leaderToken := none } : Process).Wired p :=
    ⟨by simp, by simp, by simp⟩
  split
  · exact h.write hwired (h.checked p) (fun hgranted => absurd hgranted.1 (by simp))
      (fun hgranted => absurd hgranted.1 (by simp)) fun _ _ => id
  · rename_i token htoken
    have hp : token = p := (h.wired p).token token htoken
    refine h.write hwired (h.checked p) (fun hgranted => absurd hgranted.1 (by simp))
      (fun hgranted => absurd hgranted.1 (by simp)) fun q hne hq => ?_
    split_ifs
    · exact holds_release.mpr ⟨hq, hp ▸ hne⟩
    · exact hq

theorem Held.crash (h : Held w) : Held (w.set p { w.processes p with phase := .ended }) :=
  h.write ⟨(h.wired p).token, (h.wired p).task, by simp⟩ (h.checked p)
    (fun hgranted => absurd hgranted.1 (by simp)) (fun hgranted => absurd hgranted.1 (by simp))
    fun _ _ => id

theorem Held.step (hrequired : c.lockRequired = true) (h : Held w)
    (hkept : Kept w a) : Held (step c w a) := by
  cases a with
  | clock elapsed => exact h.pass elapsed
  | initializeRuntime p alive redis =>
    simp only [Leader.step]
    split_ifs
    · exact h.initializeRuntime hrequired alive redis
    · exact h
  | renew p redis =>
    simp only [Leader.step]
    split
    · exact h
    · rename_i task htask
      split_ifs with hdue
      · exact h.renew htask hdue.1 fun hredis => hkept hredis hdue.1 task htask hdue.2
      · exact h
  | shutdown p redis =>
    simp only [Leader.step]
    split_ifs
    · exact h.shutdown redis
    · exact h
  | crash p =>
    simp only [Leader.step]
    split_ifs
    · exact h.crash
    · exact h

/-- A process that finds its lock lost goes on with its background jobs. -/
theorem not_sound_of_lost (h : Held w) (hlost : ¬ Kept w a) :
    ¬ Sound (step c w a) := by
  cases a with
  | renew p redis =>
    simp only [Kept, not_forall] at hlost
    obtain ⟨rfl, hlive, task, htask, hwakes, hnotHeld⟩ := hlost
    have hgranted : (w.processes p).Granted :=
      (h.wired p).granted (by rw [Option.mem_def.mp htask]; rfl) hlive
    have hstep : step c w (.renew p .answered) = w.set p { w.processes p with
        leaderRenewTask := none, checkedAt := w.expiries, foundLost := true } := by
      simp only [step, Option.mem_def.mp htask, if_pos (And.intro hlive hwakes), World.renew,
        if_neg hnotHeld]
    intro hsound
    have hgivesUp := hsound.givesUp p
    rw [hstep, set_self] at hgivesUp
    exact Bool.noConfusion (hgivesUp hgranted)
  | _ => exact absurd trivial hlost

theorem held_start (clock : ℕ) : Held { clock } :=
  ⟨wired_start clock, fun _ => Nat.le_refl _, fun _ _ => rfl, fun _ h => absurd h.1 (by simp)⟩

end

/-- **At most one background leader.**  In any run of any number of processes, at most one process
is granted background jobs, as far as the processes can know, and one that finds its lock lost gives
them up, exactly as long as no renewal finds the lock lost. -/
theorem leader_iff (c : Settings) (hrequired : c.lockRequired = true) (clock : ℕ)
    (as : List Action) :
    ((∀ p q, as = p ++ q → Sound (run (step c) { clock } p)) ∧
        Along (step c) (Respects c) { clock } as) ↔
      Along (step c) Kept { clock } as := by
  rw [and_iff_left (lock_respected c clock as)]
  exact holds_iff_along (J := Held) (fun _ _ h hkept => h.step hrequired hkept)
    (fun _ h => h.sound) (fun _ _ h hlost => not_sound_of_lost h hlost) (held_start clock) as

/-- One process runs with the lock, renews it and shuts down, and the next one takes it. -/
def relay : List Action :=
  [.initializeRuntime 1 false .answered, .clock 10, .renew 1 .answered, .clock 10,
    .renew 1 .unavailable, .shutdown 1 .answered, .initializeRuntime 2 false .answered]

theorem relay_kept : Along (step {}) Kept { clock := 0 } relay := by
  refine ⟨trivial, trivial, ?_, trivial, ?_, trivial, trivial, trivial⟩
  · intro _ _ task htask _
    cases htask
    exact ⟨_, rfl, rfl⟩
  · intro hredis
    cases hredis

theorem relay_sound : Along (step {}) Kept { clock := 0 } relay ∧
    (∀ p q, relay = p ++ q → Sound (run (step {}) { clock := 0 } p)) ∧
      Along (step {}) (Respects {}) { clock := 0 } relay :=
  ⟨relay_kept, (leader_iff {} rfl 0 relay).mpr relay_kept⟩

/-- A process sleeps until its lock has expired and another one has taken it. -/
def takenOver : List Action :=
  [.initializeRuntime 1 false .answered, .clock 31, .initializeRuntime 2 false .answered,
    .renew 1 .answered, .clock 10, .renew 2 .answered]

/-- Both processes have asked for the lock since, and both run the scheduler. -/
theorem two_leaders :
    ((∀ p, ((run (step {}) { clock := 0 } takenOver).processes p).phase = .live →
        ((run (step {}) { clock := 0 } takenOver).processes p).checkedAt =
          (run (step {}) { clock := 0 } takenOver).expiries) ∧
      ((run (step {}) { clock := 0 } takenOver).processes 1).Granted ∧
      ((run (step {}) { clock := 0 } takenOver).processes 2).Granted) ∧
    ¬ ∀ p q, takenOver = p ++ q → Sound (run (step {}) { clock := 0 } p) := by
  have hchecked : ∀ p, ((run (step {}) { clock := 0 } takenOver).processes p).phase = .live →
      ((run (step {}) { clock := 0 } takenOver).processes p).checkedAt =
        (run (step {}) { clock := 0 } takenOver).expiries := by
    intro p hlive
    by_cases h1 : p = 1
    · subst h1
      rfl
    · by_cases h2 : p = 2
      · subst h2
        rfl
      · have hother : (run (step {}) { clock := 0 } takenOver).processes p = {} :=
          process_run_of_ne (by simp [takenOver, Action.actor, Ne.symm h1, Ne.symm h2])
        rw [hother] at hlive
        cases hlive
  have hone : ((run (step {}) { clock := 0 } takenOver).processes 1).Granted := ⟨rfl, .inl rfl⟩
  have htwo : ((run (step {}) { clock := 0 } takenOver).processes 2).Granted := ⟨rfl, .inl rfl⟩
  refine ⟨⟨hchecked, hone, htwo⟩, fun hsound => ?_⟩
  have hsingle := (hsound takenOver [] (List.append_nil _).symm).single
    (fun p hp => hchecked p hp.1) 1 2 hone htwo
  cases hsingle

end WezuBackend.Background.Leader
