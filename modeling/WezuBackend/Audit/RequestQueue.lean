import WezuBackend.Lib.Interleaving
import Mathlib.Algebra.Order.BigOperators.Group.Finset
import Mathlib.Data.Fintype.BigOperators
import Mathlib.Data.List.ReduceOption

/-!
# The request audit queue

`app/services/request_audit_queue.py`: requests put events into a bounded queue, `workers` tasks
take them out and hand them on in batches, and `stop` puts one `None` for each task behind the
events and waits for the tasks.  An action is what one task does between two points at which it can
be suspended, or less: a worker takes at most one item at a turn.  Times are microseconds of the
loop's clock; whatever a turn reads there is allowed.

* `Sound`: where the accepted events are, and where the `None`s.
* `accepted_events_flushed`: what holds when `stop` has returned.
* `stop_returns`: from every state in which it was called, it can.
-/

namespace WezuBackend.Audit.RequestQueue

open Lib.Runs Lib.Interleaving

/-! ## The service -/

/-- The arguments of `enqueue`. -/
structure Request (M : Type) where
  userId : Option ℤ
  action : String
  resourceType : String
  resourceId : String
  details : String
  metadata : M
  ipAddress : Option String
  userAgent : Option String

/-- What is written of a request. -/
structure AuditEvent (M : Type) where
  userId : Option ℤ
  action : String
  resourceType : String
  resourceId : String
  details : String
  metaData : M
  ipAddress : Option String
  userAgent : Option String
  timestamp : ℤ

/-- The arguments of the constructor. -/
structure Settings where
  maxsize : ℤ
  batchSize : ℤ
  flushMs : ℤ
  workers : ℤ

namespace Settings

variable (c : Settings)

/-- `max(1, maxsize)`. -/
def capacity : ℕ := (max 1 c.maxsize).toNat

/-- `max(1, batch_size)`. -/
def batchLimit : ℕ := (max 1 c.batchSize).toNat

/-- `max(0.01, flush_ms / 1000.0)`. -/
def flushTime : ℤ := max 10000 (c.flushMs * 1000)

/-- `max(1, workers)`. -/
def workerCount : ℕ := (max 1 c.workers).toNat

theorem batchLimit_pos : 0 < c.batchLimit := by unfold batchLimit; omega

theorem capacity_pos : 0 < c.capacity := by unfold capacity; omega

theorem workerCount_pos : 0 < c.workerCount := by unfold workerCount; omega

end Settings

/-- An event, numbered in the order of acceptance. -/
abbrev Ticket (M : Type) := ℕ × AuditEvent M

inductive Worker (M : Type) where
  /-- in `await self._queue.get()`, with an empty batch -/
  | getting
  /-- in the inner loop -/
  | collecting (pending : List (Ticket M)) (deadline : ℤ)
  | ended

namespace Worker

variable {M : Type}

def isEnded : Worker M → Bool
  | ended => true
  | _ => false

/-- The batch that the task has begun. -/
def pending : Worker M → List (Ticket M)
  | collecting pending _ => pending
  | _ => []

end Worker

/-- Where `stop` is suspended. -/
inductive Stop where
  | notCalled
  /-- some `None`s are still to be put -/
  | putting (left : ℕ)
  /-- in `asyncio.gather` -/
  | gathering
  | returned
  deriving DecidableEq

/-- The service and its tasks; `accepted` and `batches` record what `enqueue` answered with `True`
and what `_flush_batch` was called with. -/
structure Service (M : Type) (n : ℕ) where
  queue : List (Option (Ticket M))
  running : Bool
  workers : Fin n → Worker M
  stopping : Stop
  enqueued : ℕ
  dropped : ℕ
  flushed : ℕ
  flushErrors : ℕ
  accepted : List (Ticket M)
  batches : List (List (Ticket M))

namespace Service

variable {M : Type} {n : ℕ}

/-- After `start`: the tasks have been created. -/
def started : Service M n where
  queue := []
  running := true
  workers := fun _ => .getting
  stopping := .notCalled
  enqueued := 0
  dropped := 0
  flushed := 0
  flushErrors := 0
  accepted := []
  batches := []

def setWorker (s : Service M n) (i : Fin n) (w : Worker M) : Service M n :=
  { s with workers := Function.update s.workers i w }

/-- `put_nowait` where there is room. -/
def put (s : Service M n) (item : Option (Ticket M)) : Service M n :=
  { s with queue := s.queue ++ [item] }

def event (sanitize : M → M) (r : Request M) (now : ℤ) : AuditEvent M where
  userId := r.userId
  action := r.action
  resourceType := r.resourceType
  resourceId := String.ofList (r.resourceId.toList.take 255)
  details := String.ofList (r.details.toList.take 512)
  metaData := sanitize r.metadata
  ipAddress := r.ipAddress
  userAgent := (r.userAgent.filter (· ≠ "")).map fun a => String.ofList (a.toList.take 512)
  timestamp := now

/-- The answer, and the service after it. -/
def enqueue (sanitize : M → M) (c : Settings) (s : Service M n) (r : Request M) (now : ℤ) :
    Bool × Service M n :=
  if s.running then
    if s.queue.length < c.capacity then
      (true, { s.put (some (s.enqueued, event sanitize r now)) with enqueued := s.enqueued + 1 })
    else (false, { s with dropped := s.dropped + 1 })
  else (false, s)

/-- `_flush_batch`; an exception of the database is caught. -/
def flushBatch (s : Service M n) (batch : List (Ticket M)) (stored : Bool) : Service M n :=
  { s with
    batches := s.batches ++ [batch]
    flushed := if stored then s.flushed + batch.length else s.flushed
    flushErrors := if stored then s.flushErrors else s.flushErrors + 1 }

/-- A turn of `_worker_loop`: `now` is the time it reads, `stored` whether a batch that it flushes
reaches the database.  An expired timeout of `wait_for` is a turn after the deadline. -/
def workerTurn (c : Settings) (s : Service M n) (i : Fin n) (now : ℤ) (stored : Bool) :
    Service M n :=
  match s.workers i with
  | .ended => s
  | .getting =>
    match s.queue with
    | [] => s
    | none :: rest => { s with queue := rest }.setWorker i .ended
    | some e :: rest =>
      { s with queue := rest }.setWorker i (.collecting [e] (now + c.flushTime))
  | .collecting pending deadline =>
    if c.batchLimit ≤ pending.length ∨ deadline ≤ now then
      (s.flushBatch pending stored).setWorker i .getting
    else
      match s.queue with
      | [] => s
      | none :: rest => ({ s with queue := rest }.flushBatch pending stored).setWorker i .ended
      | some e :: rest =>
        { s with queue := rest }.setWorker i (.collecting (pending ++ [e]) deadline)

/-- A turn of `stop`. -/
def stopTurn (c : Settings) (s : Service M n) : Service M n :=
  match s.stopping with
  | .notCalled =>
    if s.running then { s with running := false, stopping := .putting n }
    else { s with stopping := .returned }
  | .putting 0 => { s with stopping := .gathering }
  | .putting (left + 1) =>
    if s.queue.length < c.capacity then { s.put none with stopping := .putting left } else s
  | .gathering =>
    if ∀ i, (s.workers i).isEnded then { s with stopping := .returned } else s
  | .returned => s

end Service

/-! ## Actions -/

/-- What happens next: a request is audited, a worker has its turn, or `stop` has. -/
inductive Action (M : Type) (n : ℕ) where
  | enqueue (r : Request M) (now : ℤ)
  | worker (i : Fin n) (now : ℤ) (stored : Bool)
  | stop

section

variable {M : Type} {n : ℕ} (sanitize : M → M) (c : Settings)

/-- `enqueue`, and the record of what it accepts. -/
def audit (s : Service M n) (r : Request M) (now : ℤ) : Service M n :=
  match s.enqueue sanitize c r now with
  | (true, s') => { s' with accepted := s.accepted ++ [(s.enqueued, Service.event sanitize r now)] }
  | (false, s') => s'

def step (s : Service M n) : Action M n → Service M n
  | .enqueue r now => audit sanitize c s r now
  | .worker i now stored => s.workerTurn c i now stored
  | .stop => s.stopTurn c

end

/-! ## Where the events and the signals are -/

/-- The `None`s that `stop` is still to put. -/
def Stop.left (n : ℕ) : Stop → ℕ
  | notCalled => n
  | putting left => left
  | gathering => 0
  | returned => 0

/-- How many tasks this one is that has ended. -/
def endings {M : Type} (w : Worker M) : ℕ := if w.isEnded then 1 else 0

section

variable {M : Type} {n : ℕ} {c : Settings} {s s' : Service M n}

/-- What every action keeps. -/
structure Sound (c : Settings) (s : Service M n) : Prop where
  /-- an accepted event was handed on, is in a worker's batch or is in the queue -/
  content : (s.accepted : Multiset (Ticket M)) =
    s.batches.flatten + ∑ i, ((s.workers i).pending : Multiset (Ticket M)) + s.queue.reduceOption
  numbered : s.accepted.map Prod.fst = List.range s.enqueued
  /-- each task has its `None`: still to be put, in the queue, or taken -/
  signals : s.queue.countP Option.isNone + s.stopping.left n + ∑ i, endings (s.workers i) = n
  running : s.running = true ↔ s.stopping = .notCalled
  /-- nothing but `None`s stands behind a `None` -/
  behind : s.queue.Pairwise fun a b => a.isNone → b.isNone
  drained : (∃ i, (s.workers i).isEnded) → s.queue.reduceOption = []
  gathered : s.stopping = .returned → ∀ i, (s.workers i).isEnded
  batches : ∀ b ∈ s.batches, b ≠ [] ∧ b.length ≤ c.batchLimit
  pending : ∀ i, (s.workers i).pending.length ≤ c.batchLimit
  collecting : ∀ i pending deadline, s.workers i = .collecting pending deadline → pending ≠ []

theorem sound_started (c : Settings) : Sound c (Service.started : Service M n) where
  content := by simp [Service.started, Worker.pending]
  numbered := rfl
  signals := by simp [Service.started, Stop.left, endings, Worker.isEnded]
  running := by simp [Service.started]
  behind := .nil
  drained := by simp [Service.started, Worker.isEnded]
  gathered := by simp [Service.started]
  batches := by simp [Service.started]
  pending := by simp [Service.started, Worker.pending]
  collecting := by simp [Service.started]

/-- While the service runs there is no `None`, and no task has ended. -/
theorem Sound.open (h : Sound c s) (hrunning : s.running = true) :
    (∀ x ∈ s.queue, x.isNone = false) ∧ ∀ i, (s.workers i).isEnded = false := by
  have hsignals := h.signals
  rw [h.running.mp hrunning] at hsignals
  simp only [Stop.left] at hsignals
  have hnone : s.queue.countP Option.isNone = 0 := by omega
  have hended : ∑ i, endings (s.workers i) = 0 := by omega
  constructor
  · intro x hx
    have hx' := List.countP_eq_zero.mp hnone x hx
    simpa [← Option.isNone_iff_eq_none] using hx'
  · intro i
    have hi := Finset.sum_eq_zero_iff.mp hended i (Finset.mem_univ i)
    simpa [endings] using hi

theorem Sound.accepted (h : Sound c s) (hrunning : s.running = true) (e : AuditEvent M) :
    Sound c { s.put (some (s.enqueued, e)) with
      enqueued := s.enqueued + 1, accepted := s.accepted ++ [(s.enqueued, e)] } := by
  obtain ⟨hnone, hended⟩ := h.open hrunning
  constructor
  · have hcontent := h.content
    simp only [Service.put, List.reduceOption_append, List.reduceOption_singleton,
      Option.toList_some, ← Multiset.coe_add, hcontent]
    abel
  · simp [h.numbered, List.range_succ]
  · have hsignals := h.signals
    simpa [Service.put] using hsignals
  · exact h.running
  · refine List.pairwise_append.mpr ⟨h.behind, List.pairwise_singleton _ _, ?_⟩
    intro a ha b _ hanone
    simp [hnone a ha] at hanone
  · rintro ⟨i, hi⟩
    simp [Service.put, hended i] at hi
  · exact h.gathered
  · exact h.batches
  · exact h.pending
  · exact h.collecting

theorem Sound.reduceOption_of_head (h : Sound c s) (hhead : s.queue.head? = some none) :
    s.queue.reduceOption = [] := by
  obtain ⟨rest, hq⟩ := List.head?_eq_some_iff.mp hhead
  have hbehind := h.behind
  rw [hq, List.pairwise_cons] at hbehind
  have hnone : ∀ x ∈ rest, x = none := by simpa using hbehind.1
  rw [hq, List.reduceOption_cons_of_none]
  exact List.filterMap_eq_nil_iff.mpr hnone

variable {i : Fin n}

/-- **A worker's turn** that changes something: it takes the first item of the queue or none, and
what it had begun or taken is handed on or is in its batch. -/
theorem Sound.turned (h : Sound c s) {w : Worker M}
    (hbusy : (s.workers i).isEnded = false)
    (hworkers : s'.workers = Function.update s.workers i w)
    (hrest : s'.accepted = s.accepted ∧ s'.enqueued = s.enqueued ∧ s'.running = s.running ∧
      s'.stopping = s.stopping)
    (hqueue : s'.queue = s.queue ∨ ∃ x, s.queue = x :: s'.queue)
    (hcontent : (s'.batches.flatten + w.pending + s'.queue.reduceOption : Multiset (Ticket M)) =
      s.batches.flatten + (s.workers i).pending + s.queue.reduceOption)
    (hsignals : s'.queue.countP Option.isNone + endings w = s.queue.countP Option.isNone)
    (hdrained : w.isEnded → s.queue.head? = some none)
    (hbatches : ∀ b ∈ s'.batches, b ∈ s.batches ∨ b ≠ [] ∧ b.length ≤ c.batchLimit)
    (hpending : w.pending.length ≤ c.batchLimit)
    (hcollecting : ∀ pending deadline, w = .collecting pending deadline → pending ≠ []) :
    Sound c s' := by
  obtain ⟨haccepted, henqueued, hrunning, hstopping⟩ := hrest
  have hempty : s.queue.reduceOption = [] → s'.queue.reduceOption = [] := by
    intro hnil
    rcases hqueue with hq | ⟨x, hq⟩
    · rwa [hq]
    · rw [hq] at hnil
      rcases x with _ | e
      · exact hnil
      · cases hnil
  constructor
  · have hsum := sum_position_update (fun w => (Worker.pending w : Multiset (Ticket M)))
      s.workers i w
    rw [haccepted, h.content, hworkers]
    refine add_right_cancel (b := ((s.workers i).pending : Multiset (Ticket M))) ?_
    generalize (∑ j, (Function.update s.workers i w j).pending : Multiset (Ticket M)) = after
      at hsum ⊢
    generalize (∑ j, (s.workers j).pending : Multiset (Ticket M)) = before at hsum ⊢
    calc (s.batches.flatten + before + s.queue.reduceOption + (s.workers i).pending :
          Multiset (Ticket M))
        = before + (s.batches.flatten + (s.workers i).pending + s.queue.reduceOption) := by abel
      _ = before + (s'.batches.flatten + w.pending + s'.queue.reduceOption) := by rw [hcontent]
      _ = s'.batches.flatten + (before + w.pending) + s'.queue.reduceOption := by abel
      _ = s'.batches.flatten + (after + (s.workers i).pending) + s'.queue.reduceOption := by
        rw [hsum]
      _ = s'.batches.flatten + after + s'.queue.reduceOption + (s.workers i).pending := by abel
  · rw [haccepted, henqueued]
    exact h.numbered
  · have hsum := sum_position_update endings s.workers i w
    have hzero : endings (s.workers i) = 0 := by simp [endings, hbusy]
    have hbefore := h.signals
    rw [hstopping, hworkers]
    omega
  · rw [hrunning, hstopping]
    exact h.running
  · rcases hqueue with hq | ⟨x, hq⟩
    · rw [hq]
      exact h.behind
    · have hbehind := h.behind
      rw [hq] at hbehind
      exact hbehind.of_cons
  · rintro ⟨j, hj⟩
    rw [hworkers] at hj
    by_cases hji : j = i
    · subst hji
      rw [Function.update_self] at hj
      exact hempty (h.reduceOption_of_head (hdrained hj))
    · rw [Function.update_of_ne hji] at hj
      exact hempty (h.drained ⟨j, hj⟩)
  · intro hreturned
    rw [hstopping] at hreturned
    have hi := h.gathered hreturned i
    simp [hbusy] at hi
  · intro b hb
    rcases hbatches b hb with hb | hb
    · exact h.batches b hb
    · exact hb
  · intro j
    rw [hworkers]
    by_cases hji : j = i
    · subst hji
      rwa [Function.update_self]
    · rw [Function.update_of_ne hji]
      exact h.pending j
  · intro j pending deadline hj
    rw [hworkers] at hj
    by_cases hji : j = i
    · subst hji
      rw [Function.update_self] at hj
      exact hcollecting pending deadline hj
    · rw [Function.update_of_ne hji] at hj
      exact h.collecting j pending deadline hj

theorem Sound.workerTurn (h : Sound c s) (i : Fin n) (now : ℤ) (stored : Bool) :
    Sound c (s.workerTurn c i now stored) := by
  have hlimit := c.batchLimit_pos
  unfold Service.workerTurn
  cases hi : s.workers i with
  | ended => exact h
  | getting =>
    have hbusy : (s.workers i).isEnded = false := by simp [hi, Worker.isEnded]
    rcases hq : s.queue with _ | ⟨_ | e, rest⟩
    · exact h
    · refine h.turned hbusy rfl ⟨rfl, rfl, rfl, rfl⟩ (.inr ⟨_, hq⟩) ?_ ?_ ?_ ?_ ?_ ?_
      · simp [Service.setWorker, hi, hq, Worker.pending]
      · simp [Service.setWorker, hq, endings, Worker.isEnded]
      · simp [hq]
      · exact fun b hb => .inl hb
      · exact Nat.zero_le _
      · simp
    · refine h.turned hbusy rfl ⟨rfl, rfl, rfl, rfl⟩ (.inr ⟨_, hq⟩) ?_ ?_ ?_ ?_ ?_ ?_
      · simp [Service.setWorker, hi, hq, Worker.pending, add_assoc]
      · simp [Service.setWorker, hq, endings, Worker.isEnded]
      · simp [Worker.isEnded]
      · exact fun b hb => .inl hb
      · simp only [Worker.pending, List.length_singleton]
        omega
      · simp
  | collecting pending deadline =>
    have hbusy : (s.workers i).isEnded = false := by simp [hi, Worker.isEnded]
    have hpending : pending.length ≤ c.batchLimit := by
      have hle := h.pending i
      rwa [hi] at hle
    have hne : pending ≠ [] := h.collecting i pending deadline hi
    have hflushed : ∀ b ∈ s.batches ++ [pending],
        b ∈ s.batches ∨ b ≠ [] ∧ b.length ≤ c.batchLimit := by
      intro b hb
      rcases List.mem_append.mp hb with hb | hb
      · exact .inl hb
      · rw [List.mem_singleton.mp hb]
        exact .inr ⟨hne, hpending⟩
    dsimp only
    split_ifs with hfull
    · refine h.turned hbusy rfl ⟨rfl, rfl, rfl, rfl⟩ (.inl rfl) ?_ ?_ ?_ hflushed ?_ ?_
      · simp [Service.setWorker, Service.flushBatch, hi, Worker.pending]
      · simp [Service.setWorker, Service.flushBatch, endings, Worker.isEnded]
      · simp [Worker.isEnded]
      · exact Nat.zero_le _
      · simp
    · rcases hq : s.queue with _ | ⟨_ | e, rest⟩
      · exact h
      · refine h.turned hbusy rfl ⟨rfl, rfl, rfl, rfl⟩ (.inr ⟨_, hq⟩) ?_ ?_ ?_ hflushed ?_ ?_
        · simp [Service.setWorker, Service.flushBatch, hi, hq, Worker.pending]
        · simp [Service.setWorker, Service.flushBatch, hq, endings, Worker.isEnded]
        · simp [hq]
        · exact Nat.zero_le _
        · simp
      · refine h.turned hbusy rfl ⟨rfl, rfl, rfl, rfl⟩ (.inr ⟨_, hq⟩) ?_ ?_ ?_ ?_ ?_ ?_
        · simp [Service.setWorker, hi, hq, Worker.pending]
        · simp [Service.setWorker, hq, endings, Worker.isEnded]
        · simp [Worker.isEnded]
        · exact fun b hb => .inl hb
        · simp only [Worker.pending, List.length_append, List.length_singleton]
          omega
        · simp

theorem Sound.signalled (h : Sound c s) {left : ℕ} (hstopping : s.stopping = .putting (left + 1)) :
    Sound c { s.put none with stopping := .putting left } := by
  constructor
  · simpa [Service.put, List.reduceOption_append] using h.content
  · exact h.numbered
  · have hsignals := h.signals
    rw [hstopping] at hsignals
    simp only [Stop.left] at hsignals
    simp only [Service.put, Stop.left, List.countP_append, List.countP_singleton,
      Option.isNone_none, if_true]
    omega
  · have hrunning := h.running
    simp only [hstopping, reduceCtorEq, iff_false] at hrunning
    simp [Service.put, hrunning]
  · refine List.pairwise_append.mpr ⟨h.behind, List.pairwise_singleton _ _, ?_⟩
    intro a _ b hb _
    simp [List.mem_singleton.mp hb]
  · intro hended
    have hdrained := h.drained hended
    simpa [Service.put, List.reduceOption_append] using hdrained
  · intro hreturned
    cases hreturned
  · exact h.batches
  · exact h.pending
  · exact h.collecting

theorem Sound.stopped (h : Sound c s) {running : Bool} {stopping : Stop}
    (hrunning : running = true ↔ stopping = .notCalled)
    (hleft : stopping.left n = s.stopping.left n)
    (hgathered : stopping = .returned → ∀ i, (s.workers i).isEnded) :
    Sound c { s with running := running, stopping := stopping } where
  content := h.content
  numbered := h.numbered
  signals := by
    have hsignals := h.signals
    rwa [← hleft] at hsignals
  running := hrunning
  behind := h.behind
  drained := h.drained
  gathered := hgathered
  batches := h.batches
  pending := h.pending
  collecting := h.collecting

theorem Sound.stopTurn (h : Sound c s) : Sound c (s.stopTurn c) := by
  have hrunning := h.running
  unfold Service.stopTurn
  rcases hstopping : s.stopping with _ | left | _ | _
  · have hr : s.running = true := hrunning.mpr hstopping
    dsimp only
    rw [if_pos hr]
    exact h.stopped (by simp) (by rw [hstopping]; rfl) (by simp)
  · have hr : s.running = false := by simpa [hstopping] using hrunning
    cases left with
    | zero => exact h.stopped (by simp [hr]) (by rw [hstopping]; rfl) (by simp)
    | succ left =>
      dsimp only
      split_ifs with hroom
      · exact h.signalled hstopping
      · exact h
  · have hr : s.running = false := by simpa [hstopping] using hrunning
    dsimp only
    split_ifs with hall
    · exact h.stopped (by simp [hr]) (by rw [hstopping]; rfl) fun _ => hall
    · exact h
  · exact h

theorem sound_step (sanitize : M → M) (c : Settings) (s : Service M n) (a : Action M n)
    (h : Sound c s) : Sound c (step sanitize c s a) := by
  cases a with
  | enqueue r now =>
    simp only [step, audit, Service.enqueue]
    by_cases hrunning : s.running = true
    · by_cases hroom : s.queue.length < c.capacity
      · simp only [if_pos hrunning, if_pos hroom]
        exact h.accepted hrunning _
      · simp only [if_pos hrunning, if_neg hroom]
        exact ⟨h.content, h.numbered, h.signals, h.running, h.behind, h.drained, h.gathered,
          h.batches, h.pending, h.collecting⟩
    · simp only [if_neg hrunning]
      exact h
  | worker i now stored => exact h.workerTurn i now stored
  | stop => exact h.stopTurn

/-- The service after `start` and the actions. -/
def after (sanitize : M → M) (c : Settings) (actions : List (Action M c.workerCount)) :
    Service M c.workerCount :=
  run (step sanitize c) Service.started actions

theorem sound_after (sanitize : M → M) (c : Settings) (actions : List (Action M c.workerCount)) :
    Sound c (after sanitize c actions) :=
  run_invariant (sound_step sanitize c) (sound_started c) actions

/-- **When `stop` has returned**, every accepted event is in exactly one batch, and every worker has
ended; and a batch is never empty and never too long. -/
theorem accepted_events_flushed (sanitize : M → M) (c : Settings)
    (actions : List (Action M c.workerCount)) :
    (∀ batch ∈ (after sanitize c actions).batches,
        batch ≠ [] ∧ batch.length ≤ c.batchLimit) ∧
      (after sanitize c actions).accepted.map Prod.fst =
        List.range (after sanitize c actions).enqueued ∧
      ((after sanitize c actions).stopping = .returned →
        (after sanitize c actions).batches.flatten.Perm (after sanitize c actions).accepted ∧
        ∀ i, ((after sanitize c actions).workers i).isEnded) := by
  have h := sound_after sanitize c actions
  generalize after sanitize c actions = s at h ⊢
  refine ⟨h.batches, h.numbered, fun hreturned => ⟨?_, h.gathered hreturned⟩⟩
  have hended := h.gathered hreturned
  have hqueue : s.queue.reduceOption = [] :=
    h.drained ⟨⟨0, c.workerCount_pos⟩, hended _⟩
  have hpending : ∀ i, (s.workers i).pending = [] := by
    intro i
    have hi := hended i
    cases hw : s.workers i <;> simp [hw, Worker.isEnded, Worker.pending] at hi ⊢
  have hcontent := h.content
  simp only [hqueue, hpending, Multiset.coe_nil, Finset.sum_const_zero, add_zero] at hcontent
  exact (Multiset.coe_eq_coe.mp hcontent).symm

/-! ## `stop` is never stuck -/

/-- What a worker has still to do with its batch. -/
def Worker.work (w : Worker M) : ℕ :=
  match w with
  | collecting _ _ => 1
  | _ => 0

@[simp] theorem Worker.work_getting : (getting : Worker M).work = 0 := rfl

@[simp] theorem Worker.work_collecting (pending : List (Ticket M)) (deadline : ℤ) :
    (collecting pending deadline).work = 1 := rfl

@[simp] theorem Worker.work_ended : (ended : Worker M).work = 0 := rfl

/-- What `stop` has still to do. -/
def Stop.work : Stop → ℕ
  | notCalled => 0
  | putting left => 4 * left + 2
  | gathering => 1
  | returned => 0

/-- What is left to do until `stop` returns. -/
def Service.work (s : Service M n) : ℕ :=
  s.stopping.work + 3 * s.queue.length + ∑ i, (s.workers i).work

theorem workerTurn_work (hi : (s.workers i).isEnded = false) (hq : s.queue ≠ []) :
    (s.workerTurn c i 0 true).work < s.work ∧
      (s.workerTurn c i 0 true).stopping = s.stopping := by
  have hsum := fun w => sum_position_update Worker.work s.workers i w
  obtain ⟨x, rest, hx⟩ := List.exists_cons_of_ne_nil hq
  unfold Service.workerTurn
  cases hw : s.workers i with
  | ended => simp [hw, Worker.isEnded] at hi
  | getting =>
    rcases x with _ | e
    · have hend := hsum .ended
      simp only [hw, Worker.work_getting, Worker.work_ended] at hend
      simp only [hx, Service.setWorker, Service.work, List.length_cons, and_true]
      omega
    · have hbegin := hsum (.collecting [e] (0 + c.flushTime))
      simp only [hw, Worker.work_getting, Worker.work_collecting] at hbegin
      simp only [hx, Service.setWorker, Service.work, List.length_cons, and_true]
      omega
  | collecting pending deadline =>
    dsimp only
    split_ifs with hfull
    · have hflush := hsum .getting
      simp only [hw, Worker.work_getting, Worker.work_collecting] at hflush
      simp only [Service.setWorker, Service.flushBatch, Service.work, and_true]
      omega
    · rcases x with _ | e
      · have hend := hsum .ended
        simp only [hw, Worker.work_collecting, Worker.work_ended] at hend
        simp only [hx, Service.setWorker, Service.flushBatch, Service.work, List.length_cons,
          and_true]
        omega
      · have hnext := hsum (.collecting (pending ++ [e]) deadline)
        simp only [hw, Worker.work_collecting] at hnext
        simp only [hx, Service.setWorker, Service.work, List.length_cons, and_true]
        omega

/-- As long as some task has not ended, there is a next one to go on. -/
theorem Sound.exists_busy (h : Sound c s)
    (hn : s.queue.countP Option.isNone + s.stopping.left n ≠ 0) :
    ∃ i, (s.workers i).isEnded = false := by
  by_contra hall
  have hended : ∀ i, endings (s.workers i) = 1 := by
    intro i
    have hi : (s.workers i).isEnded = true := by
      by_contra hi
      exact hall ⟨i, by simpa using hi⟩
    simp [endings, hi]
  have hsignals := h.signals
  have hcount : ∑ i, endings (s.workers i) = n := by simp [hended]
  omega

theorem Sound.progress (h : Sound c s) (sanitize : M → M) (hcalled : s.stopping ≠ .notCalled)
    (hreturned : s.stopping ≠ .returned) :
    ∃ a, (step sanitize c s a).work < s.work ∧
      (step sanitize c s a).stopping ≠ .notCalled := by
  have hcapacity := c.capacity_pos
  have hworker : s.queue ≠ [] → s.queue.countP Option.isNone + s.stopping.left n ≠ 0 →
      ∃ a, (step sanitize c s a).work < s.work ∧
        (step sanitize c s a).stopping ≠ .notCalled := by
    intro hq hn
    obtain ⟨i, hi⟩ := h.exists_busy hn
    obtain ⟨hwork, hstopping⟩ := workerTurn_work (c := c) hi hq
    exact ⟨.worker i 0 true, hwork, by rw [step, hstopping]; exact hcalled⟩
  rcases hstopping : s.stopping with _ | left | _ | _
  · exact absurd hstopping hcalled
  · cases left with
    | zero =>
      refine ⟨.stop, ?_, ?_⟩ <;> simp [step, Service.stopTurn, hstopping, Service.work, Stop.work]
    | succ left =>
      by_cases hroom : s.queue.length < c.capacity
      · refine ⟨.stop, ?_, ?_⟩
        · simp only [step, Service.stopTurn, hstopping, if_pos hroom, Service.work, Stop.work,
            Service.put, List.length_append, List.length_singleton]
          omega
        · simp [step, Service.stopTurn, hstopping, hroom]
      · refine hworker ?_ (by rw [hstopping]; simp [Stop.left])
        rintro hnil
        simp [hnil, hcapacity] at hroom
  · by_cases hall : ∀ i, (s.workers i).isEnded
    · refine ⟨.stop, ?_, ?_⟩ <;>
        simp [step, Service.stopTurn, hstopping, hall, Service.work, Stop.work]
    · have hsome : s.queue.countP Option.isNone ≠ 0 := by
        intro hzero
        have hsignals := h.signals
        obtain ⟨i, hi⟩ := not_forall.mp hall
        have hlt : ∑ i, endings (s.workers i) < ∑ _i : Fin n, 1 := by
          refine Finset.sum_lt_sum (fun j _ => ?_) ⟨i, Finset.mem_univ i, ?_⟩
          · unfold endings
            split_ifs <;> omega
          · simp [endings, hi]
        have hcount : ∑ _i : Fin n, 1 = n := by simp
        rw [hstopping] at hsignals
        simp only [Stop.left] at hsignals
        omega
      refine hworker ?_ (by omega)
      rintro hnil
      simp [hnil] at hsome
  · exact absurd hstopping hreturned

/-- **`stop` can return** from every state in which it was called: the tasks cannot wait for each
other. -/
theorem stop_returns (sanitize : M → M) (c : Settings) (actions : List (Action M c.workerCount))
    (hcalled : (after sanitize c actions).stopping ≠ .notCalled) :
    ∃ more, (after sanitize c (actions ++ more)).stopping = .returned := by
  have hmain : ∀ (work : ℕ) (s : Service M c.workerCount), Sound c s →
      s.stopping ≠ .notCalled → s.work ≤ work →
        ∃ more, (run (step sanitize c) s more).stopping = .returned := by
    intro work
    induction work with
    | zero =>
      intro s h hs hle
      by_contra hno
      have hreturned : s.stopping ≠ .returned := fun hr => hno ⟨[], hr⟩
      obtain ⟨a, hlt, -⟩ := h.progress sanitize hs hreturned
      omega
    | succ work ih =>
      intro s h hs hle
      by_cases hreturned : s.stopping = .returned
      · exact ⟨[], hreturned⟩
      · obtain ⟨a, hlt, ha⟩ := h.progress sanitize hs hreturned
        obtain ⟨more, hmore⟩ := ih _ (sound_step sanitize c s a h) ha (by omega)
        exact ⟨a :: more, hmore⟩
  obtain ⟨more, hmore⟩ := hmain _ _ (sound_after sanitize c actions) hcalled le_rfl
  refine ⟨more, ?_⟩
  rw [after, run_append]
  exact hmore

end

/-! ## A shutdown -/

/-- Two workers, and room for two events. -/
def sampleSettings : Settings := ⟨2, 2, 100, 2⟩

def sampleRequest : Request Unit := ⟨some 7, "GET", "api", "/", "", (), none, some "curl"⟩

/-- Two of three events are accepted, and `stop` has to wait for room in the queue. -/
def sampleActions : List (Action Unit sampleSettings.workerCount) :=
  [.enqueue sampleRequest 1, .enqueue sampleRequest 2, .enqueue sampleRequest 3, .stop, .stop,
    .worker ⟨0, by decide⟩ 4 true, .stop, .worker ⟨1, by decide⟩ 5 true, .stop, .stop,
    .worker ⟨0, by decide⟩ 6 true, .worker ⟨1, by decide⟩ 7 false, .stop, .stop]

theorem accepted_events_flushed_sample :
    (after id sampleSettings sampleActions).batches.flatten.Perm
        (after id sampleSettings sampleActions).accepted ∧
      ∀ i, ((after id sampleSettings sampleActions).workers i).isEnded :=
  (accepted_events_flushed id sampleSettings sampleActions).2.2 (by decide +kernel)

example : ((after id sampleSettings sampleActions).batches.map fun b => b.map Prod.fst) =
    [[0], [1]] := by decide +kernel

theorem stop_returns_sample : ∃ more,
    (after id sampleSettings ([.enqueue sampleRequest 1, .stop] ++ more)).stopping = .returned :=
  stop_returns id sampleSettings _ (by decide)

end WezuBackend.Audit.RequestQueue
