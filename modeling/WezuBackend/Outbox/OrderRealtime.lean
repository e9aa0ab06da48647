import WezuBackend.Outbox.Notifications

/-!
# The order realtime outbox

`OrderRealtimeOutboxService`, with the columns that its delivery uses.  A dispatch needs the lock in
Redis, if there is one; it claims the rows that are due, publishes each of them and commits.

There is no status for a row that has used up its attempts: if the last one fails, the row stays in
`failed`, and is never claimed again (`rows_stranded`).  In a run without this every step is one of
an outbox, and so is every step of the notification outbox without a late deferral: rows are never
stranded (`outboxes_cover_rows`).
-/

namespace WezuBackend.Outbox.OrderRealtime

open Core.Base Lib.Tables Lib.Outbox
open Lib.Runs
open Outbox.Notifications (normalizedKey second)

/-! ## Rows -/

inductive OrderOutboxStatus where
  | pending | processing | published | failed
  deriving DecidableEq, Repr

structure OrderRealtimeOutbox where
  id : ℕ
  orderId : String
  eventType : String
  payload : String
  status : OrderOutboxStatus := .pending
  attemptCount : ℕ := 0
  maxAttempts : ℕ := 10
  lastError : Option String := none
  idempotencyKey : Option String := none
  createdAt : ℕ
  updatedAt : ℕ
  nextAttemptAt : Option ℕ
  publishedAt : Option ℕ := none
  deriving DecidableEq, Repr

instance : Row OrderRealtimeOutbox ℕ := ⟨OrderRealtimeOutbox.id⟩

structure Db where
  outbox : Table OrderRealtimeOutbox := .empty
  /-- the rows of the committed attempts -/
  attempts : List ℕ := []

structure Settings where
  enabled : Bool := true
  batchSize : ℤ := 100
  maxAttempts : ℤ := 10
  maxRetryDelaySeconds : ℤ := 300

/-! ## The service -/

structure Update where
  orderId : String
  eventType : String
  payload : String
  idempotencyKey : Option String := none

def newRow (settings : Settings) (now : ℕ) (u : Update) (id : ℕ) : OrderRealtimeOutbox :=
  { id, orderId := u.orderId, eventType := u.eventType, payload := u.payload
    maxAttempts := (max 1 settings.maxAttempts).toNat
    idempotencyKey := normalizedKey u.idempotencyKey, createdAt := now, updatedAt := now
    nextAttemptAt := some now }

def enqueue (settings : Settings) (now : ℕ) (u : Update) (db : Db) : Db :=
  let key := normalizedKey u.idempotencyKey
  if key ≠ none ∧ (db.outbox.filter fun r => r.orderId = u.orderId ∧ r.eventType = u.eventType ∧
      r.idempotencyKey = key) ≠ [] then db
  else { db with outbox := db.outbox.add (newRow settings now u) }

def Claimable (now : ℕ) (row : OrderRealtimeOutbox) : Prop :=
  (row.status = .pending ∨ row.status = .failed) ∧ row.attemptCount < row.maxAttempts ∧
    ∀ t ∈ row.nextAttemptAt, t ≤ now

instance (now : ℕ) (row : OrderRealtimeOutbox) : Decidable (Claimable now row) := by
  unfold Claimable
  infer_instance

def selectRows (now batchSize : ℕ) (db : Db) : List OrderRealtimeOutbox :=
  select (fun r => Claimable now r) OrderRealtimeOutbox.createdAt batchSize db.outbox

/-- What `_acquire_dispatch_lock` finds. -/
inductive DispatchLock where
  | acquired
  | heldElsewhere
  /-- the lock is not used, or Redis is not there -/
  | unavailable
  deriving DecidableEq, Repr

structure Circumstances where
  now : ℕ
  clock : ℕ
  maxRows : Option ℤ := none
  lock : DispatchLock := .acquired
  /-- why publishing the row fails; `some none` without a text -/
  publishError : ℕ → Option (Option String) := fun _ => none
  commitFails : Bool := false

/-- A row is claimed, and its payload published or not. -/
def dispatchRow (settings : Settings) (c : Circumstances) (row : OrderRealtimeOutbox) :
    OrderRealtimeOutbox :=
  let attemptCount := row.attemptCount + 1
  match c.publishError row.id with
  | none =>
    { row with attemptCount, status := .published, publishedAt := some c.clock
               nextAttemptAt := none, lastError := none, updatedAt := c.clock }
  | some errorText =>
    let delaySeconds := min (max 1 settings.maxRetryDelaySeconds).toNat (2 ^ min attemptCount 8)
    let lastError := (truthy errorText).getD "publish failed"
    { row with attemptCount, status := .failed
               nextAttemptAt := some (c.clock + delaySeconds * second)
               lastError := some (String.ofList (lastError.toList.take 1000))
               updatedAt := c.clock }

def dispatchPendingOnce (settings : Settings) (c : Circumstances) (db : Db) : Db :=
  if settings.enabled = true ∧ c.lock ≠ .heldElsewhere then
    let maxRows := match c.maxRows with
      | some n => if n = 0 then settings.batchSize else n
      | none => settings.batchSize
    let rows := selectRows c.now (max 1 maxRows).toNat db
    if rows = [] ∨ c.commitFails = true then db
    else { db with outbox := db.outbox.setAll (rows.map (dispatchRow settings c))
                   attempts := db.attempts ++ rows.map OrderRealtimeOutbox.id }
  else db

/-! ## A dispatch is a step of an outbox -/

def stage : OrderOutboxStatus → Stage
  | .pending => .waiting
  | .failed => .waiting
  | .processing => .busy
  | .published => .published

def view (row : OrderRealtimeOutbox) : Ticket :=
  ⟨stage row.status, row.attemptCount, row.maxAttempts⟩

def outboxOf (db : Db) : Tickets ℕ := ofTable view db.outbox db.attempts

variable {db : Db}

theorem mem_selectRows {now batchSize : ℕ} {r : OrderRealtimeOutbox}
    (h : r ∈ selectRows now batchSize db) : r ∈ db.outbox ∧ Claimable now r :=
  (mem_select h).imp_right of_decide_eq_true

def NoLastFailure (settings : Settings) (c : Circumstances) (db : Db) : Prop :=
  settings.enabled = true → c.lock ≠ .heldElsewhere → ∀ r ∈ db.outbox, Claimable c.now r →
    r.maxAttempts ≤ r.attemptCount + 1 → c.publishError r.id = none

variable {settings : Settings}

variable {c : Circumstances}

theorem dispatchRow_taken {row : OrderRealtimeOutbox} (hclaimable : Claimable c.now row)
    (hlast : row.maxAttempts ≤ row.attemptCount + 1 → c.publishError row.id = none) :
    Taken (view row) (view (dispatchRow settings c row)) := by
  obtain ⟨hstatus, hleft, -⟩ := hclaimable
  have hwaiting : stage row.status = .waiting := by
    rcases hstatus with hstatus | hstatus
    · rw [hstatus]
      rfl
    · rw [hstatus]
      rfl
  unfold dispatchRow
  rcases herror : c.publishError row.id with _ | errorText
  · exact ⟨hwaiting, hleft, rfl, rfl, .inl (.inl rfl)⟩
  · refine ⟨hwaiting, hleft, rfl, rfl, .inr ⟨rfl, ?_⟩⟩
    by_contra hover
    rw [hlast (not_lt.mp hover)] at herror
    cases herror

instance (settings : Settings) (c : Circumstances) (db : Db) :
    Decidable (NoLastFailure settings c db) := by
  unfold NoLastFailure
  infer_instance

theorem dispatch_moves (h : NoLastFailure settings c db) :
    ∃ claims, Moves (outboxOf db) (outboxOf (dispatchPendingOnce settings c db)) claims := by
  unfold dispatchPendingOnce
  split_ifs with hready
  · dsimp only
    split_ifs with hnothing
    · exact ⟨[], moves_refl⟩
    · generalize hsize : (max 1 (match c.maxRows with
        | some n => if n = 0 then settings.batchSize else n
        | none => settings.batchSize)).toNat = size
      refine ⟨_, moves_setAll (fun r hr => (mem_selectRows hr).1) (nodup_select _ _ _ _) ?_⟩
      rw [List.forall₂_map_right_iff, List.forall₂_same]
      intro r hr
      obtain ⟨hmem, hclaimable⟩ := mem_selectRows hr
      refine ⟨?_, dispatchRow_taken hclaimable (h hready.1 hready.2 r hmem hclaimable)⟩
      unfold dispatchRow
      rcases c.publishError r.id with _ | errorText <;> rfl
  · exact ⟨[], moves_refl⟩

theorem enqueue_moves (settings : Settings) (now : ℕ) (u : Update) (db : Db) :
    ∃ claims, Moves (outboxOf db) (outboxOf (enqueue settings now u db)) claims := by
  unfold enqueue
  dsimp only
  split_ifs
  · exact ⟨[], moves_refl⟩
  · refine ⟨[], moves_add (fun _ => rfl) fun k => ⟨rfl, rfl, ?_⟩⟩
    have hlimit : (view (newRow settings now u k)).limit = (max 1 settings.maxAttempts).toNat := rfl
    rw [hlimit]
    omega

/-! ## Runs -/

inductive Event where
  | enqueue (now : ℕ) (u : Update)
  | dispatch (c : Circumstances)

def eventStep (settings : Settings) (db : Db) : Event → Db
  | .enqueue now u => enqueue settings now u db
  | .dispatch c => dispatchPendingOnce settings c db

/-- No failure on a last attempt. -/
def OnTime (settings : Settings) (db : Db) : Event → Prop
  | .dispatch c => NoLastFailure settings c db
  | .enqueue _ _ => True

theorem step_moves (event : Event) (h : OnTime settings db event) :
    ∃ claims, Moves (outboxOf db) (outboxOf (eventStep settings db event)) claims := by
  cases event with
  | enqueue now u => exact enqueue_moves settings now u db
  | dispatch c => exact dispatch_moves h

theorem closed_iff {status : OrderOutboxStatus} : (stage status).Closed ↔ status = .published := by
  cases status <;> simp [stage, Stage.Closed]

/-- Every row counts its committed attempts, and is published when they are used up. -/
def Covers (db : Db) : Prop :=
  ∀ row ∈ db.outbox, db.attempts.count row.id = row.attemptCount ∧
    row.attemptCount ≤ row.maxAttempts ∧
    (row.attemptCount = row.maxAttempts → row.status = .published)

def KeepsPublished (db db' : Db) : Prop :=
  ∀ row ∈ db.outbox, row.status = .published →
    ∃ row' ∈ db'.outbox, row'.id = row.id ∧ row'.status = .published

theorem run_covers (settings : Settings) {events : List Event}
    (h : Along (eventStep settings) (OnTime settings) {} events) :
    Covers (run (eventStep settings) {} events) ∧ ∀ pre post, events = pre ++ post →
      KeepsPublished (run (eventStep settings) {} pre) (run (eventStep settings) {} events) := by
  obtain ⟨hsound, hclosed⟩ := run_sound outboxOf (fun _ event hC => step_moves event hC)
    (sound_empty (fun _ => rfl) rfl) h
  refine ⟨fun row hrow => ?_, fun pre post hsplit row hrow hstatus => ?_⟩
  · obtain ⟨hcount, hle, hlast⟩ := hsound.row hrow
    exact ⟨hcount, hle, fun heq => closed_iff.mp (hlast heq)⟩
  · have hstage := closed_iff.mpr hstatus
    have hticket := hclosed pre post hsplit row.id (view row) (ticket_of_mem hrow) hstage
    obtain ⟨row', hrow', hid, hview⟩ := mem_of_ticket hticket
    have hclosed' : (stage row'.status).Closed := by
      have hsame : stage row'.status = stage row.status := congrArg Ticket.stage hview
      rwa [hsame]
    exact ⟨row', hrow', hid, closed_iff.mp hclosed'⟩

/-- **Rows are never stranded** in either outbox, if no notification is deferred on the last attempt
of its row, and no update fails on the last attempt of its row. -/
theorem outboxes_cover_rows (settings : Notifications.Settings) (events : List Notifications.Event)
    (orderSettings : Settings) (orderEvents : List Event)
    (hnotifications : Along (Notifications.eventStep settings) (Notifications.OnTime settings) {}
      events)
    (horders : Along (eventStep orderSettings) (OnTime orderSettings) {} orderEvents) :
    (Notifications.Covers (run (Notifications.eventStep settings) {} events) ∧
      ∀ pre post, events = pre ++ post →
        Notifications.KeepsClosed (run (Notifications.eventStep settings) {} pre)
          (run (Notifications.eventStep settings) {} events)) ∧
    Covers (run (eventStep orderSettings) {} orderEvents) ∧
      ∀ pre post, orderEvents = pre ++ post →
        KeepsPublished (run (eventStep orderSettings) {} pre)
          (run (eventStep orderSettings) {} orderEvents) :=
  ⟨Notifications.run_covers settings hnotifications, run_covers orderSettings horders⟩

def queued : Notifications.Notification := { id := 1, userId := 7, status := .queued }

def someUser : Table Notifications.User := .insert .empty ⟨7⟩ (by decide)

/-- A notification that is refused and then delivered, and an update that fails and is then
published. -/
theorem outboxes_cover_rows_sample :
    let settings : Notifications.Settings := { maxAttempts := 2 }
    let events : List Notifications.Event :=
      [.elsewhere (.insert .empty queued (by decide)) someUser,
      .enqueue 0 queued none none,
      .dispatch { now := 0, clock := 0, delivery := fun _ => .refused },
      .dispatch { now := 5000000, clock := 5000000 }]
    let orderEvents : List Event := [.enqueue 0 ⟨"O1", "order_created", "", none⟩,
      .dispatch { now := 0, clock := 0, publishError := fun _ => some none },
      .dispatch { now := 5000000, clock := 5000000 }]
    (Notifications.Covers (run (Notifications.eventStep settings) {} events) ∧
      ∀ pre post, events = pre ++ post →
        Notifications.KeepsClosed (run (Notifications.eventStep settings) {} pre)
          (run (Notifications.eventStep settings) {} events)) ∧
    Covers (run (eventStep { maxAttempts := 2 }) {} orderEvents) ∧
      ∀ pre post, orderEvents = pre ++ post →
        KeepsPublished (run (eventStep { maxAttempts := 2 }) {} pre)
          (run (eventStep { maxAttempts := 2 }) {} orderEvents) := by
  refine outboxes_cover_rows _ _ _ _ ⟨trivial, trivial, ?_, ?_, trivial⟩ ⟨trivial, ?_, ?_, trivial⟩
  · show Notifications.NoLateDeferral _ _ _
    decide
  · show Notifications.NoLateDeferral _ _ _
    decide
  · show NoLastFailure _ _ _
    decide
  · show NoLastFailure _ _ _
    decide

/-- **Rows are stranded**: a notification that is deferred on the last attempt of its row, and an
update that fails on the last attempt of its row, are never claimed again. -/
theorem rows_stranded :
    let later : Table Notifications.Notification :=
      .insert .empty { queued with scheduledAt := some 50 } (by decide)
    (∃ row ∈ (run (Notifications.eventStep { maxAttempts := 1 }) {} [.enqueue 0 queued none none,
        .elsewhere later someUser, .dispatch { now := 10, clock := 10 },
        .dispatch { now := 60, clock := 60 }]).outbox,
      row.attemptCount = row.maxAttempts ∧ row.status = .pending) ∧
    ∃ row ∈ (run (eventStep { maxAttempts := 1 }) {} [.enqueue 0 ⟨"O1", "order_created", "", none⟩,
        .dispatch { now := 0, clock := 0, publishError := fun _ => some none },
        .dispatch { now := 5000000, clock := 5000000 }]).outbox,
      row.attemptCount = row.maxAttempts ∧ row.status = .failed := by
  decide

end WezuBackend.Outbox.OrderRealtime
