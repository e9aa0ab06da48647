import WezuBackend.Core.Text
import WezuBackend.Lib.Outbox

/-!
# The notification outbox

`NotificationOutboxService`: rows are enqueued, and `dispatch_pending_once` claims those that are
due, tries to deliver each of them once and commits.  What a provider answers, whether the commit
succeeds, and what other code does to notifications and users in between are arguments of a step.

A row whose notification was rescheduled is put back as pending, whatever attempt this was: on the
last one it is never claimed again.  In a run without deferrals on a last attempt every step is one
of an outbox (`step_moves`), so it covers its rows (`run_covers`).
-/

namespace WezuBackend.Outbox.Notifications

open Core.Base Core.Text Lib.Tables Lib.Outbox Lib.Runs

/-! ## Rows -/

inductive NotificationStatus where
  | pending | queued | sent | failed | skipped | deadLetter
  deriving DecidableEq, Repr

structure Notification where
  id : ℕ
  userId : ℕ
  channel : Option String := some "push"
  scheduledAt : Option ℕ := none
  status : NotificationStatus := .pending
  deriving DecidableEq, Repr

instance : Row Notification ℕ := ⟨Notification.id⟩

structure User where
  id : ℕ
  deriving DecidableEq, Repr

instance : Row User ℕ := ⟨User.id⟩

inductive NotificationOutboxStatus where
  | pending | processing | published | failed | deadLetter
  deriving DecidableEq, Repr

structure NotificationOutbox where
  id : ℕ
  notificationId : ℕ
  userId : ℕ
  channel : String
  status : NotificationOutboxStatus := .pending
  attemptCount : ℕ := 0
  maxAttempts : ℕ := 10
  lastError : Option String := none
  idempotencyKey : Option String := none
  createdAt : ℕ
  updatedAt : ℕ
  nextAttemptAt : Option ℕ
  publishedAt : Option ℕ := none
  deriving DecidableEq, Repr

instance : Row NotificationOutbox ℕ := ⟨NotificationOutbox.id⟩

structure Db where
  notifications : Table Notification := .empty
  users : Table User := .empty
  outbox : Table NotificationOutbox := .empty
  /-- the rows of the committed attempts -/
  attempts : List ℕ := []

structure Settings where
  enabled : Bool := true
  batchSize : ℤ := 200
  maxAttempts : ℤ := 8
  maxRetryDelaySeconds : ℤ := 300

/-! ## The service -/

/-- `(channel or "push").strip().lower()`. -/
def normalizedChannel (channel : Option String) : String :=
  lower (strip ((truthy channel).getD "push"))

/-- `(idempotency_key or "").strip() or None`. -/
def normalizedKey (idempotencyKey : Option String) : Option String :=
  truthy (some (strip (idempotencyKey.getD "")))

def newRow (settings : Settings) (now : ℕ) (notification : Notification) (scheduledAt : Option ℕ)
    (key : Option String) (id : ℕ) : NotificationOutbox :=
  { id, notificationId := notification.id, userId := notification.userId
    channel := normalizedChannel notification.channel
    maxAttempts := (max 1 settings.maxAttempts).toNat
    idempotencyKey := some (key.getD s!"notification:{notification.id}"), createdAt := now
    updatedAt := now
    nextAttemptAt := some ((scheduledAt.orElse fun _ => notification.scheduledAt).getD now) }

def enqueue (settings : Settings) (now : ℕ) (notification : Notification) (scheduledAt : Option ℕ)
    (idempotencyKey : Option String) (db : Db) : Db :=
  let key := normalizedKey idempotencyKey
  if key ≠ none ∧
      (db.outbox.filter fun r => r.notificationId = notification.id ∧ r.idempotencyKey = key) ≠ []
        then
    db
  else { db with outbox := db.outbox.add (newRow settings now notification scheduledAt key) }

def second : ℕ := 1000000

def nextRetryEta (settings : Settings) (clock attemptCount : ℕ) : ℕ :=
  let maxDelay := (max 1 settings.maxRetryDelaySeconds).toNat
  clock + min maxDelay (2 ^ min (max 1 attemptCount) 8) * second

/-- The rows that a dispatch selects. -/
def Claimable (now : ℕ) (notificationId : Option ℕ) (row : NotificationOutbox) : Prop :=
  (row.status = .pending ∨ row.status = .failed) ∧ row.attemptCount < row.maxAttempts ∧
    (∀ t ∈ row.nextAttemptAt, t ≤ now) ∧ ∀ k ∈ notificationId, row.notificationId = k

instance (now : ℕ) (notificationId : Option ℕ) (row : NotificationOutbox) :
    Decidable (Claimable now notificationId row) := by
  unfold Claimable
  infer_instance

/-- What `_claim_rows` selects. -/
def selectRows (now batchSize : ℕ) (notificationId : Option ℕ) (db : Db) :
    List NotificationOutbox :=
  select (fun r => Claimable now notificationId r) NotificationOutbox.createdAt batchSize db.outbox

def claim (now : ℕ) (row : NotificationOutbox) : NotificationOutbox :=
  { row with status := .processing, attemptCount := row.attemptCount + 1, updatedAt := now }

/-- What `_dispatch` of `NotificationService` comes back with.  (The column `app_scope` that is
passed to it does not exist: as it stands, it always raises.) -/
inductive Delivery where
  | delivered
  | refused
  | raised (error : String)
  deriving DecidableEq, Repr

def failedAttempt (settings : Settings) (clock : ℕ) (row : NotificationOutbox) (error : String) :
    NotificationOutbox :=
  if row.maxAttempts ≤ row.attemptCount then
    { row with status := .deadLetter, nextAttemptAt := none, lastError := some error
               updatedAt := clock }
  else
    { row with status := .failed, lastError := some error, updatedAt := clock
               nextAttemptAt := some (nextRetryEta settings clock row.attemptCount) }

def failedNotification (row : NotificationOutbox) (notification : Notification) : Notification :=
  { notification with
    status := if row.maxAttempts ≤ row.attemptCount then .deadLetter else .failed }

structure Circumstances where
  now : ℕ
  /-- the clock while the rows are handled -/
  clock : ℕ
  maxRows : Option ℤ := none
  notificationId : Option ℕ := none
  delivery : ℕ → Delivery := fun _ => .delivered
  commitFails : Bool := false

def handleTerminalWithoutSend (clock : ℕ) (row : NotificationOutbox) (notification : Notification) :
    NotificationOutbox :=
  if notification.status = .sent ∨ notification.status = .skipped then
    { row with status := .published, publishedAt := some clock, nextAttemptAt := none
               lastError := none, updatedAt := clock }
  else
    { row with status := .deadLetter, nextAttemptAt := none
               lastError := some "notification reached terminal status=dead_letter"
               updatedAt := clock }

def Terminal (notification : Notification) : Prop :=
  notification.status ∈ [.sent, .skipped, .deadLetter]

instance (notification : Notification) : Decidable (Terminal notification) := by
  unfold Terminal
  infer_instance

/-- `_dispatch_claimed_row`, with the exception handler of its caller. -/
def dispatchClaimedRow (settings : Settings) (c : Circumstances) (users : Table User)
    (row : NotificationOutbox) (notifications : Table Notification) :
    NotificationOutbox × Table Notification :=
  match notifications.get? row.notificationId with
  | none =>
    ({ row with status := .deadLetter, nextAttemptAt := none
                lastError := some "notification row not found", updatedAt := c.now }, notifications)
  | some notification =>
    if Terminal notification then
      (handleTerminalWithoutSend c.clock row notification, notifications)
    else if ∃ t ∈ notification.scheduledAt, c.now < t then
      ({ row with status := .pending, nextAttemptAt := notification.scheduledAt, lastError := none
                  updatedAt := c.now }, notifications)
    else if users.get? notification.userId = none then
      (failedAttempt settings c.clock row "user not found",
        notifications.set (failedNotification row notification))
    else
      match c.delivery row.id with
      | .delivered =>
        ({ row with status := .published, publishedAt := some c.clock, nextAttemptAt := none
                    lastError := none, updatedAt := c.clock },
          notifications.set { notification with status := .sent })
      | .refused =>
        (failedAttempt settings c.clock row "provider delivery returned false",
          notifications.set (failedNotification row notification))
      | .raised error =>
        (failedAttempt settings c.clock row (String.ofList (error.toList.take 1000)), notifications)

/-- The loop over the claimed rows. -/
def dispatchRows (settings : Settings) (c : Circumstances) (users : Table User) :
    List NotificationOutbox → Table Notification → List NotificationOutbox × Table Notification
  | [], notifications => ([], notifications)
  | row :: rows, notifications =>
    let (row, notifications) := dispatchClaimedRow settings c users row notifications
    let (rows, notifications) := dispatchRows settings c users rows notifications
    (row :: rows, notifications)

def dispatchPendingOnce (settings : Settings) (c : Circumstances) (db : Db) : Db :=
  if settings.enabled then
    let maxRows := match c.maxRows with
      | some n => if n = 0 then settings.batchSize else n
      | none => settings.batchSize
    let selected := selectRows c.now (max 1 maxRows).toNat c.notificationId db
    let (rows, notifications) :=
      dispatchRows settings c db.users (selected.map (claim c.now)) db.notifications
    if selected = [] ∨ c.commitFails = true then db
    else { db with notifications, outbox := db.outbox.setAll rows
                   attempts := db.attempts ++ selected.map NotificationOutbox.id }
  else db

/-! ## A dispatch is a step of an outbox -/

def stage : NotificationOutboxStatus → Stage
  | .pending => .waiting
  | .failed => .waiting
  | .processing => .busy
  | .published => .published
  | .deadLetter => .dead

def view (row : NotificationOutbox) : Ticket :=
  ⟨stage row.status, row.attemptCount, row.maxAttempts⟩

def Deferred (notifications : Table Notification) (now : ℕ) (row : NotificationOutbox) : Prop :=
  ∃ n ∈ notifications.get? row.notificationId, ¬ Terminal n ∧ ∃ t ∈ n.scheduledAt, now < t

instance (notifications : Table Notification) (now : ℕ) (row : NotificationOutbox) :
    Decidable (Deferred notifications now row) := by
  unfold Deferred
  infer_instance

/-- A claimed row, and what becomes of it. -/
structure Settles (row row' : NotificationOutbox) : Prop where
  id : row'.id = row.id
  attempts : row'.attemptCount = row.attemptCount
  limit : row'.maxAttempts = row.maxAttempts
  settled : (stage row'.status).Closed ∨
    stage row'.status = .waiting ∧ row'.attemptCount < row'.maxAttempts

/-- Notifications keep their time, and their terminal statuses. -/
def Kept (notifications notifications' : Table Notification) : Prop :=
  ∀ k, ∀ n' ∈ notifications'.get? k, ∃ n ∈ notifications.get? k,
    n'.scheduledAt = n.scheduledAt ∧ (Terminal n → Terminal n')

variable {row : NotificationOutbox}

theorem Kept.deferred {notifications notifications' : Table Notification}
    (h : Kept notifications notifications') {now : ℕ}
    (hdeferred : Deferred notifications' now row) : Deferred notifications now row := by
  obtain ⟨n', hn', hopen, t, ht, hlater⟩ := hdeferred
  obtain ⟨n, hn, hsame, hterminal⟩ := h _ n' hn'
  exact ⟨n, hn, fun hn => hopen (hterminal hn), t, hsame ▸ ht, hlater⟩

variable {notifications : Table Notification}

theorem kept_set {n n' : Notification} (hn : notifications.get? n.id = some n) (hid : n'.id = n.id)
    (hsame : n'.scheduledAt = n.scheduledAt) (hopen : ¬ Terminal n) :
    Kept notifications (notifications.set n') := by
  intro k x hx
  by_cases hk : k = n'.id
  · subst hk
    rw [← hid] at hn
    have hget : (notifications.set n').get? n'.id = some n' := Table.get?_set_self hn
    rw [hget] at hx
    obtain rfl := Option.some.inj hx
    exact ⟨n, hn, hsame, fun h => absurd h hopen⟩
  · have hget : (notifications.set n').get? k = notifications.get? k := Table.get?_set_ne hk
    rw [hget] at hx
    exact ⟨x, hx, rfl, id⟩

section

variable {settings : Settings} {c : Circumstances} {users : Table User}

theorem failedAttempt_settles (clock : ℕ) (row : NotificationOutbox) (error : String) :
    Settles row (failedAttempt settings clock row error) := by
  unfold failedAttempt
  split_ifs with hlast
  · exact ⟨rfl, rfl, rfl, .inl (.inr rfl)⟩
  · exact ⟨rfl, rfl, rfl, .inr ⟨rfl, by dsimp only; omega⟩⟩

variable (settings users) in
theorem dispatchClaimedRow_settles
    (h : row.maxAttempts ≤ row.attemptCount → ¬ Deferred notifications c.now row) :
    Settles row (dispatchClaimedRow settings c users row notifications).1 ∧
      Kept notifications (dispatchClaimedRow settings c users row notifications).2 := by
  have hrefl : Kept notifications notifications := fun k n hn => ⟨n, hn, rfl, id⟩
  unfold dispatchClaimedRow
  rcases hn : notifications.get? row.notificationId with _ | n
  · exact ⟨⟨rfl, rfl, rfl, .inl (.inr rfl)⟩, hrefl⟩
  have hid : n.id = row.notificationId := (Table.get?_eq_some.mp hn).2
  have hget : notifications.get? n.id = some n := by rw [hid, hn]
  dsimp only
  split_ifs with hterminal hlater huser
  · refine ⟨?_, hrefl⟩
    unfold handleTerminalWithoutSend
    split_ifs
    · exact ⟨rfl, rfl, rfl, .inl (.inl rfl)⟩
    · exact ⟨rfl, rfl, rfl, .inl (.inr rfl)⟩
  · refine ⟨⟨rfl, rfl, rfl, .inr ⟨rfl, ?_⟩⟩, hrefl⟩
    by_contra hlast
    exact h (by dsimp only at hlast; omega) ⟨n, hn, hterminal, hlater⟩
  · exact ⟨failedAttempt_settles _ _ _, kept_set hget rfl rfl hterminal⟩
  · rcases c.delivery row.id with _ | _ | error
    · exact ⟨⟨rfl, rfl, rfl, .inl (.inl rfl)⟩, kept_set hget rfl rfl hterminal⟩
    · exact ⟨failedAttempt_settles _ _ _, kept_set hget rfl rfl hterminal⟩
    · exact ⟨failedAttempt_settles _ _ _, hrefl⟩

theorem dispatchRows_settle {rows : List NotificationOutbox}
    (h : ∀ r ∈ rows, r.maxAttempts ≤ r.attemptCount → ¬ Deferred notifications c.now r) :
    List.Forall₂ Settles rows (dispatchRows settings c users rows notifications).1 := by
  induction rows generalizing notifications with
  | nil => exact .nil
  | cons row rows ih =>
    obtain ⟨hsettles, hkept⟩ := dispatchClaimedRow_settles settings users
      (h row List.mem_cons_self)
    unfold dispatchRows
    refine .cons hsettles (ih fun r hr hlast hdeferred => ?_)
    exact h r (List.mem_cons_of_mem row hr) hlast (hkept.deferred hdeferred)

end

variable {db : Db}

theorem mem_selectRows {now batchSize : ℕ} {notificationId : Option ℕ}
    {r : NotificationOutbox} (h : r ∈ selectRows now batchSize notificationId db) :
    r ∈ db.outbox ∧ Claimable now notificationId r :=
  (mem_select h).imp_right of_decide_eq_true

def outboxOf (db : Db) : Tickets ℕ := ofTable view db.outbox db.attempts

/-- No row that is selected for its last attempt is deferred. -/
def NoLateDeferral (settings : Settings) (c : Circumstances) (db : Db) : Prop :=
  ∀ r ∈ db.outbox, Claimable c.now c.notificationId r → settings.enabled = true →
    r.maxAttempts ≤ r.attemptCount + 1 → ¬ Deferred db.notifications c.now r

instance (settings : Settings) (c : Circumstances) (db : Db) :
    Decidable (NoLateDeferral settings c db) := by
  unfold NoLateDeferral
  infer_instance

theorem dispatch_moves {settings : Settings} {c : Circumstances}
    (h : NoLateDeferral settings c db) :
    ∃ claims, Moves (outboxOf db) (outboxOf (dispatchPendingOnce settings c db)) claims := by
  unfold dispatchPendingOnce
  split_ifs with henabled
  · dsimp only
    split_ifs with hnothing
    · exact ⟨[], moves_refl⟩
    · generalize hsize : (max 1 (match c.maxRows with
        | some n => if n = 0 then settings.batchSize else n
        | none => settings.batchSize)).toNat = size
      have hloop :
        List.Forall₂ Settles ((selectRows c.now size c.notificationId db).map (claim c.now))
          (dispatchRows settings c db.users
            ((selectRows c.now size c.notificationId db).map (claim c.now))
              db.notifications).1 := by
        refine dispatchRows_settle fun r hr hlast hdeferred => ?_
        obtain ⟨r₀, hr₀, rfl⟩ := List.mem_map.mp hr
        obtain ⟨hmem, hclaimable⟩ := mem_selectRows hr₀
        exact h r₀ hmem hclaimable henabled hlast hdeferred
      rw [List.forall₂_map_left_iff] at hloop
      refine ⟨_, moves_setAll (fun r hr => (mem_selectRows hr).1)
        (nodup_select _ _ _ _) ?_⟩
      have hclaimed := List.forall₂_and_left (p := fun r => Claimable c.now c.notificationId r)
        (selectRows c.now size c.notificationId db) _ |>.mpr
          ⟨fun r hr => (mem_selectRows hr).2, hloop⟩
      refine hclaimed.imp fun r r' ⟨hclaimable, hsettles⟩ => ⟨hsettles.id, ?_⟩
      obtain ⟨hstatus, hleft, -⟩ := hclaimable
      have hwaiting : stage r.status = .waiting := by
        rcases hstatus with hstatus | hstatus
        · rw [hstatus]
          rfl
        · rw [hstatus]
          rfl
      exact ⟨hwaiting, hleft, hsettles.limit, hsettles.attempts, hsettles.settled⟩
  · exact ⟨[], moves_refl⟩

theorem enqueue_moves (settings : Settings) (now : ℕ) (notification : Notification)
    (scheduledAt : Option ℕ) (idempotencyKey : Option String) (db : Db) :
    ∃ claims, Moves (outboxOf db)
      (outboxOf (enqueue settings now notification scheduledAt idempotencyKey db)) claims := by
  unfold enqueue
  dsimp only
  split_ifs
  · exact ⟨[], moves_refl⟩
  · refine ⟨[], moves_add (fun _ => rfl) fun k => ⟨rfl, rfl, ?_⟩⟩
    have hlimit : (view (newRow settings now notification scheduledAt
        (normalizedKey idempotencyKey) k)).limit = (max 1 settings.maxAttempts).toNat := rfl
    rw [hlimit]
    omega

/-! ## Runs -/

inductive Event where
  | enqueue (now : ℕ) (notification : Notification) (scheduledAt : Option ℕ)
      (idempotencyKey : Option String)
  | dispatch (c : Circumstances)
  /-- what other code does to notifications and users -/
  | elsewhere (notifications : Table Notification) (users : Table User)

def eventStep (settings : Settings) (db : Db) : Event → Db
  | .enqueue now notification scheduledAt idempotencyKey =>
    enqueue settings now notification scheduledAt idempotencyKey db
  | .dispatch c => dispatchPendingOnce settings c db
  | .elsewhere notifications users => { db with notifications, users }

/-- No deferral on a last attempt. -/
def OnTime (settings : Settings) (db : Db) : Event → Prop
  | .dispatch c => NoLateDeferral settings c db
  | _ => True

theorem step_moves {settings : Settings} (event : Event) (h : OnTime settings db event) :
    ∃ claims, Moves (outboxOf db) (outboxOf (eventStep settings db event)) claims := by
  cases event with
  | enqueue now notification scheduledAt idempotencyKey =>
    exact enqueue_moves settings now notification scheduledAt idempotencyKey db
  | dispatch c => exact dispatch_moves h
  | elsewhere notifications users => exact ⟨[], moves_refl⟩

theorem closed_iff {status : NotificationOutboxStatus} :
    (stage status).Closed ↔ status = .published ∨ status = .deadLetter := by
  cases status <;> simp [stage, Stage.Closed]

theorem stage_closed {status status' : NotificationOutboxStatus} (h : stage status' = stage status)
    (hclosed : (stage status).Closed) : status' = status := by
  cases status <;> cases status' <;> simp_all [stage, Stage.Closed]

/-- Every row counts its committed attempts, and is published or dead when they are used up. -/
def Covers (db : Db) : Prop :=
  ∀ row ∈ db.outbox, db.attempts.count row.id = row.attemptCount ∧
    row.attemptCount ≤ row.maxAttempts ∧
    (row.attemptCount = row.maxAttempts → row.status = .published ∨ row.status = .deadLetter)

/-- What is published or dead stays so. -/
def KeepsClosed (db db' : Db) : Prop :=
  ∀ row ∈ db.outbox, row.status = .published ∨ row.status = .deadLetter →
    ∃ row' ∈ db'.outbox, row'.id = row.id ∧ row'.status = row.status

theorem run_covers (settings : Settings) {events : List Event}
    (h : Along (eventStep settings) (OnTime settings) {} events) :
    Covers (run (eventStep settings) {} events) ∧ ∀ pre post, events = pre ++ post →
      KeepsClosed (run (eventStep settings) {} pre) (run (eventStep settings) {} events) := by
  obtain ⟨hsound, hclosed⟩ := run_sound outboxOf (fun _ event hC => step_moves event hC)
    (sound_empty (fun _ => rfl) rfl) h
  refine ⟨fun row hrow => ?_, fun pre post hsplit row hrow hstatus => ?_⟩
  · obtain ⟨hcount, hle, hlast⟩ := hsound.row hrow
    exact ⟨hcount, hle, fun heq => closed_iff.mp (hlast heq)⟩
  · have hstage := closed_iff.mpr hstatus
    have hticket := hclosed pre post hsplit row.id (view row) (ticket_of_mem hrow) hstage
    obtain ⟨row', hrow', hid, hview⟩ := mem_of_ticket hticket
    exact ⟨row', hrow', hid, stage_closed (congrArg Ticket.stage hview) hstage⟩

end WezuBackend.Outbox.Notifications
