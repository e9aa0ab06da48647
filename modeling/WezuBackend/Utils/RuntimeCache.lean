import Mathlib.Data.List.Infix

/-!
# The runtime cache

`app/utils/runtime_cache.py`: results of calls in the memory of a process and, if it is configured,
in Redis.  One of the threads that ask for a missing result computes it, the others wait for its
`_InFlightCall`.  An action is what one thread does in one block under the lock, in one request to
Redis, or in between; time counts the actions, and every computed value carries the time at which
its computation started.

* `step`: one action;
* `NoStale`: what invalidations are for, and `Timely`, which actions are harmless;
* `Sound`: what is stored, in flight or on the way to a caller, against the invalidations so far.
-/

namespace WezuBackend.Utils.RuntimeCache

/-! ## Keys -/

/-- The tuple `(namespace,) + parts`. -/
structure CacheKey (Part : Type) where
  ns : String
  parts : List Part
  deriving DecidableEq

/-- What the module relies on: Redis if it is configured, `str` and `json`. -/
structure Setting (Part V : Type) where
  hasRedis : Bool
  str : Part → String
  /-- `json.dumps(value, default=str)`, unless it raises -/
  dumps : Option V → Option String
  /-- `json.loads`, unless it raises -/
  loads : String → Option (Option V)

def hexDigit (n : ℕ) : Char := "0123456789ABCDEF".toList.getD n '0'

/-- `quote(s, safe="")` of one byte. -/
def quoteByte (b : UInt8) : List Char :=
  let c := Char.ofNat b.toNat
  if b.toNat < 128 ∧ (c.isAlphanum ∨ c ∈ "_.-~".toList) then [c]
  else ['%', hexDigit (b.toNat / 16), hexDigit (b.toNat % 16)]

def quote (s : String) : String := String.ofList (s.toUTF8.toList.flatMap quoteByte)

section

variable {Part V : Type}

def redisKey (c : Setting Part V) (key : CacheKey Part) : String :=
  "runtime-cache:" ++ ":".intercalate ((key.ns :: key.parts.map c.str).map quote)

/-- `key[:len(prefix)] == prefix` -/
def Covers (start key : CacheKey Part) : Prop := start.ns = key.ns ∧ start.parts <+: key.parts

instance [DecidableEq Part] (start key : CacheKey Part) : Decidable (Covers start key) :=
  inferInstanceAs (Decidable (_ ∧ _))

/-- What `scan_iter` of the pattern returns: no character of a quoted part is special there. -/
def Scanned (c : Setting Part V) (start : CacheKey Part) (key : String) : Prop :=
  (redisKey c start).toList <+: key.toList

instance (c : Setting Part V) (start : CacheKey Part) (key : String) :
    Decidable (Scanned c start key) :=
  inferInstanceAs (Decidable (_ <+: _))

/-- The Redis key is that of a call that the invalidation covers. -/
def Concerns (c : Setting Part V) (start : CacheKey Part) (key : String) : Prop :=
  ∃ k, Covers start k ∧ redisKey c k = key

end

/-! ## The state -/

/-- A Python value (`none` is `None`) with the start of its computation; what a Redis lock holds was
not computed. -/
structure Value (V : Type) where
  value : Option V
  since : Option ℕ

structure InFlightCall (V : Type) where
  event : Bool
  result : Value V
  failed : Bool

structure RedisEntry where
  key : String
  payload : String
  since : Option ℕ

/-- Who runs `call()`: a thread for itself, or the leader (with the Redis lock or without). -/
inductive Mode where
  | own
  | leading (held : Bool)

inductive Found where
  /-- before waiting for the call of `leader` (or computing it) -/
  | first (leader : ℕ)
  | polled

/-- Where a thread in `cached_call` is. -/
inductive Place (V : Type) where
  | idle
  | lookup
  | redisRead (leader : ℕ)
  | redisStore (found : Found) (payload : String) (since : Option ℕ)
  | waiting (leader : ℕ)
  | redisLock
  | polling
  | ready (mode : Mode)
  | computing (mode : Mode) (since : ℕ)
  | unlockingFailed (held : Bool)
  | failing
  | storing (value : Value V) (held : Bool)
  | publishing (value : Value V) (held : Bool)
  | unlocking (value : Value V)
  | returned (value : Value V)
  | raised

/-- One `cached_call`. -/
structure Call (Part : Type) where
  key : CacheKey Part
  ttlSeconds : ℤ
  started : ℕ

/-- Where a thread in `invalidate_cache` is. -/
inductive Stage where
  | idle
  | begun
  | cleared
  /-- `remaining`: what Redis held when the scan began, and has held since -/
  | scanning (remaining : List String)
  | returned (ended : ℕ)

/-- One `invalidate_cache`. -/
structure Invalidation (Part : Type) where
  start : CacheKey Part
  started : ℕ

/-- The state of the module, of Redis and of the threads; the `_InFlightCall` of a leader has the
leader's number. -/
structure World (Part V : Type) where
  time : ℕ
  runtimeCache : CacheKey Part → Option (ℤ × Value V)
  runtimeInflight : CacheKey Part → Option ℕ
  inFlightCalls : ℕ → InFlightCall V
  redis : List RedisEntry
  calls : ℕ → Call Part
  places : ℕ → Place V
  invalidations : ℕ → Invalidation Part
  stages : ℕ → Stage

namespace World

variable {Part V : Type}

/-- A process begins, whatever Redis holds. -/
def starting (redis : List RedisEntry) (time : ℕ) : World Part V where
  time := time
  runtimeCache := fun _ => none
  runtimeInflight := fun _ => none
  inFlightCalls := fun _ => ⟨false, ⟨none, none⟩, false⟩
  redis := redis
  calls := fun _ => ⟨⟨"", []⟩, 0, 0⟩
  places := fun _ => .idle
  invalidations := fun _ => ⟨⟨"", []⟩, 0⟩
  stages := fun _ => .idle

def goto (w : World Part V) (i : ℕ) (place : Place V) : World Part V :=
  { w with places := Function.update w.places i place }

def reach (w : World Part V) (j : ℕ) (stage : Stage) : World Part V :=
  { w with stages := Function.update w.stages j stage }

/-! ## Redis -/

def redisGet (w : World Part V) (key : String) : Option RedisEntry :=
  w.redis.find? fun e => e.key = key

def redisSet (w : World Part V) (entry : RedisEntry) : World Part V :=
  { w with redis := entry :: w.redis.filter fun e => e.key ≠ entry.key }

end World

/-- The key is no longer held. -/
def Stage.forget (key : String) : Stage → Stage
  | scanning remaining => scanning (remaining.filter (· ≠ key))
  | stage => stage

namespace World

variable {Part V : Type}

def redisDelete (w : World Part V) (key : String) : World Part V :=
  { w with
    redis := w.redis.filter fun e => e.key ≠ key
    stages := fun j => (w.stages j).forget key }

/-! ## The module -/

variable [DecidableEq Part]

def pruneExpired (w : World Part V) (now : ℤ) : World Part V :=
  { w with runtimeCache := fun k => (w.runtimeCache k).filter fun e => now < e.1 }

/-- `_runtime_inflight.pop(cache_key, None)`, and what is done with the popped call. -/
def popInFlight (w : World Part V) (key : CacheKey Part)
    (done : InFlightCall V → InFlightCall V) : World Part V :=
  { w with
    runtimeInflight := Function.update w.runtimeInflight key none
    inFlightCalls := match w.runtimeInflight key with
      | none => w.inFlightCalls
      | some leader => Function.update w.inFlightCalls leader (done (w.inFlightCalls leader)) }

def storeLocalCache (w : World Part V) (key : CacheKey Part) (expiresAt : ℤ) (value : Value V) :
    World Part V :=
  World.popInFlight
    { w with runtimeCache := Function.update w.runtimeCache key (some (expiresAt, value)) } key
    fun call => { call with result := value, event := true }

end World

/-- What a turn of a thread depends on besides the state. -/
structure Env (V : Type) where
  /-- the clock -/
  now : ℤ
  /-- the request to Redis raises -/
  fails : Bool
  /-- waiting or polling has lasted long enough -/
  timeout : Bool
  /-- what `call()` returns, unless it raises -/
  outcome : Option (Option V)

section

variable {Part V : Type} [DecidableEq Part] (c : Setting Part V)

/-- After an unsuccessful first look at Redis. -/
def afterRead (i leader : ℕ) : Place V :=
  if leader ≠ i then .waiting leader
  else if c.hasRedis then .redisLock
  else .ready (.leading false)

def afterLookup (i leader : ℕ) : Place V :=
  if c.hasRedis then .redisRead leader else afterRead c i leader

/-- The first block under the lock. -/
def lookup (w : World Part V) (i : ℕ) (now : ℤ) : World Part V :=
  match (w.runtimeCache (w.calls i).key).filter fun e => now < e.1 with
  | some e => w.goto i (.returned e.2)
  | none =>
    match w.runtimeInflight (w.calls i).key with
    | some leader => (w.pruneExpired now).goto i (afterLookup c i leader)
    | none =>
      { (w.pruneExpired now).goto i (afterLookup c i i) with
        runtimeInflight := Function.update w.runtimeInflight (w.calls i).key (some i) }

/-- `_resolve_redis_result` after the request to Redis, and what its caller does with the result. -/
def resolved (w : World Part V) (i : ℕ) (found : Found) (payload : String) (since : Option ℕ)
    (now : ℤ) : World Part V :=
  match c.loads payload with
  | none =>
    match found with
    | .first leader => w.goto i (afterRead c i leader)
    | .polled => w.goto i (.ready (.leading false))
  | some value =>
    let w' := w.storeLocalCache (w.calls i).key (now + (w.calls i).ttlSeconds) ⟨value, since⟩
    match value, found with
    | some _, _ => w'.goto i (.returned ⟨value, since⟩)
    | none, .first leader => w'.goto i (afterRead c i leader)
    | none, .polled => w'.goto i .polling

def lockKey (key : CacheKey Part) : String := redisKey c key ++ ":lock"

/-- `redis_client.setex` of a result. -/
def publish (w : World Part V) (key : CacheKey Part) (value : Value V) : World Part V :=
  match c.dumps value.value with
  | none => w
  | some payload => w.redisSet ⟨redisKey c key, payload, value.since⟩

/-- One turn of a thread in `cached_call`. -/
def turn (w : World Part V) (i : ℕ) (env : Env V) : World Part V :=
  let key := (w.calls i).key
  match w.places i with
  | .idle | .returned _ | .raised => w
  | .lookup => lookup c w i env.now
  | .redisRead leader =>
    match if env.fails then none else w.redisGet (redisKey c key) with
    | none => w.goto i (afterRead c i leader)
    | some e => w.goto i (.redisStore (.first leader) e.payload e.since)
  | .redisStore found payload since => resolved c w i found payload since env.now
  | .waiting leader =>
    let inflight := w.inFlightCalls leader
    if inflight.event then
      if inflight.failed then w.goto i (.ready .own) else w.goto i (.returned inflight.result)
    else if env.timeout then w.goto i (.ready .own)
    else w
  | .redisLock =>
    if env.fails ∨ (w.redisGet (lockKey c key)).isSome then w.goto i .polling
    else (w.redisSet ⟨lockKey c key, "1", none⟩).goto i (.ready (.leading true))
  | .polling =>
    if env.timeout ∨ env.fails then w.goto i (.ready (.leading false))
    else match w.redisGet (redisKey c key) with
      | none => w
      | some e => w.goto i (.redisStore .polled e.payload e.since)
  | .ready mode => w.goto i (.computing mode w.time)
  | .computing mode since =>
    match env.outcome, mode with
    | some value, .own => w.goto i (.returned ⟨value, some since⟩)
    | some value, .leading held => w.goto i (.storing ⟨value, some since⟩ held)
    | none, .own => w.goto i .raised
    | none, .leading held => w.goto i (.unlockingFailed held)
  | .unlockingFailed held =>
    (if held ∧ ¬ env.fails then w.redisDelete (lockKey c key) else w).goto i .failing
  | .failing =>
    (w.popInFlight key fun call => { call with failed := true, event := true }).goto i .raised
  | .storing value held =>
    (w.storeLocalCache key (env.now + (w.calls i).ttlSeconds) value).goto i
      (if c.hasRedis then .publishing value held else .returned value)
  | .publishing value held =>
    (if env.fails then w else publish c w key value).goto i
      (if held then .unlocking value else .returned value)
  | .unlocking value =>
    (if env.fails then w else w.redisDelete (lockKey c key)).goto i (.returned value)

/-- What a turn of `invalidate_cache` meets in Redis. -/
inductive Scan where
  | goesOn
  /-- the key is returned, and deleted -/
  | deletes (key : String)
  | fails

/-- The block under the lock; a leader's call is in flight under the leader's key. -/
def clear (w : World Part V) (start : CacheKey Part) : World Part V :=
  { w with
    runtimeCache := fun k => if Covers start k then none else w.runtimeCache k
    runtimeInflight := fun k => if Covers start k then none else w.runtimeInflight k
    inFlightCalls := fun l =>
      if Covers start (w.calls l).key ∧ w.runtimeInflight (w.calls l).key = some l then
        { w.inFlightCalls l with failed := true, event := true }
      else w.inFlightCalls l }

/-- One turn of a thread in `invalidate_cache`. -/
def invalidationTurn (w : World Part V) (j : ℕ) (scan : Scan) : World Part V :=
  let start := (w.invalidations j).start
  match w.stages j, scan with
  | .begun, _ =>
    (clear w start).reach j (if c.hasRedis then .cleared else .returned w.time)
  | .cleared, .fails => w.reach j (.returned w.time)
  | .cleared, _ =>
    w.reach j (.scanning ((w.redis.map RedisEntry.key).filter fun key => Scanned c start key))
  | .scanning _, .fails => w.reach j (.returned w.time)
  | .scanning _, .deletes key => if Scanned c start key then w.redisDelete key else w
  | .scanning remaining, .goesOn => if remaining = [] then w.reach j (.returned w.time) else w
  | _, _ => w

inductive Action (Part V : Type) where
  | cachedCall (i : ℕ) (key : CacheKey Part) (ttlSeconds : ℤ)
  | invalidateCache (j : ℕ) (start : CacheKey Part)
  | turn (i : ℕ) (env : Env V)
  | invalidationTurn (j : ℕ) (scan : Scan)
  /-- an entry of Redis runs out -/
  | expire (key : String)

def act (w : World Part V) : Action Part V → World Part V
  | .cachedCall i key ttlSeconds =>
    match w.places i with
    | .idle =>
      { w with
        calls := Function.update w.calls i ⟨key, ttlSeconds, w.time⟩
        places := Function.update w.places i
          (if ttlSeconds ≤ 0 then .ready .own else .lookup) }
    | _ => w
  | .invalidateCache j start =>
    match w.stages j with
    | .idle =>
      { w with
        invalidations := Function.update w.invalidations j ⟨start, w.time⟩
        stages := Function.update w.stages j .begun }
    | _ => w
  | .turn i env => turn c w i env
  | .invalidationTurn j scan => invalidationTurn c w j scan
  | .expire key => w.redisDelete key

def step (w : World Part V) (a : Action Part V) : World Part V :=
  { act c w a with time := (act c w a).time + 1 }

end

/-! ## Staleness -/

section

variable {Part V : Type} (c : Setting Part V)

/-- The value was not computed from before the time. -/
def NotBefore (since : Option ℕ) (t : ℕ) : Prop := ∀ s ∈ since, t ≤ s

/-- The value is as new as the invalidations that had returned when the call started. -/
def Fresh (w : World Part V) (t : Call Part) (since : Option ℕ) : Prop :=
  ∀ j ended, w.stages j = .returned ended → ended < t.started →
    Covers (w.invalidations j).start t.key → NotBefore since (w.invalidations j).started

/-- No call has returned a value whose computation started before an invalidation that had returned
when the call started. -/
def NoStale (w : World Part V) : Prop :=
  ∀ i value, w.places i = .returned value → Fresh w (w.calls i) value.since

/-- The invalidation is past its block under the lock. -/
def Stage.Cleared : Stage → Prop
  | idle | begun => False
  | _ => True

/-- The scan has ended, or will not return the key any more. -/
def Stage.Passed (key : String) : Stage → Prop
  | scanning remaining => key ∉ remaining
  | returned _ => True
  | _ => False

/-- No invalidation that came later has cleared the local cache already. -/
def Storable (w : World Part V) (key : CacheKey Part) (since : Option ℕ) : Prop :=
  ∀ j, (w.stages j).Cleared → Covers (w.invalidations j).start key →
    NotBefore since (w.invalidations j).started

/-- No invalidation that came later has passed the key in Redis already. -/
def Publishable (w : World Part V) (key : String) (since : Option ℕ) : Prop :=
  ∀ j, (w.stages j).Passed key → Concerns c (w.invalidations j).start key →
    NotBefore since (w.invalidations j).started

/-- Redis holds nothing that the invalidation would have to delete. -/
def Clean (w : World Part V) (j : ℕ) : Prop :=
  ∀ e ∈ w.redis, Concerns c (w.invalidations j).start e.key →
    NotBefore e.since (w.invalidations j).started

/-- No outdated value is stored, and no scan given up that would have deleted one. -/
def Timely (w : World Part V) : Action Part V → Prop
  | .turn i env =>
    match w.places i with
    | .redisStore _ payload since =>
      (c.loads payload).isSome → Storable w (w.calls i).key since
    | .storing value _ => Storable w (w.calls i).key value.since
    | .publishing value _ =>
      env.fails = false → (c.dumps value.value).isSome →
        Publishable c w (redisKey c (w.calls i).key) value.since
    | _ => True
  | .invalidationTurn j .fails => (w.stages j).Cleared → Clean c w j
  | _ => True

/-! ## The invariant -/

/-- The thread has looked for its result. -/
def Place.Begun : Place V → Prop
  | idle | lookup => False
  | _ => True

/-- The thread has found the call of the leader in flight. -/
def Joined (w : World Part V) (t : Call Part) (leader : ℕ) : Prop :=
  (w.places leader).Begun ∧ (w.calls leader).key = t.key ∧
    ((w.inFlightCalls leader).event = true → (w.inFlightCalls leader).failed = false →
      Fresh w t (w.inFlightCalls leader).result.since)

/-- What a thread holds at its place. -/
def Behaved (w : World Part V) (t : Call Part) : Place V → Prop
  | .redisRead leader => c.hasRedis = true ∧ Joined w t leader
  | .waiting leader => Joined w t leader
  | .redisStore (.first leader) _ since => Joined w t leader ∧ Fresh w t since
  | .redisStore .polled _ since => c.hasRedis = true ∧ Fresh w t since
  | .redisLock | .polling => c.hasRedis = true
  | .computing _ since => t.started ≤ since
  | .storing value _ | .publishing value _ | .unlocking value | .returned value =>
    Fresh w t value.since
  | _ => True

structure Sound (w : World Part V) : Prop where
  cached : ∀ k e, w.runtimeCache k = some e → Storable w k e.2.since
  redis : c.hasRedis = true → ∀ e ∈ w.redis, Publishable c w e.key e.since
  inflight : ∀ k l, w.runtimeInflight k = some l →
    (w.calls l).key = k ∧ (w.places l).Begun ∧ (w.inFlightCalls l).event = false
  unset : ∀ l, ¬ (w.places l).Begun → (w.inFlightCalls l).event = false
  behaved : ∀ i, Behaved c w (w.calls i) (w.places i)
  startedCalls : ∀ i, (w.calls i).started ≤ w.time
  startedInvalidations : ∀ j, (w.invalidations j).started ≤ w.time
  ended : ∀ j e, w.stages j = .returned e → (w.invalidations j).started ≤ e

variable {c} {w : World Part V}

theorem sound_starting (redis : List RedisEntry) (time : ℕ) :
    Sound c (World.starting redis time : World Part V) where
  cached _ _ h := absurd h nofun
  redis _ _ _ _ h := h.elim
  inflight _ _ h := absurd h nofun
  unset _ _ := rfl
  behaved _ := trivial
  startedCalls _ := Nat.zero_le _
  startedInvalidations _ := Nat.zero_le _
  ended _ _ h := absurd h nofun

variable {t : Call Part}

theorem Behaved.mono {w w' : World Part V} {place : Place V}
    (h : Behaved c w t place) (hfresh : ∀ since, Fresh w t since → Fresh w' t since)
    (hjoined : ∀ l, Joined w t l → Joined w' t l) : Behaved c w' t place := by
  unfold Behaved at h ⊢
  split at h
  · exact ⟨h.1, hjoined _ h.2⟩
  · exact hjoined _ h
  · exact ⟨hjoined _ h.1, hfresh _ h.2⟩
  · exact ⟨h.1, hfresh _ h.2⟩
  · exact h
  · exact h
  · exact h
  all_goals first | exact hfresh _ h | trivial

variable {since : Option ℕ}

/-- A value that is stored is fresh for every call that has started. -/
theorem Storable.fresh {key : CacheKey Part} (h : Storable w key since)
    (ht : t.key = key) : Fresh w t since := by
  intro j ended hstage _ hcovers
  exact h j (by rw [hstage]; trivial) (ht ▸ hcovers)

theorem Sound.fresh_of_le (h : Sound c w) {since : ℕ} (hle : t.started ≤ since) :
    Fresh w t (some since) := by
  intro j ended hstage hended _ s hs
  have hstarted := h.ended j ended hstage
  have hs' : since = s := Option.some.inj hs
  omega

theorem Fresh.reach (h : Fresh w t since) (ht : t.started ≤ w.time) {j : ℕ} {stage : Stage}
    (hstage : ∀ e, stage = .returned e → e = w.time) : Fresh (w.reach j stage) t since := by
  intro x ended hx hended
  by_cases hxj : x = j
  · have hreturned : stage = .returned ended := by simpa [World.reach, hxj] using hx
    have hnow := hstage ended hreturned
    omega
  · exact h x ended (by simpa [World.reach, hxj] using hx) hended

end

end WezuBackend.Utils.RuntimeCache
