import WezuBackend.Lib.Runs
import WezuBackend.Utils.RuntimeCache

/-!
# Invalidations of the runtime cache

Every harmless action keeps the cache `Sound` (`step_sound`), so as long as no outdated value is
stored no call returns one that was invalidated before it (`no_stale_value`).  The leader of a call
does store outdated values (`leader_stores_stale`).
-/

namespace WezuBackend.Utils.Invalidations

open Lib.Runs Utils.RuntimeCache

section

variable {Part V : Type} {c : Setting Part V} {w : World Part V}

/-! ## What one thread does -/

variable {i : ℕ} {place : Place V}

theorem goto_sound' (h : Sound c w) (hbegun : place.Begun)
    (hplace : Behaved c (w.goto i place) (w.calls i) place) : Sound c (w.goto i place) := by
  have hmono : ∀ l, (w.places l).Begun → ((w.goto i place).places l).Begun := by
    intro l hl
    by_cases hli : l = i
    · simpa [World.goto, hli] using hbegun
    · simpa [World.goto, hli] using hl
  refine { h with
    inflight := fun k l hl => ?_
    unset := fun l hl => h.unset l fun hbegun' => hl (hmono l hbegun')
    behaved := fun x => ?_ }
  · obtain ⟨hkey, hb, hevent⟩ := h.inflight k l hl
    exact ⟨hkey, hmono l hb, hevent⟩
  · by_cases hx : x = i
    · have hi : (w.goto i place).places i = place := by simp [World.goto]
      rw [hx, hi]
      exact hplace
    · have hne : (w.goto i place).places x = w.places x := by simp [World.goto, hx]
      rw [hne]
      exact (h.behaved x).mono (fun _ hf => hf) fun l hl => ⟨hmono l hl.1, hl.2⟩

theorem goto_sound (h : Sound c w) (hbegun : place.Begun)
    (hplace : Behaved c w (w.calls i) place) : Sound c (w.goto i place) := by
  refine goto_sound' h hbegun (hplace.mono (fun _ hf => hf) fun l hl => ⟨?_, hl.2⟩)
  by_cases hli : l = i
  · simpa [World.goto, hli] using hbegun
  · simpa [World.goto, hli] using hl.1

theorem begun_afterRead (i leader : ℕ) : (afterRead c i leader : Place V).Begun := by
  unfold afterRead
  split
  · trivial
  · split <;> trivial

theorem begun_afterLookup (i leader : ℕ) : (afterLookup c i leader : Place V).Begun := by
  unfold afterLookup
  split
  · trivial
  · exact begun_afterRead i leader

variable {t : Call Part}

theorem behaved_afterRead {i leader : ℕ} (h : Joined w t leader) :
    Behaved c w t (afterRead c i leader) := by
  unfold afterRead
  split
  · exact h
  · split
    · rename_i hredis
      exact hredis
    · trivial

theorem behaved_afterLookup {i leader : ℕ} (h : Joined w t leader) :
    Behaved c w t (afterLookup c i leader) := by
  unfold afterLookup
  split
  · rename_i hredis
    exact ⟨hredis, h⟩
  · exact behaved_afterRead h

/-! ## The module's tables -/

variable [DecidableEq Part]

omit [DecidableEq Part] in
theorem pruneExpired_sound (h : Sound c w) (now : ℤ) : Sound c (w.pruneExpired now) :=
  { h with
    cached := fun k e he => h.cached k e (Option.filter_eq_some_iff.mp he).1
    behaved := h.behaved }

/-- The call in flight is taken out; whoever waits for it may return its result. -/
theorem popInFlight_sound (h : Sound c w) (key : CacheKey Part)
    {done : InFlightCall V → InFlightCall V}
    (hdone : ∀ call t, t.key = key → (done call).event = true → (done call).failed = false →
      Fresh w t (done call).result.since) : Sound c (w.popInFlight key done) := by
  have hinflight : ∀ k l, (w.popInFlight key done).runtimeInflight k = some l →
      k ≠ key ∧ w.runtimeInflight k = some l := by
    intro k l hl
    by_cases hk : k = key
    · simp [World.popInFlight, hk] at hl
    · exact ⟨hk, by simpa [World.popInFlight, hk] using hl⟩
  cases hkey : w.runtimeInflight key with
  | none =>
    have hcalls : (w.popInFlight key done).inFlightCalls = w.inFlightCalls := by
      simp [World.popInFlight, hkey]
    refine { h with
      inflight := fun k l hl => hcalls ▸ h.inflight k l (hinflight k l hl).2
      unset := fun l hl => hcalls ▸ h.unset l hl
      behaved := fun i => (h.behaved i).mono (fun _ hf => hf) fun l hl => ⟨hl.1, hl.2.1, ?_⟩ }
    rw [hcalls]
    exact hl.2.2
  | some leader =>
    obtain ⟨hleader, hbegun, -⟩ := h.inflight key leader hkey
    have hself : (w.popInFlight key done).inFlightCalls leader =
        done (w.inFlightCalls leader) := by
      simp [World.popInFlight, hkey]
    have hne : ∀ l, l ≠ leader →
        (w.popInFlight key done).inFlightCalls l = w.inFlightCalls l := by
      intro l hl
      simp [World.popInFlight, hkey, hl]
    refine { h with
      inflight := fun k l hl => ?_
      unset := fun l hl => ?_
      behaved := fun i => (h.behaved i).mono (fun _ hf => hf) fun l hl => ⟨hl.1, hl.2.1, ?_⟩ }
    · obtain ⟨hk, hl'⟩ := hinflight k l hl
      obtain ⟨hlkey, hb, hevent⟩ := h.inflight k l hl'
      have hll : l ≠ leader := fun hll => hk (hlkey.symm.trans (hll ▸ hleader))
      exact ⟨hlkey, hb, hne l hll ▸ hevent⟩
    · have hll : l ≠ leader := fun hll => hl (hll ▸ hbegun)
      rw [hne l hll]
      exact h.unset l hl
    · by_cases hll : l = leader
      · rw [hll, hself]
        exact hdone _ _ (by rw [← hl.2.1, hll, hleader])
      · rw [hne l hll]
        exact hl.2.2

variable {value : Value V}

theorem storeLocalCache_sound (h : Sound c w) {key : CacheKey Part} (expiresAt : ℤ)
    (hstore : Storable w key value.since) :
    Sound c (w.storeLocalCache key expiresAt value) := by
  refine popInFlight_sound
    (w := { w with
      runtimeCache := Function.update w.runtimeCache key (some (expiresAt, value)) }) ?_ key ?_
  · refine { h with cached := fun k e he => ?_, behaved := h.behaved }
    by_cases hk : k = key
    · have he' : (expiresAt, value) = e := by simpa [hk] using he
      rw [hk, ← he']
      exact hstore
    · exact h.cached k e (by simpa [hk] using he)
  · intro call t ht _ _
    exact hstore.fresh ht

theorem lookup_sound (h : Sound c w) (hplace : w.places i = .lookup) (now : ℤ) :
    Sound c (lookup c w i now) := by
  have hprune := pruneExpired_sound h now
  unfold lookup
  split
  · rename_i e he
    have hcached := h.cached _ e (Option.filter_eq_some_iff.mp he).1
    exact goto_sound h trivial (hcached.fresh rfl)
  · split
    · rename_i leader hleader
      obtain ⟨hkey, hbegun, hevent⟩ := h.inflight _ leader hleader
      refine goto_sound hprune (begun_afterLookup i leader) (behaved_afterLookup ?_)
      exact ⟨hbegun, hkey, fun hset => absurd hset (by simp [World.pruneExpired, hevent])⟩
    · -- the thread becomes the leader; its own call is not set yet
      have hunset : (w.inFlightCalls i).event = false :=
        h.unset i (by rw [hplace]; exact not_false)
      have hself : ((w.pruneExpired now).goto i (afterLookup c i i)).places i =
          afterLookup c i i := by simp [World.goto]
      have hbegun : (((w.pruneExpired now).goto i (afterLookup c i i)).places i).Begun := by
        rw [hself]
        exact begun_afterLookup i i
      have hjoined : Joined ((w.pruneExpired now).goto i (afterLookup c i i)) (w.calls i) i :=
        ⟨hbegun, rfl, fun hset => absurd hset (by simp [World.pruneExpired, World.goto, hunset])⟩
      have hgoto := goto_sound' hprune (begun_afterLookup i i) (behaved_afterLookup hjoined)
      refine { hgoto with inflight := fun k l hl => ?_, behaved := hgoto.behaved }
      by_cases hk : k = (w.calls i).key
      · have hl' : i = l := by simpa [hk] using hl
        rw [← hl', hk]
        exact ⟨rfl, hbegun, hunset⟩
      · refine hgoto.inflight k l ?_
        have hl' : w.runtimeInflight k = some l := by simpa [hk] using hl
        exact hl'

/-! ## Redis -/

variable {key : String}

variable {e : RedisEntry}

omit [DecidableEq Part] in
theorem redisGet_mem (h : w.redisGet key = some e) :
    e ∈ w.redis ∧ e.key = key := by
  unfold World.redisGet at h
  have hkey := List.find?_some h
  exact ⟨List.mem_of_find?_eq_some h, of_decide_eq_true hkey⟩

omit [DecidableEq Part] in
theorem redisGet_fresh (h : Sound c w) (hredis : c.hasRedis = true)
    (he : w.redisGet (redisKey c t.key) = some e) : Fresh w t e.since := by
  obtain ⟨hmem, hkey⟩ := redisGet_mem he
  intro j ended hstage _ hcovers
  exact h.redis hredis e hmem j (by rw [hstage]; trivial) ⟨t.key, hcovers, hkey.symm⟩

omit [DecidableEq Part] in
theorem redisSet_sound (h : Sound c w) {entry : RedisEntry}
    (hentry : c.hasRedis = true → Publishable c w entry.key entry.since) :
    Sound c (w.redisSet entry) := by
  refine { h with redis := fun hredis e he => ?_, behaved := h.behaved }
  rcases List.mem_cons.mp he with rfl | he
  · exact hentry hredis
  · exact h.redis hredis e (List.mem_of_mem_filter he)

variable {stage : Stage}

theorem Stage.forget_eq_returned {ended : ℕ} :
    stage.forget key = .returned ended ↔ stage = .returned ended := by
  cases stage <;> simp [Stage.forget]

theorem Stage.cleared_forget : (stage.forget key).Cleared ↔ stage.Cleared := by
  cases stage <;> simp [Stage.forget, Stage.Cleared]

theorem Stage.passed_forget {key k : String} (hk : k ≠ key) :
    (stage.forget key).Passed k ↔ stage.Passed k := by
  cases stage <;> simp [Stage.forget, Stage.Passed, hk]

omit [DecidableEq Part] in
theorem redisDelete_sound (h : Sound c w) (key : String) : Sound c (w.redisDelete key) := by
  have hfresh : ∀ t since, Fresh w t since → Fresh (w.redisDelete key) t since :=
    fun t since hf j ended hstage => hf j ended (Stage.forget_eq_returned.mp hstage)
  refine { h with
    cached := fun k e he j hj => h.cached k e he j (Stage.cleared_forget.mp hj)
    redis := fun hredis e he j hj => ?_
    behaved := fun i => (h.behaved i).mono (hfresh _) fun l hl =>
      ⟨hl.1, hl.2.1, fun hset hfailed => hfresh _ _ (hl.2.2 hset hfailed)⟩
    ended := fun j e hj => h.ended j e (Stage.forget_eq_returned.mp hj) }
  obtain ⟨hmem, hkey⟩ := List.mem_filter.mp he
  exact h.redis hredis e hmem j ((Stage.passed_forget (of_decide_eq_true hkey)).mp hj)

omit [DecidableEq Part] in
theorem publish_sound (h : Sound c w) {key : CacheKey Part}
    (hpublish : (c.dumps value.value).isSome → Publishable c w (redisKey c key) value.since) :
    Sound c (publish c w key value) := by
  unfold publish
  split
  · exact h
  · rename_i payload hpayload
    exact redisSet_sound h fun _ => hpublish (by rw [hpayload]; rfl)

omit [DecidableEq Part] in
theorem publish_frame (key : CacheKey Part) (value : Value V) :
    ∃ redis, publish c w key value = { w with redis := redis } := by
  unfold publish
  split
  · exact ⟨w.redis, rfl⟩
  · exact ⟨_, rfl⟩

theorem resolved_sound (h : Sound c w) {found : Found} {payload : String}
    {since : Option ℕ} (hplace : w.places i = .redisStore found payload since) (now : ℤ)
    (hstore : (c.loads payload).isSome → Storable w (w.calls i).key since) :
    Sound c (resolved c w i found payload since now) := by
  have hbehaved := h.behaved i
  rw [hplace] at hbehaved
  unfold resolved
  cases hloads : c.loads payload with
  | none =>
    cases found with
    | first leader => exact goto_sound h (begun_afterRead i leader) (behaved_afterRead hbehaved.1)
    | polled => exact goto_sound h trivial trivial
  | some value =>
    have hstorable := hstore (by rw [hloads]; rfl)
    have hsound : Sound c (w.storeLocalCache (w.calls i).key (now + (w.calls i).ttlSeconds)
        ⟨value, since⟩) := storeLocalCache_sound h _ hstorable
    cases value with
    | some v => exact goto_sound hsound trivial (hstorable.fresh rfl)
    | none =>
      cases found with
      | first leader =>
        -- the call in flight may have been set to `None` by this thread
        have hjoined := hsound.behaved i
        have hplace' : (w.storeLocalCache (w.calls i).key (now + (w.calls i).ttlSeconds)
          ⟨none, since⟩).places i = .redisStore (.first leader) payload since := hplace
        rw [hplace'] at hjoined
        exact goto_sound hsound (begun_afterRead i leader) (behaved_afterRead hjoined.1)
      | polled => exact goto_sound hsound trivial hbehaved.1

theorem turn_sound (h : Sound c w) (i : ℕ) (env : Env V) (htimely : Timely c w (.turn i env)) :
    Sound c (turn c w i env) := by
  have hbehaved := h.behaved i
  unfold Timely at htimely
  unfold turn
  dsimp only at htimely ⊢
  cases hplace : w.places i with
  | idle => exact h
  | returned value => exact h
  | raised => exact h
  | lookup => exact lookup_sound h hplace env.now
  | redisRead leader =>
    rw [hplace] at hbehaved
    obtain ⟨hredis, hjoined⟩ := hbehaved
    dsimp only
    split
    · exact goto_sound h (begun_afterRead i leader) (behaved_afterRead hjoined)
    · rename_i e he
      have hget : w.redisGet (redisKey c (w.calls i).key) = some e := by
        by_cases hfails : env.fails = true
        · simp [hfails] at he
        · simpa [hfails] using he
      exact goto_sound h trivial ⟨hjoined, redisGet_fresh h hredis hget⟩
  | redisStore found payload since =>
    rw [hplace] at htimely
    exact resolved_sound h hplace env.now htimely
  | waiting leader =>
    rw [hplace] at hbehaved
    dsimp only
    split
    · rename_i hset
      split
      · exact goto_sound h trivial trivial
      · rename_i hfailed
        exact goto_sound h trivial (hbehaved.2.2 hset (by simpa using hfailed))
    · split
      · exact goto_sound h trivial trivial
      · exact h
  | redisLock =>
    rw [hplace] at hbehaved
    dsimp only
    split
    · exact goto_sound h trivial hbehaved
    · refine goto_sound (redisSet_sound h fun _ j _ _ s hs => ?_) trivial trivial
      exact absurd hs (by simp)
  | polling =>
    rw [hplace] at hbehaved
    dsimp only
    split
    · exact goto_sound h trivial trivial
    · cases hget : w.redisGet (redisKey c (w.calls i).key) with
      | none => exact h
      | some e => exact goto_sound h trivial ⟨hbehaved, redisGet_fresh h hbehaved hget⟩
  | ready mode => exact goto_sound h trivial (h.startedCalls i)
  | computing mode since =>
    rw [hplace] at hbehaved
    have hfresh := h.fresh_of_le hbehaved
    cases env.outcome with
    | none => cases mode <;> exact goto_sound h trivial trivial
    | some value => cases mode <;> exact goto_sound h trivial hfresh
  | unlockingFailed held =>
    dsimp only
    split
    · exact goto_sound (redisDelete_sound h _) trivial trivial
    · exact goto_sound h trivial trivial
  | failing =>
    refine goto_sound (popInFlight_sound h _ fun call t _ _ hfailed => ?_) trivial trivial
    exact absurd hfailed (by simp)
  | storing value held =>
    rw [hplace] at htimely
    have hsound := storeLocalCache_sound h (env.now + (w.calls i).ttlSeconds) htimely
    dsimp only
    split
    · exact goto_sound hsound trivial (htimely.fresh rfl)
    · exact goto_sound hsound trivial (htimely.fresh rfl)
  | publishing value held =>
    rw [hplace] at htimely hbehaved
    have hplace' : (if held then .unlocking value else .returned value : Place V).Begun ∧
        Behaved c w (w.calls i) (if held then .unlocking value else .returned value) := by
      split <;> exact ⟨trivial, hbehaved⟩
    dsimp only
    by_cases hfails : env.fails = true
    · rw [if_pos hfails]
      exact goto_sound h hplace'.1 hplace'.2
    · rw [if_neg hfails]
      have hsound := publish_sound h (htimely (by simpa using hfails))
      obtain ⟨redis, hpublish⟩ := publish_frame (c := c) (w := w) (w.calls i).key value
      rw [hpublish] at hsound ⊢
      exact goto_sound hsound hplace'.1 hplace'.2
  | unlocking value =>
    rw [hplace] at hbehaved
    dsimp only
    split
    · exact goto_sound h trivial hbehaved
    · refine goto_sound (redisDelete_sound h _) trivial fun j ended hstage => ?_
      exact hbehaved j ended (Stage.forget_eq_returned.mp hstage)

/-! ## What one invalidation does -/

variable {j : ℕ}

omit [DecidableEq Part] in
/-- An invalidation goes on, where nothing is cached or in Redis that it should have deleted. -/
theorem reach_sound (h : Sound c w) (hstage : ∀ e, stage = .returned e → e = w.time)
    (hcached : ∀ k e, w.runtimeCache k = some e → Covers (w.invalidations j).start k →
      NotBefore e.2.since (w.invalidations j).started)
    (hredis : c.hasRedis = true → ∀ e ∈ w.redis, stage.Passed e.key →
      Concerns c (w.invalidations j).start e.key →
      NotBefore e.since (w.invalidations j).started) : Sound c (w.reach j stage) := by
  have hne : ∀ x, x ≠ j → (w.reach j stage).stages x = w.stages x := by
    intro x hx
    simp [World.reach, hx]
  have hself : (w.reach j stage).stages j = stage := by simp [World.reach]
  have hfresh : ∀ i since, Fresh w (w.calls i) since → Fresh (w.reach j stage) (w.calls i) since :=
    fun i since hf => hf.reach (h.startedCalls i) hstage
  refine { h with
    cached := fun k e he x hx => ?_
    redis := fun hr e he x hx => ?_
    behaved := fun i => (h.behaved i).mono (hfresh i) fun l hl =>
      ⟨hl.1, hl.2.1, fun hset hfailed => hfresh i _ (hl.2.2 hset hfailed)⟩
    ended := fun x e hx => ?_ }
  · by_cases hxj : x = j
    · rw [hxj]
      exact hcached k e he
    · exact h.cached k e he x (hne x hxj ▸ hx)
  · by_cases hxj : x = j
    · rw [hxj, hself] at hx
      rw [hxj]
      exact hredis hr e he hx
    · exact h.redis hr e he x (hne x hxj ▸ hx)
  · by_cases hxj : x = j
    · rw [hxj, hself] at hx
      rw [hxj, hstage e hx]
      exact h.startedInvalidations j
    · exact h.ended x e (hne x hxj ▸ hx)

theorem clear_sound (h : Sound c w) (start : CacheKey Part) : Sound c (clear w start) := by
  refine { h with
    cached := fun k e he => ?_
    inflight := fun k l hl => ?_
    unset := fun l hl => ?_
    behaved := fun i => (h.behaved i).mono (fun _ hf => hf) fun l hl => ⟨hl.1, hl.2.1, ?_⟩ }
  · have hk : ¬ Covers start k ∧ w.runtimeCache k = some e := by simpa [clear] using he
    exact h.cached k e hk.2
  · have hk : ¬ Covers start k ∧ w.runtimeInflight k = some l := by simpa [clear] using hl
    obtain ⟨hkey, hbegun, hevent⟩ := h.inflight k l hk.2
    exact ⟨hkey, hbegun, by simpa [clear, hkey, hk.1] using hevent⟩
  · have hnone : w.runtimeInflight (w.calls l).key ≠ some l := fun hsome =>
      hl (h.inflight _ l hsome).2.1
    simpa [clear, hnone] using h.unset l hl
  · intro hset hfailed
    by_cases hl' : Covers start (w.calls l).key ∧ w.runtimeInflight (w.calls l).key = some l
    · exact absurd hfailed (by simp [clear, hl'])
    · have hcall : (clear w start).inFlightCalls l = w.inFlightCalls l := by
        simp only [clear, if_neg hl']
      rw [hcall] at hset hfailed ⊢
      exact hl.2.2 hset hfailed

theorem reach_clear_sound (h : Sound c w)
    (hstage : stage = .cleared ∨ c.hasRedis = false ∧ stage = .returned w.time) :
    Sound c ((clear w (w.invalidations j).start).reach j stage) := by
  refine reach_sound (clear_sound h _) ?_ (fun k e he hcovers => ?_) fun hr e he hpassed => ?_
  · rintro e rfl
    rcases hstage with hstage | ⟨-, hstage⟩
    · simp at hstage
    · exact Stage.returned.inj hstage
  · have hk : ¬ Covers (w.invalidations j).start k ∧ w.runtimeCache k = some e := by
      simpa [clear] using he
    exact absurd hcovers hk.1
  · rcases hstage with rfl | ⟨hoff, -⟩
    · exact hpassed.elim
    · simp [hr] at hoff

omit [DecidableEq Part] in
theorem intercalate_append {α : Type} (sep : List α) (l l' : List (List α)) (hl : l ≠ []) :
    sep.intercalate l <+: sep.intercalate (l ++ l') := by
  induction l with
  | nil => exact absurd rfl hl
  | cons x l ih =>
    cases l with
    | nil =>
      cases l' with
      | nil => exact List.prefix_refl _
      | cons y l' =>
        rw [List.singleton_append, List.intercalate_cons_cons, List.intercalate_singleton,
          List.append_assoc]
        exact List.prefix_append _ _
    | cons y l =>
      rw [List.cons_append, List.cons_append, List.intercalate_cons_cons,
        List.intercalate_cons_cons]
      exact (List.prefix_append_right_inj _).mpr (ih (List.cons_ne_nil _ _))

omit [DecidableEq Part] in
/-- The pattern of an invalidation finds every key that it covers. -/
theorem scanned_of_concerns {start : CacheKey Part} (h : Concerns c start key) :
    Scanned c start key := by
  obtain ⟨⟨ns, parts⟩, ⟨hns, rest, hparts⟩, rfl⟩ := h
  have hns' : ns = start.ns := hns.symm
  have hparts' : parts = start.parts ++ rest := hparts.symm
  unfold Scanned redisKey
  rw [hns', hparts', List.map_append, ← List.cons_append, List.map_append, String.toList_append,
    String.toList_append, String.toList_intercalate, String.toList_intercalate, List.map_append]
  refine (List.prefix_append_right_inj _).mpr (intercalate_append _ _ _ ?_)
  simp

theorem invalidationTurn_sound (h : Sound c w) (j : ℕ) (scan : Scan)
    (htimely : Timely c w (.invalidationTurn j scan)) :
    Sound c (invalidationTurn c w j scan) := by
  have hnow : ∀ e, Stage.returned w.time = .returned e → e = w.time := fun e he =>
    (Stage.returned.inj he).symm
  have hkept : (w.stages j).Cleared → ∀ k e, w.runtimeCache k = some e →
      Covers (w.invalidations j).start k → NotBefore e.2.since (w.invalidations j).started :=
    fun hcleared k e he => h.cached k e he j hcleared
  have hscan : (w.stages j).Cleared → Sound c (w.reach j (.scanning
      ((w.redis.map RedisEntry.key).filter fun key =>
        Scanned c (w.invalidations j).start key))) := by
    intro hcleared
    refine reach_sound h nofun (hkept hcleared) fun _ e he hpassed hconcerns => absurd ?_ hpassed
    -- whatever the scan has to find is there when it begins
    refine List.mem_filter.mpr ⟨List.mem_map_of_mem he, ?_⟩
    exact decide_eq_true (scanned_of_concerns hconcerns)
  unfold invalidationTurn
  cases hstage : w.stages j with
  | idle => cases scan <;> exact h
  | returned ended => cases scan <;> exact h
  | begun =>
    have hclear : Sound c ((clear w (w.invalidations j).start).reach j
        (if c.hasRedis then .cleared else .returned w.time)) := by
      refine reach_clear_sound h ?_
      split
      · exact .inl rfl
      · rename_i hredis
        exact .inr ⟨by simpa using hredis, rfl⟩
    cases scan <;> exact hclear
  | cleared =>
    have hcleared : (w.stages j).Cleared := by rw [hstage]; trivial
    cases scan with
    | goesOn => exact hscan hcleared
    | deletes key => exact hscan hcleared
    | fails =>
      exact reach_sound h hnow (hkept hcleared) fun _ e he _ hconcerns =>
        htimely hcleared e he hconcerns
  | scanning remaining =>
    have hcleared : (w.stages j).Cleared := by rw [hstage]; trivial
    cases scan with
    | goesOn =>
      dsimp only
      split
      · rename_i hremaining
        refine reach_sound h hnow (hkept hcleared) fun hredis e he _ hconcerns => ?_
        refine h.redis hredis e he j ?_ hconcerns
        rw [hstage, hremaining]
        exact List.not_mem_nil
      · exact h
    | deletes key =>
      dsimp only
      split
      · exact redisDelete_sound h key
      · exact h
    | fails =>
      exact reach_sound h hnow (hkept hcleared) fun _ e he _ hconcerns =>
        htimely hcleared e he hconcerns

/-! ## Runs -/

omit [DecidableEq Part] in
theorem cachedCall_sound (h : Sound c w) (hidle : w.places i = .idle)
    (key : CacheKey Part) (ttlSeconds : ℤ) (hplace : place = .ready .own ∨ place = .lookup) :
    Sound c { w with
      calls := Function.update w.calls i ⟨key, ttlSeconds, w.time⟩
      places := Function.update w.places i place } := by
  have hne : ∀ l, (w.places l).Begun → l ≠ i := by
    rintro l hl rfl
    rw [hidle] at hl
    exact hl
  have hunset := h.unset i (by rw [hidle]; exact not_false)
  refine { h with
    inflight := fun k l hl => ?_
    unset := fun l hl => ?_
    behaved := fun x => ?_
    startedCalls := fun x => ?_ }
  · obtain ⟨hkey, hbegun, hevent⟩ := h.inflight k l hl
    have hli := hne l hbegun
    exact ⟨by simpa [hli] using hkey, by simpa [hli] using hbegun, hevent⟩
  · by_cases hli : l = i
    · exact hli ▸ hunset
    · exact h.unset l (by simpa [hli] using hl)
  · by_cases hx : x = i
    · rcases hplace with rfl | rfl <;> simp [hx, Behaved]
    · simp only [Function.update_of_ne hx]
      refine (h.behaved x).mono (fun _ hf => hf) fun l hl => ?_
      have hli := hne l hl.1
      exact ⟨by simpa [hli] using hl.1, by simpa [hli] using hl.2.1, hl.2.2⟩
  · by_cases hx : x = i
    · simp [hx]
    · simpa [hx] using h.startedCalls x

omit [DecidableEq Part] in
theorem invalidateCache_sound (h : Sound c w) (j : ℕ) (start : CacheKey Part) :
    Sound c { w with
      invalidations := Function.update w.invalidations j ⟨start, w.time⟩
      stages := Function.update w.stages j .begun } := by
  have hfresh : ∀ t since, Fresh w t since → Fresh { w with
      invalidations := Function.update w.invalidations j ⟨start, w.time⟩
      stages := Function.update w.stages j .begun } t since := by
    intro t since hf x ended hx
    by_cases hxj : x = j
    · exact absurd hx (by simp [hxj])
    · simpa [hxj] using hf x ended (by simpa [hxj] using hx)
  refine { h with
    cached := fun k e he x hx => ?_
    redis := fun hr e he x hx => ?_
    behaved := fun i => (h.behaved i).mono (hfresh _) fun l hl =>
      ⟨hl.1, hl.2.1, fun hset hfailed => hfresh _ _ (hl.2.2 hset hfailed)⟩
    startedInvalidations := fun x => ?_
    ended := fun x e hx => ?_ }
  · by_cases hxj : x = j
    · exact absurd hx (by simp [hxj, Stage.Cleared])
    · simpa [hxj] using h.cached k e he x (by simpa [hxj] using hx)
  · by_cases hxj : x = j
    · exact absurd hx (by simp [hxj, Stage.Passed])
    · simpa [hxj] using h.redis hr e he x (by simpa [hxj] using hx)
  · by_cases hxj : x = j
    · simp [hxj]
    · simpa [hxj] using h.startedInvalidations x
  · by_cases hxj : x = j
    · exact absurd hx (by simp [hxj])
    · simpa [hxj] using h.ended x e (by simpa [hxj] using hx)

theorem act_sound (h : Sound c w) (a : RuntimeCache.Action Part V) (htimely : Timely c w a) :
    Sound c (act c w a) := by
  cases a with
  | cachedCall i key ttlSeconds =>
    simp only [act]
    split
    · refine cachedCall_sound h ‹_› key ttlSeconds ?_
      split
      · exact .inl rfl
      · exact .inr rfl
    · exact h
  | invalidateCache j start =>
    simp only [act]
    split
    · exact invalidateCache_sound h j start
    · exact h
  | turn i env => exact turn_sound h i env htimely
  | invalidationTurn j scan => exact invalidationTurn_sound h j scan htimely
  | expire key => exact redisDelete_sound h key

theorem step_sound (h : Sound c w) (a : RuntimeCache.Action Part V) (htimely : Timely c w a) :
    Sound c (step c w a) := by
  have hact := act_sound h a htimely
  exact { hact with
    behaved := hact.behaved
    startedCalls := fun i => (hact.startedCalls i).trans (Nat.le_succ _)
    startedInvalidations := fun j => (hact.startedInvalidations j).trans (Nat.le_succ _) }

/-- As long as no outdated value is stored and no scan given up that would have deleted one, a call
that starts after an invalidation of its key returns nothing whose computation started before the
invalidation. -/
theorem no_stale_value (c : Setting Part V) (redis : List RedisEntry) (time : ℕ)
    (as : List (RuntimeCache.Action Part V))
    (htimely : Along (step c) (Timely c) (World.starting redis time) as) :
    NoStale (run (step c) (World.starting redis time) as) := by
  have hsound : Sound c (run (step c) (World.starting redis time) as) :=
    run_invariant_of_along (I := Sound c) (fun _ a h ht => step_sound h a ht)
      (sound_starting redis time) htimely
  intro i value hvalue
  have hbehaved := hsound.behaved i
  rw [hvalue] at hbehaved
  exact hbehaved

end

/-! ## One user's profile -/

def inProcess : Setting String ℕ where
  hasRedis := false
  str := id
  dumps value := some ((value.map toString).getD "null")
  loads payload := if payload = "null" then some none else payload.toNat?.map some

def profile : CacheKey String := ⟨"user-self", ["4", "profile"]⟩

def answering : Env ℕ := ⟨0, false, false, some (some 7)⟩

/-- The profile is asked for after an invalidation of everything about the user. -/
def askedAfterwards : List (RuntimeCache.Action String ℕ) :=
  [.invalidateCache 0 ⟨"user-self", ["4"]⟩, .invalidationTurn 0 .goesOn, .cachedCall 1 profile 30,
    .turn 1 answering, .turn 1 answering, .turn 1 answering, .turn 1 answering]

theorem no_stale_value_sample :
    Along (step inProcess) (Timely inProcess) (World.starting [] 0) askedAfterwards ∧
      NoStale (run (step inProcess) (World.starting [] 0) askedAfterwards) := by
  have hstarted : ∀ j, (Function.update (fun _ => (⟨⟨"", []⟩, 0⟩ : Invalidation String)) 0
      ⟨⟨"user-self", ["4"]⟩, 0⟩ j).started = 0 := by
    intro j
    by_cases hj : j = 0 <;> simp [hj]
  have htimely : Along (step inProcess) (Timely inProcess) (World.starting [] 0)
      askedAfterwards :=
    ⟨trivial, trivial, trivial, trivial, trivial, trivial,
      fun j _ _ s _ => (hstarted j).trans_le (Nat.zero_le s), trivial⟩
  exact ⟨htimely, no_stale_value inProcess [] 0 askedAfterwards htimely⟩

/-- The leader is computing when the user's entries are invalidated; it stores its result, and a
call that starts afterwards returns it. -/
theorem leader_stores_stale :
    ¬ ∀ as, NoStale (run (step inProcess) (World.starting [] 0) as) := by
  intro h
  have hstale := h [.cachedCall 0 profile 30, .turn 0 answering, .turn 0 answering,
    .invalidateCache 0 ⟨"user-self", ["4"]⟩, .invalidationTurn 0 .goesOn, .turn 0 answering,
    .turn 0 answering, .cachedCall 1 profile 30, .turn 1 answering]
    1 ⟨some 7, some 2⟩ rfl 0 4 rfl (by decide) (by decide) 2 rfl
  have hstarted : 3 ≤ 2 := hstale
  omega

end WezuBackend.Utils.Invalidations
