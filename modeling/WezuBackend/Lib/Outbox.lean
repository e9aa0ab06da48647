import WezuBackend.Lib.Runs
import WezuBackend.Lib.Tables
import Mathlib.Data.List.Sort

/-!
# Outboxes

An outbox holds tickets.  A dispatcher takes tickets that wait and have attempts left; each of them
has one attempt more afterwards, and is closed, or waits with attempts left.  `Moves` says what one
step of an outbox may do, and `claims` are the tickets it takes.

* `Sound`: every ticket that waits has attempts left, and what it counts is how often it was taken.
* `Moves.sound`, `Moves.closed`: a step keeps this, and leaves closed tickets alone.
* `run_sound`: so does a run.
* `select`: the rows to take, in the order of their creation.
* `moves_setAll`, `moves_add`: the two steps of an outbox that is a table of rows.
-/

namespace WezuBackend.Lib.Outbox

open Lib.Runs Lib.Tables

inductive Stage where
  | waiting | busy | published | dead
  deriving DecidableEq, Repr

/-- The ticket is not taken any more. -/
def Stage.Closed (stage : Stage) : Prop := stage = .published ∨ stage = .dead

structure Ticket where
  stage : Stage
  attempts : ℕ
  limit : ℕ

/-- The tickets, and who was taken, in the order of the attempts. -/
structure Tickets (κ : Type) where
  ticket : κ → Option Ticket
  attempts : List κ

/-- A ticket before and after an attempt. -/
structure Taken (t t' : Ticket) : Prop where
  waiting : t.stage = .waiting
  left : t.attempts < t.limit
  limit : t'.limit = t.limit
  counted : t'.attempts = t.attempts + 1
  settled : t'.stage.Closed ∨ t'.stage = .waiting ∧ t'.attempts < t'.limit

variable {κ : Type} {o o' : Tickets κ} {claims : List κ}

/-- **A step** of an outbox. -/
structure Moves (o o' : Tickets κ) (claims : List κ) : Prop where
  nodup : claims.Nodup
  attempts : o'.attempts = o.attempts ++ claims
  taken : ∀ k ∈ claims, ∃ t t', o.ticket k = some t ∧ o'.ticket k = some t' ∧ Taken t t'
  kept : ∀ k, k ∉ claims → ∀ t, o.ticket k = some t → o'.ticket k = some t
  new : ∀ k t, o.ticket k = none → o'.ticket k = some t →
    t.stage = .waiting ∧ t.attempts = 0 ∧ 0 < t.limit

/-- A ticket that the dispatcher still covers, or is done with. -/
structure Covered (t : Ticket) : Prop where
  bounded : t.attempts ≤ t.limit
  idle : t.stage ≠ .busy
  left : t.stage = .waiting → t.attempts < t.limit

theorem Covered.closed {t : Ticket} (h : Covered t) (hlast : t.attempts = t.limit) :
    t.stage.Closed := by
  obtain ⟨-, hidle, hleft⟩ := h
  rcases hstage : t.stage with _ | _ | _ | _
  · have := hleft hstage
    omega
  · exact absurd hstage hidle
  · exact .inl rfl
  · exact .inr rfl

variable [DecidableEq κ]

/-- **Nothing is stranded**, and the counts are right. -/
structure Sound (o : Tickets κ) : Prop where
  covered : ∀ k t, o.ticket k = some t → Covered t
  counted : ∀ k, o.attempts.count k = ((o.ticket k).map Ticket.attempts).getD 0

omit [DecidableEq κ] in
theorem Moves.closed (h : Moves o o' claims) {k : κ} {t : Ticket} (ht : o.ticket k = some t)
    (hclosed : t.stage.Closed) : o'.ticket k = some t := by
  refine h.kept k (fun hk => ?_) t ht
  obtain ⟨t₁, t', ht₁, -, htaken⟩ := h.taken k hk
  rw [ht] at ht₁
  obtain rfl := Option.some.inj ht₁
  rcases hclosed with hstage | hstage
  · rw [htaken.waiting] at hstage
    cases hstage
  · rw [htaken.waiting] at hstage
    cases hstage

/-- **A step keeps this.** -/
theorem Moves.sound (h : Moves o o' claims) (hsound : Sound o) : Sound o' := by
  have hcount : ∀ k, o'.attempts.count k = o.attempts.count k + claims.count k := by
    intro k
    rw [h.attempts, List.count_append]
  constructor
  · intro k t' ht'
    by_cases hk : k ∈ claims
    · obtain ⟨t, t₁, ht, ht₁, htaken⟩ := h.taken k hk
      rw [ht'] at ht₁
      obtain rfl := Option.some.inj ht₁
      have hle : t'.attempts ≤ t'.limit := by
        have := htaken.left
        rw [htaken.counted, htaken.limit]
        omega
      rcases htaken.settled with (hstage | hstage) | ⟨hstage, hlt⟩
      · exact ⟨hle, by rw [hstage]; exact nofun, by rw [hstage]; exact nofun⟩
      · exact ⟨hle, by rw [hstage]; exact nofun, by rw [hstage]; exact nofun⟩
      · exact ⟨hle, by rw [hstage]; exact nofun, fun _ => hlt⟩
    · rcases ht : o.ticket k with _ | t
      · obtain ⟨hstage, hzero, hpos⟩ := h.new k t' ht ht'
        exact ⟨by omega, by rw [hstage]; exact nofun, fun _ => by omega⟩
      · rw [h.kept k hk t ht] at ht'
        obtain rfl := Option.some.inj ht'
        exact hsound.covered k _ ht
  · intro k
    rw [hcount, hsound.counted]
    by_cases hk : k ∈ claims
    · obtain ⟨t, t', ht, ht', htaken⟩ := h.taken k hk
      rw [List.count_eq_one_of_mem h.nodup hk, ht, ht']
      exact htaken.counted.symm
    · rw [List.count_eq_zero_of_not_mem hk, Nat.add_zero]
      rcases ht : o.ticket k with _ | t
      · rcases ht' : o'.ticket k with _ | t'
        · rfl
        · exact (h.new k t' ht ht').2.1.symm
      · rw [h.kept k hk t ht]

theorem run_sound {σ ο : Type} {step : σ → ο → σ} {C : σ → ο → Prop} (outbox : σ → Tickets κ)
    (hstep : ∀ s o, C s o → ∃ claims, Moves (outbox s) (outbox (step s o)) claims) {s : σ}
    (h : Sound (outbox s)) {os : List ο} (hC : Along step C s os) :
    Sound (outbox (run step s os)) ∧ ∀ pre post, os = pre ++ post → ∀ k t,
      (outbox (run step s pre)).ticket k = some t → t.stage.Closed →
        (outbox (run step s os)).ticket k = some t := by
  constructor
  · refine run_invariant_of_along (I := fun s => Sound (outbox s)) (fun s o h hC => ?_) h hC
    obtain ⟨claims, hmoves⟩ := hstep s o hC
    exact hmoves.sound h
  · rintro pre post rfl k t ht hclosed
    rw [run_append]
    refine run_invariant_of_along (I := fun s => (outbox s).ticket k = some t)
      (fun s o h hC => ?_) ht
      (along_append.mp hC).2
    obtain ⟨claims, hmoves⟩ := hstep s o hC
    exact hmoves.closed h hclosed

theorem sound_empty {o : Tickets κ} (hticket : ∀ k, o.ticket k = none)
    (hattempts : o.attempts = []) :
    Sound o := by
  refine ⟨fun k t ht => ?_, fun k => ?_⟩
  · rw [hticket] at ht
    cases ht
  · rw [hticket, hattempts]
    rfl

/-! ## Outboxes that are tables -/

section

variable {ρ : Type} [Row ρ ℕ] (view : ρ → Ticket)

/-- The outbox of the rows of a table. -/
def ofTable (t : Table ρ) (attempts : List ℕ) : Tickets ℕ :=
  ⟨fun k => (t.get? k).map view, attempts⟩

variable {view} {t : Table ρ} {attempts : List ℕ}

variable {r : ρ}

theorem ticket_of_mem (h : r ∈ t) : (ofTable view t attempts).ticket (Row.key r) = some (view r) :=
  Option.map_eq_some_iff.mpr ⟨r, Table.get?_of_mem h, rfl⟩

theorem mem_of_ticket {k : ℕ} {x : Ticket} (h : (ofTable view t attempts).ticket k = some x) :
    ∃ r ∈ t, Row.key r = k ∧ view r = x := by
  obtain ⟨r, hr, hview⟩ := Option.map_eq_some_iff.mp h
  obtain ⟨hmem, hkey⟩ := Table.get?_eq_some.mp hr
  exact ⟨r, hmem, hkey, hview⟩

theorem Sound.row (h : Sound (ofTable view t attempts)) (hr : r ∈ t) :
    attempts.count (Row.key r) = (view r).attempts ∧ (view r).attempts ≤ (view r).limit ∧
      ((view r).attempts = (view r).limit → (view r).stage.Closed) := by
  have hticket : (ofTable view t attempts).ticket (Row.key r) = some (view r) := ticket_of_mem hr
  have hcovered := h.covered _ _ hticket
  have hcount := h.counted (Row.key r)
  rw [hticket] at hcount
  exact ⟨hcount, hcovered.bounded, hcovered.closed⟩

def Before (createdAt : ρ → ℕ) (r r' : ρ) : Prop :=
  createdAt r < createdAt r' ∨ createdAt r = createdAt r' ∧ Row.key r ≤ Row.key r'

instance (createdAt : ρ → ℕ) : DecidableRel (Before createdAt) := fun r r' => by
  unfold Before
  infer_instance

/-- The first rows with a property. -/
def select (p : ρ → Bool) (createdAt : ρ → ℕ) (size : ℕ) (t : Table ρ) : List ρ :=
  ((t.filter p).insertionSort (Before createdAt)).take size

theorem mem_select {p : ρ → Bool} {createdAt : ρ → ℕ} {size : ℕ}
    (h : r ∈ select p createdAt size t) : r ∈ t ∧ p r = true :=
  Table.mem_filter.mp ((List.perm_insertionSort _ _).subset (List.take_subset _ _ h))

theorem nodup_select (p : ρ → Bool) (createdAt : ρ → ℕ) (size : ℕ) (t : Table ρ) :
    ((select p createdAt size t).map Row.key).Nodup := by
  have hfilter : ((t.filter p).map Row.key).Nodup :=
    t.nodup.sublist (List.filter_sublist.map Row.key)
  have hsorted := ((List.perm_insertionSort (Before createdAt) (t.filter p)).map
    Row.key).nodup_iff.mpr hfilter
  exact hsorted.sublist ((List.take_sublist _ _).map Row.key)

theorem moves_refl : Moves (ofTable view t attempts) (ofTable view t attempts) [] :=
  ⟨List.nodup_nil, (List.append_nil _).symm, fun _ hk => absurd hk List.not_mem_nil,
    fun _ _ _ h => h, fun _ _ h h' => by rw [h] at h'; cases h'⟩

/-- **A new row.** -/
theorem moves_add {mk : ℕ → ρ} (hmk : ∀ k, Row.key (mk k) = k)
    (hnew : ∀ k, (view (mk k)).stage = .waiting ∧ (view (mk k)).attempts = 0 ∧
      0 < (view (mk k)).limit) :
    Moves (ofTable view t attempts) (ofTable view (t.add mk hmk) attempts) [] := by
  refine ⟨List.nodup_nil, (List.append_nil _).symm, fun _ hk => absurd hk List.not_mem_nil,
    fun k _ x hx => ?_, fun k x hk hx => ?_⟩
  · obtain ⟨r, hr, rfl⟩ := Option.map_eq_some_iff.mp hx
    have hkept : (t.add mk hmk).get? k = some r := Table.get?_add_of_some hr
    exact Option.map_eq_some_iff.mpr ⟨r, hkept, rfl⟩
  · obtain ⟨r, hr, rfl⟩ := Option.map_eq_some_iff.mp hx
    have hnone : t.get? k = none := Option.map_eq_none_iff.mp hk
    by_cases hfresh : k = t.freshKey
    · subst hfresh
      have hget : (t.add mk hmk).get? t.freshKey = some (mk t.freshKey) := Table.get?_add_fresh
      rw [hget] at hr
      obtain rfl := Option.some.inj hr
      exact hnew _
    · have hget : (t.add mk hmk).get? k = t.get? k := Table.get?_add_ne hfresh
      rw [hget, hnone] at hr
      cases hr

omit [Row ρ ℕ] in
theorem exists_result {R : ρ → ρ → Prop} {claimed results : List ρ}
    (h : List.Forall₂ R claimed results) (hr : r ∈ claimed) : ∃ r' ∈ results, R r r' := by
  induction h with
  | nil => cases hr
  | cons hfirst _ ih =>
    rcases List.mem_cons.mp hr with rfl | hr
    · exact ⟨_, List.mem_cons_self, hfirst⟩
    · obtain ⟨r', hr', h⟩ := ih hr
      exact ⟨r', List.mem_cons_of_mem _ hr', h⟩

/-- **A dispatch**: rows are taken, and written back. -/
theorem moves_setAll {claimed results : List ρ} (hclaimed : ∀ r ∈ claimed, r ∈ t)
    (hnodup : (claimed.map Row.key).Nodup)
    (hresults : List.Forall₂ (fun r r' => Row.key r' = Row.key r ∧ Taken (view r) (view r'))
      claimed results) :
    Moves (ofTable view t attempts)
      (ofTable view (t.setAll results) (attempts ++ claimed.map Row.key))
        (claimed.map Row.key) := by
  have hkeys : results.map Row.key = claimed.map Row.key := by
    clear hclaimed hnodup
    induction hresults with
    | nil => rfl
    | cons h _ ih => rw [List.map_cons, List.map_cons, h.1, ih]
  refine ⟨hnodup, rfl, fun k hk => ?_, fun k hk x hx => ?_, fun k x hk hx => ?_⟩
  · obtain ⟨r, hr, rfl⟩ := List.mem_map.mp hk
    obtain ⟨r', hr', hkey, htaken⟩ := exists_result hresults hr
    have hget : t.get? (Row.key r) = some r := Table.get?_of_mem (hclaimed r hr)
    have hget' : (t.setAll results).get? (Row.key r') = some r' :=
      Table.get?_setAll (hkeys ▸ hnodup) hr' (hkey ▸ hget)
    rw [hkey] at hget'
    exact ⟨view r, view r', Option.map_eq_some_iff.mpr ⟨r, hget, rfl⟩,
      Option.map_eq_some_iff.mpr ⟨r', hget', rfl⟩, htaken⟩
  · have hget : (t.setAll results).get? k = t.get? k :=
      Table.get?_setAll_of_not_mem (hkeys ▸ hk)
    have hticket : (ofTable view (t.setAll results) (attempts ++ claimed.map Row.key)).ticket k =
        (t.get? k).map view := congrArg (Option.map view) hget
    rw [hticket]
    exact hx
  · have hnone : t.get? k = none := Option.map_eq_none_iff.mp hk
    have hnot : k ∉ results.map Row.key := by
      rw [hkeys]
      intro hmem
      obtain ⟨r, hr, rfl⟩ := List.mem_map.mp hmem
      exact Table.get?_eq_none.mp hnone r (hclaimed r hr) rfl
    have hget : (t.setAll results).get? k = t.get? k := Table.get?_setAll_of_not_mem hnot
    obtain ⟨r, hr, -⟩ := Option.map_eq_some_iff.mp hx
    rw [hget, hnone] at hr
    cases hr

end

end WezuBackend.Lib.Outbox
