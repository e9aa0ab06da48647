import Mathlib.Tactic.Common

/-!
# Database sessions

A session holds the state as of its last commit and the state its own statements see.  A program
`Tx ε σ α` runs inside a session and ends with a value or an exception; an exception keeps the
session as it stands, and it is the caller's end of the session that drops what was not committed
(`Tx.call`).

* evaluation rules: `bind_ok` and one equation for each primitive, by which a completed run is
  peeled apart;
* `ReadOnly x`: `x` never changes the session;
* `Tentative x`: `x` never commits;
* `Fixes f x`: besides, `x` leaves the part `f` of the store alone;
* `Spares p f x`: an `x` that raises does, unless the exception is a `p`;
* `Keeps I x`: `x` keeps the invariant `I` of the store, so a call of it does (`Keeps.call`);
* `Atomic x`: an `x` that raises has committed nothing.  A program that checks, writes and commits
  last is atomic (`atomic_bind`, `atomic_commit`), and a call of it that raises leaves the stored
  state alone (`call_error`).
-/

namespace WezuBackend.Lib.Atomicity

/-- A session on a store of type `σ`. -/
@[ext]
structure Session (σ : Type) where
  /-- the state as of the last commit -/
  committed : σ
  /-- the state the session's own statements see -/
  working : σ

/-- The session opened on a store. -/
def Session.fresh {σ : Type} (s : σ) : Session σ := ⟨s, s⟩

@[simp] theorem Session.committed_fresh {σ : Type} (s : σ) : (fresh s).committed = s := rfl

@[simp] theorem Session.working_fresh {σ : Type} (s : σ) : (fresh s).working = s := rfl

/-- A program run inside a session. -/
def Tx (ε σ α : Type) : Type := Session σ → Except ε α × Session σ

namespace Tx

variable {ε σ α β : Type}

instance : Monad (Tx ε σ) where
  pure a := fun s => (.ok a, s)
  bind x f := fun s =>
    match x s with
    | (.ok a, t) => f a t
    | (.error e, t) => (.error e, t)

/-- The state the session sees. -/
def look : Tx ε σ σ := fun s => (.ok s.working, s)

/-- A write to the working state. -/
def update (f : σ → σ) : Tx ε σ Unit := fun s => (.ok (), { s with working := f s.working })

def raise (e : ε) : Tx ε σ α := fun s => (.error e, s)

/-- Raise `e` unless `p` holds. -/
def ensure (p : Prop) [Decidable p] (e : ε) : Tx ε σ Unit := if p then pure () else raise e

/-- A computation that does not touch the session. -/
def lift (r : Except ε α) : Tx ε σ α := fun s => (r, s)

/-- The value of an option; raise `e` if there is none. -/
def demand (o : Option α) (e : ε) : Tx ε σ α :=
  match o with
  | some a => pure a
  | none => raise e

/-- Run `x`; an exception goes to the handler, which may raise again. -/
def handle (x : Tx ε σ α) (f : ε → Tx ε σ α) : Tx ε σ α := fun s =>
  match x s with
  | (.ok a, t) => (.ok a, t)
  | (.error e, t) => f e t

/-- Run `x` behind a savepoint: an exception in `p` takes back what `x` has written. -/
def savepoint (x : Tx ε σ Unit) (p : ε → Bool) : Tx ε σ Unit := fun s =>
  match x s with
  | (.ok _, t) => (.ok (), t)
  | (.error e, t) => if p e then (.ok (), { t with working := s.working }) else (.error e, t)

/-- Publish the working state. -/
def commit : Tx ε σ Unit := fun s => (.ok (), ⟨s.working, s.working⟩)

def rollback : Tx ε σ Unit := fun s => (.ok (), ⟨s.committed, s.committed⟩)

/-- A program on a part of a larger store. -/
def focus {τ : Type} (get : τ → σ) (put : σ → τ → τ) (x : Tx ε σ α) : Tx ε τ α := fun s =>
  ((x ⟨get s.committed, get s.working⟩).1,
    ⟨put (x ⟨get s.committed, get s.working⟩).2.committed s.committed,
      put (x ⟨get s.committed, get s.working⟩).2.working s.working⟩)

/-- One call: a session is opened on the store, the program runs, and the session is closed. -/
def call (x : Tx ε σ α) (s : σ) : Except ε α × σ :=
  ((x (.fresh s)).1, (x (.fresh s)).2.committed)

/-! ## Evaluation -/

theorem pure_eq (a : α) (s : Session σ) : (pure a : Tx ε σ α) s = (.ok a, s) := rfl

theorem bind_eq (x : Tx ε σ α) (f : α → Tx ε σ β) (s : Session σ) :
    (x >>= f) s = match x s with
      | (.ok a, t) => f a t
      | (.error e, t) => (.error e, t) := rfl

variable {a : α} {s t : Session σ} {x : Tx ε σ α}

theorem bind_of_ok {f : α → Tx ε σ β} (h : x s = (.ok a, t)) : (x >>= f) s = f a t := by
  rw [bind_eq, h]

variable {e : ε}

theorem bind_of_error {f : α → Tx ε σ β}
    (h : x s = (.error e, t)) : (x >>= f) s = (.error e, t) := by
  rw [bind_eq, h]

theorem seq_assoc {γ : Type} (x : Tx ε σ α) (f : α → Tx ε σ β) (g : β → Tx ε σ γ) :
    (x >>= f) >>= g = x >>= fun a => f a >>= g := by
  funext s
  rcases h : x s with ⟨e | a, t⟩
  · rw [bind_of_error (bind_of_error h), bind_of_error h]
  · rw [bind_of_ok h, bind_eq, bind_of_ok h]
    rfl

/-- **A completed sequence**: its first part completed, and so did the rest from there. -/
theorem bind_ok {f : α → Tx ε σ β} {b : β} :
    (x >>= f) s = (.ok b, t) ↔ ∃ a u, x s = (.ok a, u) ∧ f a u = (.ok b, t) := by
  constructor
  · intro h
    rw [bind_eq] at h
    split at h
    · next a u hx => exact ⟨a, u, hx, h⟩
    · cases h
  · rintro ⟨a, u, hx, hf⟩
    rw [bind_of_ok hx, hf]

/-- **A sequence that raised**: in its first part, or in the rest. -/
theorem bind_error {f : α → Tx ε σ β} : (x >>= f) s = (.error e, t) ↔
      x s = (.error e, t) ∨ ∃ a u, x s = (.ok a, u) ∧ f a u = (.error e, t) := by
  constructor
  · intro h
    rw [bind_eq] at h
    split at h
    · next a u hx => exact .inr ⟨a, u, hx, h⟩
    · next e' u hx =>
      obtain ⟨he, rfl⟩ := Prod.mk.inj h
      cases he
      exact .inl hx
  · rintro (hx | ⟨a, u, hx, hf⟩)
    · exact bind_of_error hx
    · rw [bind_of_ok hx, hf]

theorem handle_of_ok {f : ε → Tx ε σ α} (h : x s = (.ok a, t)) : handle x f s = (.ok a, t) := by
  unfold handle
  rw [h]

theorem handle_of_error {f : ε → Tx ε σ α} (h : x s = (.error e, t)) : handle x f s = f e t := by
  unfold handle
  rw [h]

variable {u : Unit}

theorem savepoint_of_ok {x : Tx ε σ Unit} {p : ε → Bool}
    (h : x s = (.ok u, t)) : savepoint x p s = (.ok (), t) := by
  unfold savepoint
  rw [h]

theorem savepoint_of_error {x : Tx ε σ Unit} {p : ε → Bool}
    (h : x s = (.error e, t)) : savepoint x p s =
      if p e then (.ok (), { t with working := s.working }) else (.error e, t) := by
  unfold savepoint
  rw [h]

variable {r : Except ε α}

theorem focus_eq {τ : Type} (get : τ → σ) (put : σ → τ → τ) {s : Session τ}
    {t : Session σ} (h : x ⟨get s.committed, get s.working⟩ = (r, t)) :
    focus get put x s = (r, ⟨put t.committed s.committed, put t.working s.working⟩) := by
  unfold focus
  rw [h]

theorem focus_ok {τ : Type} {get : τ → σ} {put : σ → τ → τ} {s t : Session τ}
    (h : focus get put x s = (.ok a, t)) : ∃ u, x ⟨get s.committed, get s.working⟩ = (.ok a, u) ∧
      t = ⟨put u.committed s.committed, put u.working s.working⟩ := by
  rcases hx : x ⟨get s.committed, get s.working⟩ with ⟨r, u⟩
  rw [focus_eq get put hx] at h
  obtain ⟨rfl, rfl⟩ := Prod.mk.inj h
  exact ⟨u, rfl, rfl⟩

@[simp] theorem pure_ok {a b : α} : (pure a : Tx ε σ α) s = (.ok b, t) ↔ a = b ∧ s = t := by
  simp [pure_eq]

@[simp] theorem pure_error : (pure a : Tx ε σ α) s = (.error e, t) ↔ False := by
  simp [pure_eq]

@[simp] theorem look_ok {d : σ} : (look : Tx ε σ σ) s = (.ok d, t) ↔ s.working = d ∧ s = t := by
  simp [look]

@[simp] theorem update_ok {f : σ → σ} :
    (update f : Tx ε σ Unit) s = (.ok u, t) ↔ { s with working := f s.working } = t := by
  simp [update]

@[simp] theorem raise_ok : (raise e : Tx ε σ α) s = (.ok a, t) ↔ False := by
  simp [raise]

@[simp] theorem raise_error {e e' : ε} :
    (raise e : Tx ε σ α) s = (.error e', t) ↔ e = e' ∧ s = t := by
  simp [raise]

@[simp] theorem ensure_ok {p : Prop} [Decidable p] :
    (ensure p e : Tx ε σ Unit) s = (.ok u, t) ↔ p ∧ s = t := by
  unfold ensure
  split_ifs with h <;> simp [h]

@[simp] theorem ensure_error {p : Prop} [Decidable p] {e e' : ε} :
    (ensure p e : Tx ε σ Unit) s = (.error e', t) ↔ ¬ p ∧ e = e' ∧ s = t := by
  unfold ensure
  split_ifs with h <;> simp [h]

@[simp] theorem lift_ok : (lift r : Tx ε σ α) s = (.ok a, t) ↔ r = .ok a ∧ s = t := by
  simp [lift]

variable {o : Option α}

@[simp] theorem demand_ok : (demand o e : Tx ε σ α) s = (.ok a, t) ↔ o = some a ∧ s = t := by
  cases o <;> simp [demand]

@[simp] theorem commit_ok :
    (commit : Tx ε σ Unit) s = (.ok u, t) ↔ ⟨s.working, s.working⟩ = t := by
  simp [commit]

/-! ## Evaluation from the front -/

theorem look_bind (f : σ → Tx ε σ β) (s : Session σ) :
    ((look : Tx ε σ σ) >>= f) s = f s.working s := rfl

theorem update_bind (g : σ → σ) (f : Unit → Tx ε σ β) (s : Session σ) :
    ((update g : Tx ε σ Unit) >>= f) s = f () { s with working := g s.working } := rfl

theorem ensure_bind {p : Prop} [Decidable p] (h : p) (e : ε) (f : Unit → Tx ε σ β)
    (s : Session σ) : ((ensure p e : Tx ε σ Unit) >>= f) s = f () s := by
  rw [ensure, if_pos h]
  rfl

theorem ensure_bind_not {p : Prop} [Decidable p] (h : ¬ p) (e : ε) (f : Unit → Tx ε σ β)
    (s : Session σ) : ((ensure p e : Tx ε σ Unit) >>= f) s = (.error e, s) := by
  rw [ensure, if_neg h]
  rfl

theorem demand_bind (h : o = some a) (e : ε) (f : α → Tx ε σ β)
    (s : Session σ) : ((demand o e : Tx ε σ α) >>= f) s = f a s := by
  rw [h]
  rfl

theorem demand_bind_none (h : o = none) (e : ε) (f : α → Tx ε σ β)
    (s : Session σ) : ((demand o e : Tx ε σ α) >>= f) s = (.error e, s) := by
  rw [h]
  rfl

theorem lift_bind (h : r = .ok a) (f : α → Tx ε σ β) (s : Session σ) :
    ((lift r : Tx ε σ α) >>= f) s = f a s := by
  rw [h]
  rfl

theorem lift_bind_error (h : r = .error e) (f : α → Tx ε σ β)
    (s : Session σ) : ((lift r : Tx ε σ α) >>= f) s = (.error e, s) := by
  rw [h]
  rfl

/-! ## Programs that leave the session alone -/

/-- `x` never changes the session. -/
def ReadOnly (x : Tx ε σ α) : Prop := ∀ s, (x s).2 = s

theorem readOnly_pure (a : α) : ReadOnly (pure a : Tx ε σ α) := fun _ => rfl

theorem readOnly_look : ReadOnly (look : Tx ε σ σ) := fun _ => rfl

theorem readOnly_raise (e : ε) : ReadOnly (raise e : Tx ε σ α) := fun _ => rfl

theorem readOnly_lift (r : Except ε α) : ReadOnly (lift r : Tx ε σ α) := fun _ => rfl

theorem readOnly_ensure (p : Prop) [Decidable p] (e : ε) :
    ReadOnly (ensure p e : Tx ε σ Unit) := by
  unfold ensure
  split_ifs
  · exact readOnly_pure ()
  · exact readOnly_raise e

theorem readOnly_demand (o : Option α) (e : ε) : ReadOnly (demand o e : Tx ε σ α) := by
  cases o with
  | none => exact readOnly_raise e
  | some a => exact readOnly_pure a

theorem ReadOnly.eq (h : ReadOnly x) (hx : x s = (r, t)) : t = s := by
  have := h s
  rw [hx] at this
  exact this

theorem readOnly_focus {τ : Type} {get : τ → σ} {put : σ → τ → τ} (hput : ∀ s, put (get s) s = s)
    (hx : ReadOnly x) : ReadOnly (focus get put x) := by
  intro s
  rcases h : x ⟨get s.committed, get s.working⟩ with ⟨r, u⟩
  obtain rfl := hx.eq h
  rw [focus_eq get put h]
  dsimp only
  rw [hput, hput]

theorem ReadOnly.bind {f : α → Tx ε σ β} (hx : ReadOnly x)
    (hf : ∀ a, ReadOnly (f a)) : ReadOnly (x >>= f) := by
  intro s
  rw [bind_eq]
  rcases h : x s with ⟨e | a, t⟩
  · exact hx.eq h
  · rw [hf a t, hx.eq h]

/-- A sequence that starts with a look raised there, or in the rest. -/
theorem ReadOnly.bind_error (hx : ReadOnly x) {f : α → Tx ε σ β}
    (h : (x >>= f) s = (.error e, t)) :
    t = s ∨ ∃ a, x s = (.ok a, s) ∧ f a s = (.error e, t) := by
  rcases Tx.bind_error.mp h with h | ⟨a, u, h, h'⟩
  · exact .inl (hx.eq h)
  · obtain rfl := hx.eq h
    exact .inr ⟨a, h, h'⟩

/-! ## Programs that do not commit, and programs that commit last -/

/-- `x` never commits. -/
def Tentative (x : Tx ε σ α) : Prop := ∀ s, (x s).2.committed = s.committed

/-- An `x` that raises has committed nothing. -/
def Atomic (x : Tx ε σ α) : Prop := ∀ s e t, x s = (.error e, t) → t.committed = s.committed

theorem ReadOnly.tentative (h : ReadOnly x) : Tentative x := fun s => by rw [h s]

theorem tentative_update (f : σ → σ) : Tentative (update f : Tx ε σ Unit) := fun _ => rfl

theorem Tentative.eq (h : Tentative x) (hx : x s = (r, t)) : t.committed = s.committed := by
  have := h s
  rw [hx] at this
  exact this

theorem Tentative.bind {f : α → Tx ε σ β} (hx : Tentative x)
    (hf : ∀ a, Tentative (f a)) : Tentative (x >>= f) := by
  intro s
  rw [bind_eq]
  rcases h : x s with ⟨e | a, t⟩
  · exact hx.eq h
  · rw [hf a t, hx.eq h]

theorem tentative_foldlM {δ : Type} {f : β → δ → Tx ε σ β} (h : ∀ b d, Tentative (f b d))
    (l : List δ) (b : β) : Tentative (l.foldlM f b) := by
  induction l generalizing b with
  | nil => exact (readOnly_pure b).tentative
  | cons d l ih =>
    rw [List.foldlM_cons]
    exact (h b d).bind ih

theorem tentative_focus {τ : Type} {get : τ → σ} {put : σ → τ → τ} (hput : ∀ s, put (get s) s = s)
    (hx : Tentative x) : Tentative (focus get put x) := by
  intro s
  have hcommitted := hx ⟨get s.committed, get s.working⟩
  unfold focus
  dsimp only at hcommitted ⊢
  rw [hcommitted, hput]

theorem Tentative.atomic (h : Tentative x) : Atomic x := fun _ _ _ hx => h.eq hx

theorem atomic_bind {f : α → Tx ε σ β} (hx : Tentative x)
    (hf : ∀ a, Atomic (f a)) : Atomic (x >>= f) := by
  intro s e t h
  rcases bind_error.mp h with h | ⟨a, u, h, h'⟩
  · exact hx.eq h
  · rw [hf a u e t h', hx.eq h]

theorem atomic_commit (a : α) : Atomic ((commit : Tx ε σ Unit) >>= fun _ => pure a) := by
  intro s e t h
  rcases bind_error.mp h with h | ⟨u, s', h, h'⟩
  · cases h
  · cases h'

/-! ## Programs that leave a part of the store alone -/

section Parts

variable {γ δ : Type} {f : σ → γ}

/-- `x` never commits, and leaves the part `f` of what it sees alone. -/
def Fixes (f : σ → γ) (x : Tx ε σ α) : Prop :=
  ∀ s, (x s).2.committed = s.committed ∧ f (x s).2.working = f s.working

theorem Fixes.eq (h : Fixes f x)
    (hx : x s = (r, t)) : t.committed = s.committed ∧ f t.working = f s.working := by
  have := h s
  rw [hx] at this
  exact this

theorem Fixes.tentative (h : Fixes f x) : Tentative x := fun s => (h s).1

theorem Fixes.of {g : σ → δ} (h : Fixes f x)
    (hg : ∀ s t, f s = f t → g s = g t) : Fixes g x := fun s => ⟨(h s).1, hg _ _ (h s).2⟩

theorem ReadOnly.fixes (h : ReadOnly x) : Fixes f x := fun s => by
  rw [h s]
  exact ⟨rfl, rfl⟩

theorem fixes_update {g : σ → σ} (h : ∀ s, f (g s) = f s) : Fixes f (update g : Tx ε σ Unit) :=
  fun s => ⟨rfl, h s.working⟩

theorem Fixes.bind {y : α → Tx ε σ β} (hx : Fixes f x) (hy : ∀ a, Fixes f (y a)) :
    Fixes f (x >>= y) := by
  intro s
  rw [bind_eq]
  rcases h : x s with ⟨e | a, t⟩
  · exact hx.eq h
  · obtain ⟨hcommitted, hpart⟩ := hx.eq h
    obtain ⟨hcommitted', hpart'⟩ := hy a t
    exact ⟨hcommitted'.trans hcommitted, hpart'.trans hpart⟩

theorem Fixes.ite {p : Prop} [Decidable p] {x y : Tx ε σ α} (hx : Fixes f x) (hy : Fixes f y) :
    Fixes f (if p then x else y) := by
  split_ifs
  · exact hx
  · exact hy

theorem Fixes.savepoint {x : Tx ε σ Unit} (h : Fixes f x) (p : ε → Bool) :
    Fixes f (savepoint x p) := by
  intro s
  rcases hx : x s with ⟨e | a, t⟩
  · rw [savepoint_of_error hx]
    split_ifs
    · exact ⟨(h.eq hx).1, rfl⟩
    · exact h.eq hx
  · rw [savepoint_of_ok hx]
    exact h.eq hx

theorem fixes_forM {x : δ → Tx ε σ PUnit} (h : ∀ d, Fixes f (x d)) (l : List δ) :
    Fixes f (l.forM x) := by
  induction l with
  | nil => exact (readOnly_pure ()).fixes
  | cons d l ih => exact (h d).bind fun _ => ih

/-- A program on a part of the store leaves the other parts alone. -/
theorem Tentative.fixes_focus {τ : Type} {get : τ → σ} {put : σ → τ → τ} {g : τ → γ}
    (hx : Tentative x) (hput : ∀ t, put (get t) t = t)
    (hg : ∀ s t, g (put s t) = g t) : Fixes g (focus get put x) := by
  refine fun s => ⟨?_, hg _ _⟩
  have hsame := hx ⟨get s.committed, get s.working⟩
  unfold focus
  dsimp only at hsame ⊢
  rw [hsame, hput]

/-- An `x` that raises has committed nothing, and unless the exception is a `p` it has left the part
`f` of the store alone. -/
def Spares (p : ε → Prop) (f : σ → γ) (x : Tx ε σ α) : Prop :=
  ∀ s e t, x s = (.error e, t) →
    t.committed = s.committed ∧ (¬ p e → f t.working = f s.working)

theorem spares_bind {p : ε → Prop} {y : α → Tx ε σ β} (hx : Fixes f x)
    (hy : ∀ a, Spares p f (y a)) : Spares p f (x >>= y) := by
  intro s e t h
  rcases bind_error.mp h with h | ⟨a, u, h, h'⟩
  · exact ⟨(hx.eq h).1, fun _ => (hx.eq h).2⟩
  · obtain ⟨hcommitted, hpart⟩ := hx.eq h
    obtain ⟨hcommitted', hpart'⟩ := hy a u e t h'
    exact ⟨hcommitted'.trans hcommitted, fun he => (hpart' he).trans hpart⟩

end Parts

/-! ## Invariants of sessions -/

/-- `x` keeps `I`: in what is committed whenever it stops, and in what it sees when it returns. -/
def Keeps (I : σ → Prop) (x : Tx ε σ α) : Prop :=
  ∀ s, I s.committed → I s.working →
    I (x s).2.committed ∧ ∀ a t, x s = (.ok a, t) → I t.working

variable {I : σ → Prop}

/-- A program that never commits keeps what its completed runs keep. -/
theorem Tentative.keeps (hx : Tentative x)
    (h : ∀ s a t, x s = (.ok a, t) → I s.working → I t.working) : Keeps I x := by
  intro s hc hw
  refine ⟨?_, fun a t hr => h s a t hr hw⟩
  rw [hx s]
  exact hc

theorem ReadOnly.keeps (hx : ReadOnly x) : Keeps I x :=
  hx.tentative.keeps fun _ _ _ hr hw => by rw [hx.eq hr]; exact hw

theorem Keeps.bind {f : α → Tx ε σ β} (hx : Keeps I x) (hf : ∀ a, Keeps I (f a)) :
    Keeps I (x >>= f) := by
  intro s hc hw
  obtain ⟨hcommitted, hworking⟩ := hx s hc hw
  rcases h : x s with ⟨e | a, t⟩
  · rw [bind_of_error h]
    rw [h] at hcommitted
    refine ⟨hcommitted, fun b u hr => ?_⟩
    cases hr
  · rw [bind_of_ok h]
    rw [h] at hcommitted
    exact hf a t hcommitted (hworking a t h)

theorem keeps_commit : Keeps I (commit : Tx ε σ Unit) := by
  intro s _ hw
  refine ⟨hw, fun a t hr => ?_⟩
  rw [← commit_ok.mp hr]
  exact hw

/-- A handler that starts with a rollback is back at what was committed. -/
theorem Keeps.handle_rollback {f : ε → Tx ε σ α} (hx : Keeps I x) (hf : ∀ e, Keeps I (f e)) :
    Keeps I (handle x fun e => (rollback : Tx ε σ Unit) >>= fun _ => f e) := by
  intro s hc hw
  obtain ⟨hcommitted, hworking⟩ := hx s hc hw
  rcases h : x s with ⟨e | a, t⟩
  · rw [handle_of_error h]
    rw [h] at hcommitted
    exact hf e ⟨t.committed, t.committed⟩ hcommitted hcommitted
  · rw [handle_of_ok h]
    rw [h] at hcommitted
    exact ⟨hcommitted, fun b u hr => by cases hr; exact hworking a t h⟩

theorem Keeps.call (hx : Keeps I x) {s : σ} (h : I s) : I (x.call s).2 :=
  (hx (.fresh s) h h).1

/-! ## Invariants of both sides of a session -/

/-- `x` keeps `I` in what is committed and in what it sees, whether it returns or raises. -/
def Throughout (I : σ → Prop) (x : Tx ε σ α) : Prop :=
  ∀ s, I s.committed → I s.working → I (x s).2.committed ∧ I (x s).2.working

theorem Throughout.keeps (h : Throughout I x) : Keeps I x := by
  intro s hc hw
  obtain ⟨hcommitted, hworking⟩ := h s hc hw
  refine ⟨hcommitted, fun a t hr => ?_⟩
  rwa [hr] at hworking

theorem ReadOnly.throughout (hx : ReadOnly x) : Throughout I x := by
  intro s hc hw
  rw [hx s]
  exact ⟨hc, hw⟩

theorem throughout_update {g : σ → σ} (h : ∀ s, I s → I (g s)) :
    Throughout I (update g : Tx ε σ Unit) := fun s hc hw => ⟨hc, h s.working hw⟩

theorem throughout_commit : Throughout I (commit : Tx ε σ Unit) := fun _ _ hw => ⟨hw, hw⟩

theorem throughout_rollback : Throughout I (rollback : Tx ε σ Unit) := fun _ hc _ => ⟨hc, hc⟩

theorem Throughout.bind {f : α → Tx ε σ β} (hx : Throughout I x)
    (hf : ∀ a, Throughout I (f a)) : Throughout I (x >>= f) := by
  intro s hc hw
  have hxs := hx s hc hw
  rcases h : x s with ⟨e | a, t⟩
  · rw [bind_of_error h]
    rwa [h] at hxs
  · rw [bind_of_ok h]
    rw [h] at hxs
    exact hf a t hxs.1 hxs.2

theorem Throughout.handle {f : ε → Tx ε σ α} (hx : Throughout I x)
    (hf : ∀ e, Throughout I (f e)) : Throughout I (handle x f) := by
  intro s hc hw
  have hxs := hx s hc hw
  rcases h : x s with ⟨e | a, t⟩
  · rw [handle_of_error h]
    rw [h] at hxs
    exact hf e t hxs.1 hxs.2
  · rw [handle_of_ok h]
    rwa [h] at hxs

theorem throughout_look_bind {f : σ → Tx ε σ α} (h : ∀ s, I s → Throughout I (f s)) :
    Throughout I (look >>= f) := fun s hc hw => by
  rw [look_bind]
  exact h s.working hw s hc hw

theorem throughout_demand_bind {o : Option β} {f : β → Tx ε σ α}
    (h : ∀ b, o = some b → Throughout I (f b)) : Throughout I (demand o e >>= f) := by
  rcases o with _ | b
  · intro s hc hw
    rw [demand_bind_none rfl]
    exact ⟨hc, hw⟩
  · exact h b rfl

theorem throughout_ensure_bind {p : Prop} [Decidable p] {f : Unit → Tx ε σ α}
    (h : p → Throughout I (f ())) : Throughout I (ensure p e >>= f) := by
  intro s hc hw
  by_cases hp : p
  · rw [ensure_bind hp]
    exact h hp s hc hw
  · rw [ensure_bind_not hp]
    exact ⟨hc, hw⟩

theorem throughout_forM_mem {δ : Type} {x : δ → Tx ε σ PUnit} (l : List δ)
    (h : ∀ d ∈ l, Throughout I (x d)) : Throughout I (l.forM x) := by
  induction l with
  | nil => exact (readOnly_pure _).throughout
  | cons d l ih =>
    exact (h d List.mem_cons_self).bind fun _ => ih fun d hd => h d (List.mem_cons_of_mem _ hd)

theorem throughout_forM {δ : Type} {x : δ → Tx ε σ PUnit} (h : ∀ d, Throughout I (x d))
    (l : List δ) : Throughout I (l.forM x) := throughout_forM_mem l fun d _ => h d

/-- What a program on a part of the store does keeps what any change of that part keeps. -/
theorem throughout_focus {τ : Type} {get : τ → σ} {put : σ → τ → τ} {J : τ → Prop}
    (h : ∀ s t, J t → J (put s t)) (x : Tx ε σ α) : Throughout J (focus get put x) :=
  fun _ hc hw => ⟨h _ _ hc, h _ _ hw⟩

theorem Throughout.call (hx : Throughout I x) {s : σ} (h : I s) : I (x.call s).2 :=
  (hx (.fresh s) h h).1

/-! ## Calls -/

theorem call_eq {s : σ} {t : Session σ}
    (h : x (.fresh s) = (r, t)) : x.call s = (r, t.committed) := by
  unfold call
  rw [h]

/-- **A call that raises** leaves the store as it was. -/
theorem call_error (hx : Atomic x) {s s' : σ}
    (h : x.call s = (.error e, s')) : s' = s := by
  unfold call at h
  rcases hr : x (.fresh s) with ⟨r, t⟩
  rw [hr] at h
  obtain ⟨rfl, rfl⟩ := Prod.mk.inj h
  exact hx _ _ _ hr

theorem call_ok {s s' : σ} (h : x.call s = (.ok a, s')) :
    ∃ t : Session σ, x (.fresh s) = (.ok a, t) ∧ t.committed = s' := by
  unfold call at h
  rcases hr : x (.fresh s) with ⟨r, t⟩
  rw [hr] at h
  obtain ⟨rfl, rfl⟩ := Prod.mk.inj h
  exact ⟨t, rfl, rfl⟩

theorem result_ok {s : σ} (h : (x.call s).1 = .ok a) :
    ∃ t : Session σ, x (.fresh s) = (.ok a, t) := by
  obtain ⟨t, hrun, -⟩ := call_ok (Prod.ext h rfl : x.call s = (.ok a, (x.call s).2))
  exact ⟨t, hrun⟩

/-- `x`, then the commit. -/
def thenCommit (x : Tx ε σ α) : Tx ε σ α := x >>= fun a => commit >>= fun _ => pure a

theorem thenCommit_of_ok (h : x s = (.ok a, t)) :
    thenCommit x s = (.ok a, ⟨t.working, t.working⟩) := bind_of_ok h

/-- **A call that commits last**: it has raised and left the store alone, or stored what it has
written. -/
theorem call_thenCommit (hx : Atomic x) (s : σ) : (∃ e, (thenCommit x).call s = (.error e, s)) ∨
      ∃ a t, x (.fresh s) = (.ok a, t) ∧ (thenCommit x).call s = (.ok a, t.working) := by
  rcases h : x (.fresh s) with ⟨e | a, t⟩
  · have hcommitted : t.committed = s := hx _ e t h
    refine .inl ⟨e, ?_⟩
    rw [thenCommit, call_eq (bind_of_error h), hcommitted]
  · exact .inr ⟨a, t, rfl, call_eq (thenCommit_of_ok h)⟩

/-! ## Programs that write nothing unless they raise -/

/-- `x` commits nothing, and has written nothing if it returns. -/
def Quiet (x : Tx ε σ α) : Prop :=
  ∀ s, (x s).2.committed = s.committed ∧ ∀ a t, x s = (.ok a, t) → t = s

theorem ReadOnly.quiet (h : ReadOnly x) : Quiet x :=
  fun s => ⟨h.tentative s, fun _ _ hx => h.eq hx⟩

theorem Quiet.bind {f : α → Tx ε σ β} (hx : Quiet x) (hf : ∀ a, Quiet (f a)) :
    Quiet (x >>= f) := by
  intro s
  obtain ⟨hcommitted, hsame⟩ := hx s
  rcases h : x s with ⟨e | a, t⟩
  · rw [bind_of_error h]
    rw [h] at hcommitted
    refine ⟨hcommitted, fun b u hb => ?_⟩
    cases hb
  · obtain rfl := hsame a t h
    rw [bind_of_ok h]
    exact hf a t

theorem quiet_forM {δ : Type} {f : δ → Tx ε σ PUnit} (h : ∀ d, Quiet (f d)) (l : List δ) :
    Quiet (l.forM f) := by
  induction l with
  | nil => exact (readOnly_pure _).quiet
  | cons d l ih => exact (h d).bind fun _ => ih

theorem quiet_foldlM {κ δ : Type} {f : κ → δ → Tx ε σ κ} (h : ∀ k d, Quiet (f k d)) (k : κ)
    (l : List δ) : Quiet (l.foldlM f k) := by
  induction l generalizing k with
  | nil => exact (readOnly_pure _).quiet
  | cons d l ih =>
    rw [List.foldlM_cons]
    exact (h k d).bind ih

theorem Tentative.quiet_raise (hx : Tentative x) (e : ε) :
    Quiet (x >>= fun _ => (raise e : Tx ε σ β)) := by
  intro s
  refine ⟨(hx.bind fun _ => (readOnly_raise e).tentative) s, fun b t h => ?_⟩
  obtain ⟨a, u, -, hraise⟩ := bind_ok.mp h
  cases hraise

theorem Quiet.call_bind {f : α → Tx ε σ β} (hx : Quiet x) {s : σ}
    (hf : ∀ a, ((f a).call s).2 = s) : ((x >>= f).call s).2 = s := by
  obtain ⟨hcommitted, hsame⟩ := hx (.fresh s)
  rcases h : x (.fresh s) with ⟨e | a, t⟩
  · rw [h] at hcommitted
    rw [call_eq (bind_of_error h)]
    exact hcommitted
  · obtain rfl := hsame a t h
    have hcall := hf a
    unfold call at hcall ⊢
    rw [bind_of_ok h]
    exact hcall

end Tx

end WezuBackend.Lib.Atomicity
