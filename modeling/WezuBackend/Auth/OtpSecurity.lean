import WezuBackend.Auth.OtpService
import WezuBackend.Lib.Runs

/-!
# One-time passwords over whole runs

A history is the table together with the log of what the calls did.  What was issued is never
rewritten (`Stepped.issued`), so the codes of a half hour are among the rows that the next request
counts (`window_step`); and each row keeps track of its acceptance and its wrong guesses
(`Tracks`), so that neither can happen once too often.
-/

namespace WezuBackend.Auth.OtpSecurity

open Lib.Tables Lib.Runs Auth.OtpService

/-! ## Histories -/

/-- The rows and what the calls did so far. -/
structure History where
  otps : Table Otp
  log : List Event

/-- The history before the first call. -/
def begin (otps : Table Otp) : History := ⟨otps, []⟩

def step (h : History) (q : Request) : History :=
  ⟨(exec h.otps q).2, h.log ++ [(exec h.otps q).1]⟩

def created (log : List Event) : List Otp :=
  log.filterMap fun e => match e with
    | .created record => some record
    | _ => none

def accepts (k : ℕ) : Event → Bool
  | .accepted id _ _ => id = k
  | _ => false

def misses (k : ℕ) : Event → Bool
  | .guessed id _ _ => id = k
  | _ => false

/-- How often the record was accepted. -/
def acceptances (k : ℕ) (log : List Event) : ℕ := log.countP (accepts k)

/-- How many wrong guesses there were against the record. -/
def guesses (k : ℕ) (log : List Event) : ℕ := log.countP (misses k)

/-- At most one code of a target and purpose is active. -/
def OneActive (otps : Table Otp) : Prop :=
  ∀ target purpose, otps.Unique fun r =>
    r.target = target ∧ r.purpose = purpose ∧ r.isActive = true

/-- The records of a target and purpose whose time of creation has the property. -/
def createdWithin (target purpose : String) (P : ℤ → Prop) [DecidablePred P] (log : List Event) :
    List Otp :=
  (created log).filter fun r => r.target = target ∧ r.purpose = purpose ∧ P r.createdAt

@[simp] theorem created_concat (log : List Event) (e : Event) :
    created (log ++ [e]) = created log ++ created [e] := List.filterMap_append

@[simp] theorem acceptances_concat (k : ℕ) (log : List Event) (e : Event) :
    acceptances k (log ++ [e]) = acceptances k log + acceptances k [e] := List.countP_append

@[simp] theorem guesses_concat (k : ℕ) (log : List Event) (e : Event) :
    guesses k (log ++ [e]) = guesses k log + guesses k [e] := List.countP_append

/-! ## What was issued is never rewritten -/

/-- The part of a row that is set when it is created. -/
structure Issued where
  id : ℕ
  target : String
  purpose : String
  code : String
  expiresAt : ℤ
  createdAt : ℤ

def issued (r : Otp) : Issued := ⟨r.id, r.target, r.purpose, r.code, r.expiresAt, r.createdAt⟩

theorem map_issued_set {otps : Table Otp} {r y : Otp} (hr : r ∈ otps)
    (h : issued y = issued r) : (otps.set y).rows.map issued = otps.rows.map issued := by
  have hid : y.id = r.id := congrArg Issued.id h
  unfold Table.set
  rw [List.map_map]
  refine List.map_congr_left fun x hx => ?_
  dsimp only [Function.comp_apply]
  split_ifs with hk
  · have hxr : x = r := Table.eq_of_key hx hr (hk.trans hid)
    rw [h, hxr]
  · rfl

theorem map_issued_deactivate (otps : Table Otp) (target purpose : String) :
    (deactivate otps target purpose).rows.map issued = otps.rows.map issued := by
  unfold deactivate Table.update
  rw [List.map_map]
  refine List.map_congr_left fun x _ => ?_
  dsimp only [Function.comp_apply]
  split_ifs <;> rfl

variable {e : Event} {otps otps' : Table Otp}

/-- **Records are permanent**: a call adds what it created and rewrites nothing. -/
theorem Stepped.issued (h : Stepped otps e otps') :
    otps'.rows.map issued = otps.rows.map issued ++ (created [e]).map OtpSecurity.issued := by
  have hnothing : ∀ l : List Issued, l = l ++ ([] : List Otp).map OtpSecurity.issued := fun l =>
    (List.append_nil l).symm
  cases h with
  | refused => exact hnothing _
  | dropped => exact hnothing _
  | unmatched => exact hnothing _
  | created hcount hclock =>
    unfold Table.add Table.insert
    rw [List.map_append, map_issued_deactivate]
    rfl
  | @guessed r _ _ hr => exact (map_issued_set (y := failed r) hr rfl).trans (hnothing _)
  | @accepted r _ hr => exact (map_issued_set (y := used r) hr rfl).trans (hnothing _)

/-! ## At most three in half an hour -/

/-- How many rows were issued with the property. -/
def countIssued (p : Issued → Bool) (otps : Table Otp) : ℕ := (otps.rows.map issued).countP p

variable {h : History} {start : Table Otp}

theorem countP_created_le
    (hissued : h.otps.rows.map issued = start.rows.map issued ++ (created h.log).map issued)
    (p : Issued → Bool) : (created h.log).countP (p ∘ issued) ≤ countIssued p h.otps := by
  have hsum : countIssued p h.otps =
      (start.rows.map issued).countP p + ((created h.log).map issued).countP p := by
    rw [countIssued, hissued, List.countP_append]
  have hmap : ((created h.log).map issued).countP p = (created h.log).countP (p ∘ issued) :=
    List.countP_map
  omega

/-- A time span in which any two times are less than 30 minutes apart. -/
def Short (P : ℤ → Prop) : Prop := ∀ a b, P a → P b → a - b < 30 * minute

variable {P : ℤ → Prop}

/-- When a record of the span is asked for, every earlier record of the span is recent. -/
theorem createdWithin_le_recent
    (hissued : h.otps.rows.map issued = start.rows.map issued ++ (created h.log).map issued)
    [DecidablePred P] (hP : Short P) {counted createdAt : ℤ}
    (hclock : counted ≤ createdAt) (hnew : P createdAt) (target purpose : String) :
    (createdWithin target purpose P h.log).length ≤
      (recentOtps h.otps target purpose counted).length := by
  have hrows := countP_created_le hissued fun i =>
    i.target = target ∧ i.purpose = purpose ∧ P i.createdAt
  rw [countIssued, List.countP_map, List.countP_eq_length_filter] at hrows
  refine hrows.trans ?_
  unfold recentOtps Table.filter
  rw [List.length_insertionSort, ← List.countP_eq_length_filter]
  refine List.countP_mono_left fun x _ hx => ?_
  simp only [Function.comp_apply, decide_eq_true_eq] at hx ⊢
  obtain ⟨ht, hp, hPx⟩ := hx
  have hspan : createdAt - x.createdAt < 30 * minute := hP _ _ hnew hPx
  have hlate : counted - 30 * minute < x.createdAt := by omega
  exact ⟨ht, hp, hlate⟩

variable {target purpose : String}

/-- **The window**, one call: fewer than three recent rows leave room for one more record. -/
theorem window_step [DecidablePred P] (hP : Short P)
    (hissued : h.otps.rows.map issued = start.rows.map issued ++ (created h.log).map issued)
    {otps' : Table Otp} (hs : Stepped h.otps e otps')
    (hle : (createdWithin target purpose P h.log).length ≤ 3) :
    (createdWithin target purpose P (h.log ++ [e])).length ≤ 3 := by
  have hsplit : createdWithin target purpose P (h.log ++ [e]) =
      createdWithin target purpose P h.log ++ createdWithin target purpose P [e] := by
    simp [createdWithin]
  rw [hsplit, List.length_append]
  cases hs with
  | created hcount hclock =>
    rename_i target' code' purpose' expiresAt counted createdAt
    by_cases hin : target' = target ∧ purpose' = purpose ∧ P createdAt
    · obtain ⟨rfl, rfl, hnew⟩ := hin
      have hrecent := createdWithin_le_recent hissued hP hclock hnew target' purpose'
      have hone : (createdWithin target' purpose' P [Event.created (newOtp target' code' purpose'
          expiresAt createdAt (deactivate h.otps target' purpose').freshKey)]).length ≤ 1 :=
        List.length_filter_le _ _
      omega
    · have hnone : createdWithin target purpose P [Event.created (newOtp target' code' purpose'
          expiresAt createdAt (deactivate h.otps target' purpose').freshKey)] = [] := by
        unfold createdWithin created
        refine List.filter_eq_nil_iff.mpr fun x hx hprop => hin ?_
        rw [List.mem_singleton.mp hx] at hprop
        exact of_decide_eq_true hprop
      rw [hnone]
      exact hle
  | _ => exact hle

/-! ## One active code -/

variable {r : Otp}

theorem exists_mem_deactivate {otps : Table Otp} (hr : r ∈ otps)
    (target purpose : String) : ∃ r' ∈ deactivate otps target purpose, r'.id = r.id := by
  unfold deactivate
  refine ⟨_, Table.mem_update.mpr ⟨r, hr, rfl⟩, ?_⟩
  split_ifs <;> rfl

theorem active_of_mem_deactivate {otps : Table Otp} {x : Otp}
    (hx : x ∈ deactivate otps target purpose) (hactive : x.isActive = true) :
    x ∈ otps ∧ ¬ (x.target = target ∧ x.purpose = purpose) := by
  obtain ⟨r, hr, rfl⟩ := Table.mem_update.mp hx
  split_ifs at hactive ⊢ with hc
  · refine ⟨hr, ?_⟩
    rintro ⟨ht, hp⟩
    simp [ht, hp, hactive] at hc

theorem oneActive_set {otps : Table Otp} {r y : Otp} (hone : OneActive otps) (hr : r ∈ otps)
    (hissued : issued y = issued r) (hactive : y.isActive = true → r.isActive = true) :
    OneActive (otps.set y) := by
  have hid : y.id = r.id := congrArg Issued.id hissued
  have htarget : y.target = r.target := congrArg Issued.target hissued
  have hpurpose : y.purpose = r.purpose := congrArg Issued.purpose hissued
  -- an active row stands for an active row of the same id before
  have hback : ∀ x ∈ otps.set y, x.isActive = true → ∃ y ∈ otps, y.id = x.id ∧
      y.target = x.target ∧ y.purpose = x.purpose ∧ y.isActive = true := by
    intro x hx hxa
    rcases Table.mem_set.mp hx with ⟨hx, -⟩ | ⟨rfl, -⟩
    · exact ⟨x, hx, rfl, rfl, rfl, hxa⟩
    · exact ⟨r, hr, hid.symm, htarget.symm, hpurpose.symm, hactive hxa⟩
  rintro target purpose x hx y hy ⟨hxt, hxp, hxa⟩ ⟨hyt, hyp, hya⟩
  obtain ⟨x', hx', hxid, hxt', hxp', hxa'⟩ := hback x hx hxa
  obtain ⟨y', hy', hyid, hyt', hyp', hya'⟩ := hback y hy hya
  have hsame : x' = y' := hone target purpose x' hx' y' hy' ⟨hxt'.trans hxt, hxp'.trans hxp, hxa'⟩
    ⟨hyt'.trans hyt, hyp'.trans hyp, hya'⟩
  have hids : x.id = y.id := by rw [← hxid, ← hyid, hsame]
  exact Table.eq_of_key hx hy hids

theorem oneActive_step (hs : Stepped otps e otps') (hone : OneActive otps) : OneActive otps' := by
  cases hs with
  | created hcount hclock =>
    rename_i target code purpose expiresAt counted createdAt
    rintro target' purpose' x hx y hy ⟨hxt, hxp, hxa⟩ ⟨hyt, hyp, hya⟩
    rcases Table.mem_add.mp hx with hx | rfl <;> rcases Table.mem_add.mp hy with hy | rfl
    · obtain ⟨hx, -⟩ := active_of_mem_deactivate hx hxa
      obtain ⟨hy, -⟩ := active_of_mem_deactivate hy hya
      exact hone target' purpose' x hx y hy ⟨hxt, hxp, hxa⟩ ⟨hyt, hyp, hya⟩
    · obtain ⟨-, hother⟩ := active_of_mem_deactivate hx hxa
      exact absurd ⟨hxt.trans hyt.symm, hxp.trans hyp.symm⟩ hother
    · obtain ⟨-, hother⟩ := active_of_mem_deactivate hy hya
      exact absurd ⟨hyt.trans hxt.symm, hyp.trans hxp.symm⟩ hother
    · rfl
  | @guessed r code now hr =>
    refine oneActive_set (y := failed r) hone hr rfl fun hactive => ?_
    dsimp only [failed] at hactive
    split_ifs at hactive with hfive
    exact hactive
  | @accepted r now hr hactive =>
    exact oneActive_set (y := used r) hone hr rfl fun _ => hactive
  | _ => exact hone

/-! ## Acceptance and wrong guesses -/

/-- The row knows whether it was accepted, and counts the wrong guesses. -/
structure Tracks (log : List Event) (r : Otp) : Prop where
  once : acceptances r.id log ≤ if r.isUsed = true then 1 else 0
  counted : guesses r.id log ≤ r.attempts
  locked : 5 ≤ guesses r.id log → r.isActive = false

variable {code : String} {id : ℕ} {k : ℕ} {now : ℤ}

theorem accepts_other (h : id ≠ k) :
    acceptances k [.accepted id code now] = 0 := by
  simp [acceptances, accepts, h]

theorem misses_other (h : id ≠ k) :
    guesses k [.guessed id code now] = 0 := by
  simp [guesses, misses, h]

variable {log : List Event}

theorem Tracks.concat (h : Tracks log r)
    (hacc : acceptances r.id [e] = 0) (hmiss : guesses r.id [e] = 0) :
    Tracks (log ++ [e]) r where
  once := by
    have := h.once
    rw [acceptances_concat]
    omega
  counted := by
    have := h.counted
    rw [guesses_concat]
    omega
  locked := by
    rw [guesses_concat, hmiss]
    exact h.locked

theorem Tracks.deactivated (h : Tracks log r) :
    Tracks log { r with isActive := false } where
  once := h.once
  counted := h.counted
  locked := fun _ => rfl

/-- A wrong guess is counted, and the fifth switches the code off. -/
theorem Tracks.failed (h : Tracks log r) (code : String) (now : ℤ) :
    Tracks (log ++ [.guessed r.id code now]) (failed r) where
  once := by
    rw [acceptances_concat]
    exact h.once
  counted := by
    have hone : guesses r.id [.guessed r.id code now] = 1 := by simp [guesses, misses]
    have := h.counted
    dsimp only [OtpService.failed]
    rw [guesses_concat]
    omega
  locked := by
    have hone : guesses r.id [.guessed r.id code now] = 1 := by simp [guesses, misses]
    have hcounted := h.counted
    dsimp only [OtpService.failed]
    rw [guesses_concat, hone]
    intro hfive
    rw [if_pos (by omega)]

theorem Tracks.used (h : Tracks log r) (hunused : r.isUsed = false)
    (code : String) (now : ℤ) : Tracks (log ++ [.accepted r.id code now]) (used r) where
  once := by
    have hone : acceptances r.id [.accepted r.id code now] = 1 := by simp [acceptances, accepts]
    have hnever := h.once
    rw [hunused, if_neg Bool.false_ne_true] at hnever
    have hlimit : (if (OtpService.used r).isUsed = true then 1 else 0) = 1 := rfl
    have hid : (OtpService.used r).id = r.id := rfl
    rw [acceptances_concat, hlimit, hid]
    omega
  counted := by
    rw [guesses_concat]
    exact h.counted
  locked := fun _ => rfl

/-- What happened, happened to a row of the table. -/
def Known (otps : Table Otp) (log : List Event) : Prop :=
  ∀ k, (∀ r ∈ otps, r.id ≠ k) → acceptances k log = 0 ∧ guesses k log = 0

theorem tracks_step
    (hs : Stepped otps e otps') (hknown : Known otps log) (h : ∀ r ∈ otps, Tracks log r) :
    ∀ r ∈ otps', Tracks (log ++ [e]) r := by
  intro x hx
  cases hs with
  | created hcount hclock =>
    refine Tracks.concat ?_ rfl rfl
    rcases Table.mem_add.mp hx with hx | rfl
    · obtain ⟨r, hr, rfl⟩ := Table.mem_update.mp hx
      split_ifs
      · exact (h r hr).deactivated
      · exact h r hr
    · -- the new id is no row's, so nothing has happened to it yet
      rename_i target code purpose expiresAt counted createdAt
      have hnew : ∀ r ∈ otps, r.id ≠ (deactivate otps target purpose).freshKey := by
        intro r hr hid
        obtain ⟨r', hr', hid'⟩ := exists_mem_deactivate hr target purpose
        have hlt : r'.id < (deactivate otps target purpose).freshKey :=
          Table.key_lt_freshKey hr'
        omega
      obtain ⟨hacc, hmiss⟩ := hknown _ hnew
      refine ⟨?_, ?_, ?_⟩
      · exact hacc.trans_le (Nat.zero_le _)
      · exact hmiss.trans_le (Nat.zero_le _)
      · intro hfive
        have hzero : guesses (deactivate otps target purpose).freshKey log = 0 := hmiss
        dsimp only [newOtp] at hfive
        omega
  | @guessed r code now hr =>
    rcases Table.mem_set.mp hx with ⟨hx, hne⟩ | ⟨rfl, -⟩
    · exact (h x hx).concat rfl (misses_other hne.symm)
    · exact (h r hr).failed code now
  | @accepted r now hr hactive hunused =>
    rcases Table.mem_set.mp hx with ⟨hx, hne⟩ | ⟨rfl, -⟩
    · exact (h x hx).concat (accepts_other hne.symm) rfl
    · exact (h r hr).used hunused r.code now
  | _ => exact (h x hx).concat rfl rfl

/-- The ids of the rows stay, and those of the new rows come in. -/
theorem exists_id_of_stepped (hs : Stepped otps e otps')
    (hr : r ∈ otps) : ∃ r' ∈ otps', r'.id = r.id := by
  have hmem : issued r ∈ otps'.rows.map issued := by
    rw [Stepped.issued hs]
    exact List.mem_append_left _ (List.mem_map_of_mem hr)
  obtain ⟨r', hr', heq⟩ := List.mem_map.mp hmem
  exact ⟨r', hr', congrArg Issued.id heq⟩

theorem known_step
    (hs : Stepped otps e otps') (hknown : Known otps log) : Known otps' (log ++ [e]) := by
  intro k hk
  have hbefore : ∀ r ∈ otps, r.id ≠ k := by
    rintro r hr rfl
    obtain ⟨r', hr', hid⟩ := exists_id_of_stepped hs hr
    exact hk r' hr' hid
  obtain ⟨hacc, hmiss⟩ := hknown k hbefore
  rw [acceptances_concat, guesses_concat, hacc, hmiss]
  cases hs with
  | @guessed r code now hr => exact ⟨rfl, by rw [misses_other (hbefore r hr)]⟩
  | @accepted r now hr => exact ⟨by rw [accepts_other (hbefore r hr)], rfl⟩
  | _ => exact ⟨rfl, rfl⟩

/-- Every acceptance was by the record's own code, before it expired. -/
def Own (records : List Issued) (log : List Event) : Prop :=
  ∀ k code now, Event.accepted k code now ∈ log →
    ∃ i ∈ records, i.id = k ∧ i.code = code ∧ now < i.expiresAt

theorem own_step (hs : Stepped otps e otps') (hown : Own (otps.rows.map issued) log) :
    Own (otps'.rows.map issued) (log ++ [e]) := by
  rw [Stepped.issued hs]
  intro k code now hmem
  rcases List.mem_append.mp hmem with hmem | hmem
  · obtain ⟨i, hi, hprops⟩ := hown k code now hmem
    exact ⟨i, List.mem_append_left _ hi, hprops⟩
  · cases List.mem_singleton.mp hmem
    cases hs with
    | @accepted r _ hr _ _ hnow =>
      exact ⟨issued r, List.mem_append_left _ (List.mem_map_of_mem hr), rfl, rfl, hnow⟩

/-- No acceptance comes after five wrong guesses. -/
def NeverAfterFive (log : List Event) : Prop :=
  ∀ pre k code now post, log = pre ++ Event.accepted k code now :: post → guesses k pre < 5

theorem neverAfterFive_step
    (hs : Stepped otps e otps') (htracks : ∀ r ∈ otps, Tracks log r) (h : NeverAfterFive log) :
    NeverAfterFive (log ++ [e]) := by
  intro pre k code now post hlog
  rcases List.eq_nil_or_concat post with rfl | ⟨post', last, rfl⟩
  · obtain ⟨rfl, he⟩ := List.append_inj' hlog rfl
    cases List.head_eq_of_cons_eq he
    cases hs with
    | accepted hr hactive =>
      by_contra hfive
      have hoff := (htracks _ hr).locked (by omega)
      rw [hactive] at hoff
      cases hoff
  · rw [List.concat_eq_append, ← List.cons_append, ← List.append_assoc] at hlog
    exact h pre k code now post' (List.append_inj' hlog rfl).1

/-! ## Runs -/

/-- What holds of every history that began with the rows. -/
structure Kept (start : Table Otp) (h : History) : Prop where
  records : h.otps.rows.map issued = start.rows.map issued ++ (created h.log).map issued
  oneActive : OneActive h.otps
  known : Known h.otps h.log
  tracks : ∀ r ∈ h.otps, Tracks h.log r
  own : Own (h.otps.rows.map issued) h.log
  neverAfterFive : NeverAfterFive h.log
  windows : ∀ (target purpose : String) (P : ℤ → Prop) [DecidablePred P], Short P →
    (createdWithin target purpose P h.log).length ≤ 3

theorem kept_begin {otps : Table Otp} (hone : OneActive otps) : Kept otps (begin otps) where
  records := (List.append_nil _).symm
  oneActive := hone
  known := fun _ _ => ⟨rfl, rfl⟩
  tracks := fun _ _ => ⟨Nat.zero_le _, Nat.zero_le _, fun h => absurd h (Nat.not_succ_le_zero 4)⟩
  own := fun _ _ _ h => nomatch h
  neverAfterFive := fun pre _ _ _ _ h => by cases pre <;> cases h
  windows := fun _ _ _ _ _ => Nat.zero_le _

theorem kept_step (hkept : Kept start h) (q : Request) :
    Kept start (step h q) := by
  have hs := stepped h.otps q
  exact {
    records := by
      dsimp only [step]
      rw [Stepped.issued hs, hkept.records, created_concat, List.map_append, List.append_assoc]
    oneActive := oneActive_step hs hkept.oneActive
    known := known_step hs hkept.known
    tracks := tracks_step hs hkept.known hkept.tracks
    own := own_step hs hkept.own
    neverAfterFive := neverAfterFive_step hs hkept.tracks hkept.neverAfterFive
    windows := fun target purpose P _ hP =>
      window_step hP hkept.records hs (hkept.windows target purpose P hP) }

theorem kept_run {otps : Table Otp} (hone : OneActive otps) (qs : List Request) :
    Kept otps (run step (begin otps) qs) :=
  run_invariant (I := Kept otps) (fun _ q hkept => kept_step hkept q) (kept_begin hone) qs

theorem Kept.acceptances_le (hkept : Kept start h) (k : ℕ) :
    acceptances k h.log ≤ 1 := by
  by_cases hk : ∀ r ∈ h.otps, r.id ≠ k
  · rw [(hkept.known k hk).1]
    exact Nat.zero_le 1
  · push Not at hk
    obtain ⟨r, hr, rfl⟩ := hk
    have hlimit : (if r.isUsed = true then 1 else 0) ≤ 1 := by split_ifs <;> omega
    exact (hkept.tracks r hr).once.trans hlimit

/-- **One-time passwords are safe.**  In every run of requests and verifications from a table with
at most one active code each: no half hour sees more than three new codes of a target and purpose;
at most one of them is active; every record is accepted at most once, by its own code and before it
expires; and not after five wrong guesses. -/
theorem otp_security (otps : Table Otp) (hone : OneActive otps) (qs : List Request) :
    (∀ target purpose w,
      (createdWithin target purpose (fun t => w < t ∧ t ≤ w + 30 * minute)
        (run step (begin otps) qs).log).length ≤ 3 ∧
      (createdWithin target purpose (fun t => w ≤ t ∧ t < w + 30 * minute)
        (run step (begin otps) qs).log).length ≤ 3) ∧
    OneActive (run step (begin otps) qs).otps ∧
    (∀ k, acceptances k (run step (begin otps) qs).log ≤ 1) ∧
    ((otps.rows ++ created (run step (begin otps) qs).log).map Otp.id).Nodup ∧
    (∀ k code now, Event.accepted k code now ∈ (run step (begin otps) qs).log →
      ∃ r ∈ otps.rows ++ created (run step (begin otps) qs).log,
        r.id = k ∧ r.code = code ∧ now < r.expiresAt) ∧
    (∀ pre k code now post,
      (run step (begin otps) qs).log = pre ++ Event.accepted k code now :: post →
      guesses k pre < 5) := by
  have hkept := kept_run hone qs
  have hrecords : (run step (begin otps) qs).otps.rows.map issued =
      (otps.rows ++ created (run step (begin otps) qs).log).map issued := by
    rw [hkept.records, List.map_append]
  refine ⟨fun target purpose w => ⟨?_, ?_⟩, hkept.oneActive, hkept.acceptances_le, ?_, ?_,
    hkept.neverAfterFive⟩
  · refine hkept.windows target purpose _ fun a b ha hb => ?_
    omega
  · refine hkept.windows target purpose _ fun a b ha hb => ?_
    omega
  · have hids : (otps.rows ++ created (run step (begin otps) qs).log).map Otp.id =
        (run step (begin otps) qs).otps.rows.map Otp.id := by
      have hmap := congrArg (List.map Issued.id) hrecords
      simp only [List.map_map] at hmap
      exact hmap.symm
    rw [hids]
    exact (run step (begin otps) qs).otps.nodup
  · intro k code now hmem
    obtain ⟨i, hi, hprops⟩ := hkept.own k code now hmem
    rw [hrecords] at hi
    obtain ⟨r, hr, rfl⟩ := List.mem_map.mp hi
    exact ⟨r, hr, hprops⟩

/-- A code that is asked for, missed once and then entered. -/
def sampleRequests : List Request :=
  [.create "+919800000001" "482913" "login" 15 ⟨0, 0, 0, 0, by decide⟩ true false,
   .verify "+919800000001" "482931" "login" 40000000,
   .verify "+919800000001" "482913" "login" 50000000]

theorem otp_security_sample :
    acceptances 1 (run step (begin .empty) sampleRequests).log = 1 ∧
    acceptances 1 (run step (begin .empty) sampleRequests).log ≤ 1 :=
  ⟨by decide +kernel, (otp_security .empty (fun _ _ _ h => nomatch h) sampleRequests).2.2.1 1⟩

end WezuBackend.Auth.OtpSecurity
