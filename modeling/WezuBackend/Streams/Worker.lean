import WezuBackend.Lib.Runs
import WezuBackend.Streams.Telematics

/-!
# The stream worker

`_run_stream_worker`: it reads what the group has not been given yet, hands it to `process_fn` or to
`process_batch_fn`, acknowledges what was processed, and republishes what failed, with its next
attempt.

An entry that was read is never read again.  So a failing publication or acknowledgement strands it,
and an attempt that is no number ends the loop with the messages of the iteration still pending
(`message_stranded`).  `Done` says what should become of an entry; in a run without such failures
every entry that was read is done (`nothing_stranded`).
-/

namespace WezuBackend.Streams.Worker

open Core.Base Core.Text Streams.Events Streams.Telematics Lib.Runs

/-! ## The loop -/

structure Config where
  streamName : String
  batchSize : ℤ
  maxRetries : ℤ

/-- What the handler of a mode does. -/
inductive Work where
  /-- `process_fn` returns, or raises an error with a text -/
  | each (outcome : StreamMessage → Option String)
  | batch (report : List StreamMessage → Except Exc Report)

structure Iteration where
  work : Work
  now : String := ""
  /-- `xreadgroup` answers -/
  reads : Bool := true
  answers : StreamMessage → Answers := fun _ => {}
  /-- the message before which the stop event is found to be set -/
  stopBefore : Option ℕ := none

/-- The handler has returned, and the message is acknowledged. -/
def processed (answers : StreamMessage → Answers) (m : StreamMessage) (s : StreamState) :
    StreamState :=
  ack (answers m).acked m.messageId { s with handled := m.messageId :: s.handled }

section

variable [JsonText] (config : Config)

def handleOne (it : Iteration) (outcome : StreamMessage → Option String) (m : StreamMessage)
    (s : StreamState) : Except Exc Unit × StreamState :=
  match deserializeEvent m.fields with
  | .error e => (.error e, s)
  | .ok _ =>
    match outcome m with
    | none => (.ok (), processed it.answers m s)
    | some errorText => moveToRetryOrDlq config.maxRetries it.now (it.answers m) m errorText s

def handleEach (it : Iteration) (outcome : StreamMessage → Option String) :
    List StreamMessage → StreamState → Except Exc Unit × StreamState
  | [], s => (.ok (), s)
  | m :: ms, s =>
    if it.stopBefore = some m.messageId then (.ok (), s)
    else
      match handleOne config it outcome m s with
      | (.error e, s) => (.error e, s)
      | (.ok (), s) => handleEach it outcome ms s

def moveFailed (it : Iteration) :
    List (StreamMessage × String) → StreamState → Except Exc Unit × StreamState
  | [], s => (.ok (), s)
  | (m, errorText) :: failed, s =>
    match deserializeEvent m.fields with
    | .error e => (.error e, s)
    | .ok _ =>
      match moveToRetryOrDlq config.maxRetries it.now (it.answers m) m errorText s with
      | (.error e, s) => (.error e, s)
      | (.ok (), s) => moveFailed it failed s

/-- One turn of the loop. -/
def iterate (it : Iteration) (s : StreamState) : Except Exc Unit × StreamState :=
  if it.reads then
    let (messages, s) := readGroup config.streamName (max 1 config.batchSize).toNat s
    match it.work with
    | .each outcome => handleEach config it outcome messages s
    | .batch report =>
      match report messages with
      | .error e => (.error e, s)
      | .ok report =>
        moveFailed config it report.failed
          (report.successful.foldl (fun s m => processed it.answers m s) s)
  else (.ok (), s)

structure World where
  streams : StreamState := {}
  /-- the exception that has ended the loop -/
  terminated : Option Exc := none

inductive Step where
  /-- somebody publishes to the stream -/
  | publish (fields : Fields)
  | iteration (it : Iteration)

def workerStep (w : World) : Step → World
  | .publish fields => { w with streams := xadd fields w.streams }
  | .iteration it =>
    if w.terminated = none then
      match iterate config it w.streams with
      | (.error e, s) => ⟨s, some e⟩
      | (.ok (), s) => ⟨s, none⟩
    else w

end

/-! ## What becomes of an entry -/

/-- The entry was republished with its next attempt. -/
def Republished (s : StreamState) (i : ℕ) : Prop :=
  ∃ entry ∈ s.entries ++ s.dlq, entry.origin = some i ∧ ∃ entry₀ n, s.entries[i]? = some entry₀ ∧
    attemptOf entry₀.fields = .ok n ∧ attemptOf entry.fields = .ok (n + 1)

/-- **The entry is done**: it is acknowledged after it was processed, or it was republished. -/
def Done (s : StreamState) (i : ℕ) : Prop := (i ∈ s.handled ∧ i ∉ s.pending) ∨ Republished s i

/-- What follows after a state, until the next read. -/
structure Extends (s s' : StreamState) : Prop where
  entries : s.entries <+: s'.entries
  dlq : s.dlq <+: s'.dlq
  handled : ∀ i ∈ s.handled, i ∈ s'.handled
  pending : ∀ i ∈ s'.pending, i ∈ s.pending
  delivered : s'.delivered = s.delivered

theorem Extends.refl (s : StreamState) : Extends s s :=
  ⟨List.prefix_rfl, List.prefix_rfl, fun _ h => h, fun _ h => h, rfl⟩

theorem Extends.trans {s t u : StreamState} (h : Extends s t) (h' : Extends t u) : Extends s u :=
  ⟨h.entries.trans h'.entries, h.dlq.trans h'.dlq, fun i hi => h'.handled i (h.handled i hi),
    fun i hi => h.pending i (h'.pending i hi), h'.delivered.trans h.delivered⟩

variable {entry : Entry} {i : ℕ}

theorem getElem?_of_prefix {l l' : List Entry} (h : l <+: l')
    (hentry : l[i]? = some entry) : l'[i]? = some entry := by
  obtain ⟨post, rfl⟩ := h
  obtain ⟨hlt, -⟩ := List.getElem?_eq_some_iff.mp hentry
  rw [List.getElem?_append_left hlt, hentry]

theorem Extends.getElem? {s s' : StreamState} (h : Extends s s')
    (hentry : s.entries[i]? = some entry) : s'.entries[i]? = some entry :=
  getElem?_of_prefix h.entries hentry

theorem Republished.mono {s s' : StreamState} (hentries : s.entries <+: s'.entries)
    (hdlq : s.dlq <+: s'.dlq) (h : Republished s i) : Republished s' i := by
  obtain ⟨entry, hentry, horigin, entry₀, n, h₀, hn, hnext⟩ := h
  refine ⟨entry, ?_, horigin, entry₀, n, getElem?_of_prefix hentries h₀, hn, hnext⟩
  rcases List.mem_append.mp hentry with h | h
  · exact List.mem_append_left _ (hentries.subset h)
  · exact List.mem_append_right _ (hdlq.subset h)

theorem Done.mono {s s' : StreamState} (hext : Extends s s') (h : Done s i) :
    Done s' i := by
  rcases h with ⟨hhandled, hpending⟩ | h
  · exact .inl ⟨hext.handled i hhandled, fun hi => hpending (hext.pending i hi)⟩
  · exact .inr (h.mono hext.entries hext.dlq)

/-- How often an entry was republished to its stream, compared with its attempt. -/
def Bounded (maxRetries : ℤ) (s : StreamState) : Prop :=
  ∀ entry ∈ s.entries, entry.republications = 0 ∨ (entry.republications : ℤ) ≤ maxRetries ∧
    ∃ n, attemptOf entry.fields = .ok n ∧ (entry.republications : ℤ) ≤ n

def IsEntry (s : StreamState) (m : StreamMessage) : Prop :=
  ∃ entry, s.entries[m.messageId]? = some entry ∧ entry.fields = m.fields

variable {m : StreamMessage}

theorem IsEntry.mono {s s' : StreamState} (hext : Extends s s')
    (h : IsEntry s m) : IsEntry s' m := by
  obtain ⟨entry, hentry, hfields⟩ := h
  exact ⟨entry, hext.getElem? hentry, hfields⟩

/-! ## One message -/

theorem ack_extends (answers : Bool) (messageId : ℕ) (s : StreamState) :
    Extends s (ack answers messageId s) := by
  unfold Events.ack
  split_ifs
  · exact ⟨List.prefix_rfl, List.prefix_rfl, fun _ h => h, fun _ h => (List.mem_filter.mp h).1, rfl⟩
  · exact Extends.refl s

theorem ack_entries (answers : Bool) (messageId : ℕ) (s : StreamState) :
    (ack answers messageId s).entries = s.entries := by
  unfold Events.ack
  split_ifs <;> rfl

theorem processed_extends (answers : StreamMessage → Answers) (m : StreamMessage)
    (s : StreamState) : Extends s (processed answers m s) := by
  refine Extends.trans ?_ (ack_extends _ _ _)
  exact ⟨List.prefix_rfl, List.prefix_rfl, fun _ h => List.mem_cons_of_mem _ h, fun _ h => h, rfl⟩

variable {answers : StreamMessage → Answers}

theorem processed_done {s : StreamState}
    (hacked : (answers m).acked = true) : Done (processed answers m s) m.messageId := by
  unfold processed Events.ack
  rw [if_pos hacked]
  refine .inl ⟨List.mem_cons_self, fun h => ?_⟩
  obtain ⟨-, hne⟩ := List.mem_filter.mp h
  exact of_decide_eq_true hne rfl

variable {maxRetries : ℤ}

theorem processed_bounded (answers : StreamMessage → Answers) (m : StreamMessage)
    {s : StreamState} (h : Bounded maxRetries s) : Bounded maxRetries (processed answers m s) := by
  unfold Bounded processed
  rw [ack_entries]
  exact h

theorem republish_extends (messageId : ℕ) (toSource : Bool) (fields : Fields) (s : StreamState) :
    Extends s (republish messageId toSource fields s) := by
  unfold republish
  dsimp only
  split_ifs
  · exact ⟨List.prefix_append _ _, List.prefix_rfl, fun _ h => h, fun _ h => h, rfl⟩
  · exact ⟨List.prefix_rfl, List.prefix_append _ _, fun _ h => h, fun _ h => h, rfl⟩

theorem mem_republish (messageId : ℕ) (toSource : Bool) (fields : Fields) (s : StreamState) :
    retried messageId toSource fields s ∈ (republish messageId toSource fields s).entries ++
      (republish messageId toSource fields s).dlq := by
  unfold republish
  dsimp only
  split_ifs <;> simp

/-- An entry whose attempts are counted is republished with the next one. -/
theorem republish_bounded {maxRetries n : ℤ} {fields : Fields} {s : StreamState}
    (hentry : IsEntry s m) (hn : attemptOf m.fields = .ok n) (hpos : 0 ≤ n)
    (hnext : attemptOf fields = .ok (n + 1)) (h : Bounded maxRetries s) :
    Bounded maxRetries (republish m.messageId (decide (n + 1 ≤ maxRetries)) fields s) := by
  obtain ⟨entry, hget, hfields⟩ := hentry
  unfold republish
  dsimp only
  split_ifs with hsource
  · rw [decide_eq_true_eq] at hsource
    intro x hx
    rcases List.mem_append.mp hx with hx | hx
    · exact h x hx
    · rw [List.mem_singleton.mp hx]
      have hcount : (entry.republications : ℤ) ≤ n := by
        rcases h entry (List.mem_of_getElem? hget) with hzero | ⟨-, n', hn', hle⟩
        · rw [hzero]
          exact hpos
        · rw [hfields, hn] at hn'
          obtain rfl := Except.ok.inj hn'
          exact hle
      have hretried : (retried m.messageId (decide (n + 1 ≤ maxRetries)) fields s).republications =
          entry.republications + 1 := by
        unfold retried
        rw [hget, decide_eq_true hsource]
        rfl
      right
      rw [hretried]
      push_cast
      exact ⟨by omega, n + 1, hnext, by omega⟩
  · exact h

variable {ms : List StreamMessage}

section

variable [JsonText]

def Moves (answers : StreamMessage → Answers) (m : StreamMessage) : Prop :=
  (answers m).publication = .published ∧ ∃ event entries, deserializeEvent m.fields = .ok event ∧
    0 ≤ event.attempt ∧ (event.attempt + 1).natAbs < 10 ^ maxDigits ∧
    event.metadata.orEmpty = .dict entries

theorem move_of_moves
    {s : StreamState} (now errorText : String) (hentry : IsEntry s m) (hmoves : Moves answers m)
    (hbounded : Bounded maxRetries s) :
    ∃ s', moveToRetryOrDlq maxRetries now (answers m) m errorText s = (.ok (), s') ∧ Extends s s' ∧
      Done s' m.messageId ∧ Bounded maxRetries s' := by
  obtain ⟨hpublished, event, entries, hevent, hpos, hlt, hmetadata⟩ := hmoves
  obtain ⟨retry, hretry, hattempt⟩ : ∃ retry, retryEvent m.stream now errorText event = .ok retry ∧
      retry.attempt = event.attempt + 1 := by
    unfold retryEvent
    rw [hmetadata]
    exact ⟨_, rfl, rfl⟩
  obtain ⟨fields, hserialize⟩ : ∃ fields, serializeEvent retry = .ok fields := by
    unfold serializeEvent textOfInt
    rw [if_pos (by rw [hattempt]; exact hlt)]
    exact ⟨_, rfl⟩
  have hn := deserializeEvent_ok hevent
  have hnext : attemptOf fields = .ok (event.attempt + 1) := by
    rw [← hattempt]
    exact attemptOf_serializeEvent (by omega) hserialize
  obtain ⟨s', hs'⟩ : ∃ s', republish m.messageId
    (decide (event.attempt + 1 ≤ maxRetries)) fields s =
      s' := ⟨_, rfl⟩
  have hext : Extends s s' := hs' ▸ republish_extends _ _ _ _
  refine ⟨ack (answers m).acked m.messageId s', ?_, hext.trans (ack_extends _ _ _), ?_, ?_⟩
  · unfold moveToRetryOrDlq
    rw [hevent]
    dsimp only
    rw [hretry]
    dsimp only
    rw [hpublished, if_neg nofun, hserialize]
    dsimp only
    rw [if_pos rfl, hattempt, hs']
  · obtain ⟨entry, hget, hfields⟩ := hentry
    refine Done.mono (ack_extends _ _ _) (.inr ⟨_, hs' ▸ mem_republish _ _ _ _, rfl, entry,
      event.attempt, hext.getElem? hget, by rw [hfields, hn], hnext⟩)
  · have hkept : Bounded maxRetries s' := hs' ▸ republish_bounded hentry hn hpos hnext hbounded
    unfold Bounded
    rw [ack_entries]
    exact hkept

/-! ## One iteration -/

/-- The loop goes on, and the message is acknowledged after it was processed, or is republished. -/
def Handles (it : Iteration) (outcome : StreamMessage → Option String) (m : StreamMessage) : Prop :=
  it.stopBefore ≠ some m.messageId ∧ (∃ event, deserializeEvent m.fields = .ok event) ∧
    match outcome m with
    | none => (it.answers m).acked = true
    | some _ => Moves it.answers m

variable {it : Iteration} {outcome : StreamMessage → Option String}

theorem handleOne_of_handles (config : Config) {s : StreamState}
    (hentry : IsEntry s m) (hhandles : Handles it outcome m)
    (hbounded : Bounded config.maxRetries s) :
    ∃ s', handleOne config it outcome m s = (.ok (), s') ∧ Extends s s' ∧ Done s' m.messageId ∧
      Bounded config.maxRetries s' := by
  obtain ⟨-, ⟨event, hevent⟩, hmatch⟩ := hhandles
  unfold handleOne
  rw [hevent]
  dsimp only
  rcases houtcome : outcome m with _ | errorText
  · rw [houtcome] at hmatch
    exact ⟨_, rfl, processed_extends _ _ _, processed_done hmatch, processed_bounded _ _ hbounded⟩
  · rw [houtcome] at hmatch
    exact move_of_moves it.now errorText hentry hmatch hbounded

theorem handleEach_of_handles (config : Config) {s : StreamState}
    (hentries : ∀ m ∈ ms, IsEntry s m) (hhandles : ∀ m ∈ ms, Handles it outcome m)
    (hbounded : Bounded config.maxRetries s) :
    ∃ s', handleEach config it outcome ms s = (.ok (), s') ∧ Extends s s' ∧
      (∀ m ∈ ms, Done s' m.messageId) ∧ Bounded config.maxRetries s' := by
  induction ms generalizing s with
  | nil => exact ⟨s, rfl, .refl s, fun m hm => absurd hm List.not_mem_nil, hbounded⟩
  | cons m ms ih =>
    obtain ⟨s₁, hone, hext, hdone, hbounded₁⟩ := handleOne_of_handles config
      (hentries m List.mem_cons_self) (hhandles m List.mem_cons_self) hbounded
    obtain ⟨s₂, hrest, hext', hdone', hbounded₂⟩ := ih
      (fun x hx => (hentries x (List.mem_cons_of_mem m hx)).mono hext)
      (fun x hx => hhandles x (List.mem_cons_of_mem m hx)) hbounded₁
    refine ⟨s₂, ?_, hext.trans hext', fun x hx => ?_, hbounded₂⟩
    · rw [handleEach, if_neg (hhandles m List.mem_cons_self).1, hone]
      exact hrest
    · rcases List.mem_cons.mp hx with rfl | hx
      · exact hdone.mono hext'
      · exact hdone' x hx

theorem moveFailed_of_moves (config : Config) (it : Iteration)
    {failed : List (StreamMessage × String)} {s : StreamState}
    (hentries : ∀ p ∈ failed, IsEntry s p.1) (hmoves : ∀ p ∈ failed, Moves it.answers p.1)
    (hbounded : Bounded config.maxRetries s) :
    ∃ s', moveFailed config it failed s = (.ok (), s') ∧ Extends s s' ∧
      (∀ p ∈ failed, Done s' p.1.messageId) ∧ Bounded config.maxRetries s' := by
  induction failed generalizing s with
  | nil => exact ⟨s, rfl, .refl s, fun m hm => absurd hm List.not_mem_nil, hbounded⟩
  | cons p failed ih =>
    obtain ⟨m, errorText⟩ := p
    have hm := hmoves (m, errorText) List.mem_cons_self
    obtain ⟨s₁, hone, hext, hdone, hbounded₁⟩ := move_of_moves it.now errorText
      (hentries (m, errorText) List.mem_cons_self) hm hbounded
    obtain ⟨s₂, hrest, hext', hdone', hbounded₂⟩ := ih
      (fun x hx => (hentries x (List.mem_cons_of_mem _ hx)).mono hext)
      (fun x hx => hmoves x (List.mem_cons_of_mem _ hx)) hbounded₁
    obtain ⟨-, event, -, hevent, -⟩ := hm
    refine ⟨s₂, ?_, hext.trans hext', fun x hx => ?_, hbounded₂⟩
    · rw [moveFailed, hevent]
      dsimp only
      rw [hone]
      exact hrest
    · rcases List.mem_cons.mp hx with rfl | hx
      · exact hdone.mono hext'
      · exact hdone' x hx

end

theorem processed_all (answers : StreamMessage → Answers)
    {s : StreamState} (hacked : ∀ m ∈ ms, (answers m).acked = true)
    (hbounded : Bounded maxRetries s) :
    Extends s (ms.foldl (fun s m => processed answers m s) s) ∧
      (∀ m ∈ ms, Done (ms.foldl (fun s m => processed answers m s) s) m.messageId) ∧
      Bounded maxRetries (ms.foldl (fun s m => processed answers m s) s) := by
  induction ms generalizing s with
  | nil => exact ⟨.refl s, fun m hm => absurd hm List.not_mem_nil, hbounded⟩
  | cons m ms ih =>
    obtain ⟨hext, hdone, hbounded'⟩ := ih (fun x hx => hacked x (List.mem_cons_of_mem m hx))
      (processed_bounded answers m hbounded)
    refine ⟨(processed_extends answers m s).trans hext, fun x hx => ?_, hbounded'⟩
    rcases List.mem_cons.mp hx with rfl | hx
    · exact (processed_done (hacked x List.mem_cons_self)).mono hext
    · exact hdone x hx

/-! ## Reading -/

section

variable (stream : String) (count : ℕ) (s : StreamState)

theorem readGroup_getElem? (j : ℕ) : (readGroup stream count s).1[j]? =
    if j < count then s.entries[s.delivered + j]?.map fun entry =>
      { stream, messageId := s.delivered + j, fields := entry.fields } else none := by
  unfold readGroup
  dsimp only
  rw [List.getElem?_map, List.getElem?_take]
  split_ifs
  · rw [List.getElem?_drop, List.getElem?_zipIdx, Option.map_map, Nat.zero_add]
    rfl
  · rfl

theorem readGroup_ids : (readGroup stream count s).1.map StreamMessage.messageId =
    List.range' s.delivered (readGroup stream count s).1.length := by
  refine List.ext_getElem? fun j => ?_
  rw [List.getElem?_map]
  by_cases hj : j < (readGroup stream count s).1.length
  · have hsome := List.getElem?_eq_getElem hj
    have hget := readGroup_getElem? stream count s j
    rw [hsome] at hget
    rw [hsome, List.getElem?_range' hj]
    split_ifs at hget
    · rcases hentry : s.entries[s.delivered + j]? with _ | entry
      · rw [hentry] at hget
        cases hget
      · rw [hentry] at hget
        rw [Option.some.inj hget, Nat.one_mul]
        rfl
  · rw [List.getElem?_eq_none (by omega), List.getElem?_eq_none (by rw [List.length_range']; omega)]
    rfl

theorem readGroup_isEntry (hm : m ∈ (readGroup stream count s).1) :
    IsEntry s m := by
  obtain ⟨j, hj⟩ := List.mem_iff_getElem?.mp hm
  rw [readGroup_getElem?] at hj
  split_ifs at hj
  rcases hentry : s.entries[s.delivered + j]? with _ | entry
  · rw [hentry] at hj
    cases hj
  · rw [hentry] at hj
    obtain rfl := Option.some.inj hj
    exact ⟨entry, hentry, rfl⟩

end

/-! ## Runs -/

/-- **Nothing is stranded**: every entry that was read is done, and none was republished to its
stream more often than it may be. -/
structure Unstranded (maxRetries : ℤ) (s : StreamState) : Prop where
  given : s.delivered ≤ s.entries.length
  done : ∀ i < s.delivered, Done s i
  bounded : Bounded maxRetries s

theorem Unstranded.republications {s : StreamState} (h : Unstranded maxRetries s)
    (hentry : entry ∈ s.entries) : (entry.republications : ℤ) ≤ max 0 maxRetries := by
  rcases h.bounded entry hentry with hzero | ⟨hle, -⟩
  · rw [hzero]
    exact le_max_left _ _
  · exact hle.trans (le_max_right _ _)

theorem unstranded_xadd {s : StreamState} (h : Unstranded maxRetries s)
    (fields : Fields) : Unstranded maxRetries (xadd fields s) := by
  have hext : Extends s (xadd fields s) :=
    ⟨List.prefix_append _ _, List.prefix_rfl, fun _ h => h, fun _ h => h, rfl⟩
  refine ⟨h.given.trans hext.entries.length_le, fun i hi => (h.done i hi).mono hext, ?_⟩
  intro entry hentry
  rcases List.mem_append.mp hentry with hentry | hentry
  · exact h.bounded entry hentry
  · rw [List.mem_singleton.mp hentry]
    exact .inl rfl

theorem unstranded_read {stream : String} {count : ℕ} {s s' : StreamState}
    (h : Unstranded maxRetries s) (hext : Extends (readGroup stream count s).2 s')
    (hdone : ∀ m ∈ (readGroup stream count s).1, Done s' m.messageId)
    (hbounded : Bounded maxRetries s') : Unstranded maxRetries s' := by
  have hids := readGroup_ids stream count s
  have hgiven : s'.delivered = s.delivered + (readGroup stream count s).1.length := hext.delivered
  have hentries : s.entries <+: s'.entries := hext.entries
  have hdlq : s.dlq <+: s'.dlq := hext.dlq
  refine ⟨?_, fun i hi => ?_, hbounded⟩
  · have hlength : (readGroup stream count s).1.length ≤ s.entries.length - s.delivered := by
      unfold readGroup
      simp only [List.length_map, List.length_take, List.length_drop, List.length_zipIdx]
      omega
    have hle := hentries.length_le
    have := h.given
    omega
  · by_cases hold : i < s.delivered
    · rcases h.done i hold with ⟨hhandled, hpending⟩ | hrepublished
      · refine .inl ⟨hext.handled i hhandled, fun hi' => ?_⟩
        rcases List.mem_append.mp (hext.pending i hi') with hi' | hi'
        · exact hpending hi'
        · have hread : i ∈ (readGroup stream count s).1.map StreamMessage.messageId := hi'
          rw [hids, List.mem_range'_1] at hread
          omega
      · exact .inr (hrepublished.mono hentries hdlq)
    · have hmem : i ∈ (readGroup stream count s).1.map StreamMessage.messageId := by
        rw [hids, List.mem_range'_1]
        omega
      obtain ⟨m, hm, rfl⟩ := List.mem_map.mp hmem
      exact hdone m hm

section

variable [JsonText]

/-- Every message of the iteration is processed and acknowledged, or republished. -/
def Undisturbed (it : Iteration) (messages : List StreamMessage) : Prop :=
  match it.work with
  | .each outcome => ∀ m ∈ messages, Handles it outcome m
  | .batch report => ∃ r, report messages = .ok r ∧
      (∀ m, m ∈ messages ↔ m ∈ r.successful ∨ m ∈ r.failed.map Prod.fst) ∧
      (∀ m ∈ r.successful, (it.answers m).acked = true) ∧ ∀ p ∈ r.failed, Moves it.answers p.1

theorem iterate_unstranded (config : Config) {it : Iteration} {s : StreamState}
    (h : Unstranded config.maxRetries s)
    (hit : it.reads = true →
      Undisturbed it (readGroup config.streamName (max 1 config.batchSize).toNat s).1) :
    ∃ s', iterate config it s = (.ok (), s') ∧ Unstranded config.maxRetries s' := by
  unfold iterate
  by_cases hreads : it.reads = true
  · rw [if_pos hreads]
    specialize hit hreads
    have hentries : ∀ m ∈ (readGroup config.streamName (max 1 config.batchSize).toNat s).1,
        IsEntry (readGroup config.streamName (max 1 config.batchSize).toNat s).2 m :=
      fun m hm => readGroup_isEntry _ _ s hm
    have hbounded : Bounded config.maxRetries
        (readGroup config.streamName (max 1 config.batchSize).toNat s).2 := h.bounded
    obtain ⟨read, hread⟩ : ∃ read,
        readGroup config.streamName (max 1 config.batchSize).toNat s = read := ⟨_, rfl⟩
    have hstep := @unstranded_read config.maxRetries config.streamName
      (max 1 config.batchSize).toNat s
    rw [hread] at hit hentries hbounded hstep ⊢
    obtain ⟨messages, s₀⟩ := read
    dsimp only at hit hentries hbounded hstep ⊢
    unfold Undisturbed at hit
    rcases hwork : it.work with outcome | report
    · rw [hwork] at hit
      obtain ⟨s', hrun, hext, hdone, hbounded'⟩ :=
        handleEach_of_handles config hentries hit hbounded
      exact ⟨s', hrun, hstep h hext hdone hbounded'⟩
    · rw [hwork] at hit
      obtain ⟨r, hr, hmem, hacked, hmoves⟩ := hit
      dsimp only
      rw [hr]
      obtain ⟨hext, hdone, hbounded₁⟩ := processed_all it.answers hacked hbounded
      have hfailed : ∀ p ∈ r.failed, IsEntry s₀ p.1 := fun p hp =>
        hentries p.1 ((hmem p.1).mpr (.inr (List.mem_map_of_mem hp)))
      obtain ⟨s', hrun, hext', hdone', hbounded₂⟩ := moveFailed_of_moves config it
        (fun p hp => (hfailed p hp).mono hext) hmoves hbounded₁
      refine ⟨s', hrun, hstep h (hext.trans hext') (fun m hm => ?_) hbounded₂⟩
      rcases (hmem m).mp hm with hm | hm
      · exact (hdone m hm).mono hext'
      · obtain ⟨p, hp, rfl⟩ := List.mem_map.mp hm
        exact hdone' p hp
  · rw [if_neg hreads]
    exact ⟨s, rfl, h⟩

/-- An iteration finds nothing that disturbs it. -/
def Smooth (config : Config) (w : World) : Step → Prop
  | .publish _ => True
  | .iteration it => it.reads = true →
      Undisturbed it (readGroup config.streamName (max 1 config.batchSize).toNat w.streams).1

theorem step_unstranded {config : Config} {w : World} (step : Step)
    (h : w.terminated = none ∧ Unstranded config.maxRetries w.streams)
    (hsmooth : Smooth config w step) :
    (workerStep config w step).terminated = none ∧
      Unstranded config.maxRetries (workerStep config w step).streams := by
  cases step with
  | publish fields => exact ⟨h.1, unstranded_xadd h.2 fields⟩
  | iteration it =>
    obtain ⟨s', hrun, hkept⟩ := iterate_unstranded config h.2 hsmooth
    unfold workerStep
    dsimp only
    rw [if_pos h.1, hrun]
    exact ⟨rfl, hkept⟩

/-- **No message is stranded.**  If every iteration acknowledges what it has processed and
republishes what has failed, the loop is never ended by an exception, and every entry that was read
is acknowledged after it was processed, or was republished with its next attempt, at most
`maxRetries` times to its own stream. -/
theorem nothing_stranded (config : Config) (steps : List Step)
    (hsmooth : Along (workerStep config) (Smooth config) {} steps) :
    (run (workerStep config) {} steps).terminated = none ∧
    (∀ i < (run (workerStep config) {} steps).streams.delivered,
      Done (run (workerStep config) {} steps).streams i) ∧
    ∀ entry ∈ (run (workerStep config) {} steps).streams.entries,
      (entry.republications : ℤ) ≤ max 0 config.maxRetries := by
  have hstart : (({} : World).terminated = none) ∧
      Unstranded config.maxRetries ({} : World).streams :=
    ⟨rfl, le_refl 0, fun i hi => absurd hi (Nat.not_lt_zero i), fun _ h =>
      absurd h List.not_mem_nil⟩
  obtain ⟨hrunning, hkept⟩ := run_invariant_of_along
    (I := fun w : World => w.terminated = none ∧ Unstranded config.maxRetries w.streams)
    (fun _ step h hC => step_unstranded step h hC) hstart hsmooth
  exact ⟨hrunning, hkept.done, fun entry hentry => hkept.republications hentry⟩

end

/-! ### Two runs -/

def telemetry : Config := { streamName := "telematics", batchSize := 10, maxRetries := 3 }

/-- The handler fails on the first message of the stream. -/
def failing : Work := .each fun m => if m.messageId = 0 then some "timeout" else none

def twoMessages : List Step := [.publish [("attempt", "0")], .publish [("attempt", "7")]]

/-- One message fails and is republished, and one is processed. -/
theorem nothing_stranded_sample :
    let w := run (@workerStep plainJson telemetry) {}
      (twoMessages ++ [.iteration { work := failing }])
    w.terminated = none ∧ (∀ i < w.streams.delivered, Done w.streams i) ∧
      ∀ entry ∈ w.streams.entries, (entry.republications : ℤ) ≤ max 0 telemetry.maxRetries := by
  refine @nothing_stranded plainJson telemetry _ ⟨trivial, trivial, fun _ => ?_, trivial⟩
  have hread : (readGroup telemetry.streamName (max 1 telemetry.batchSize).toNat
      (run (@workerStep plainJson telemetry) {} twoMessages).streams).1 =
        [⟨"telematics", 0, [("attempt", "0")]⟩, ⟨"telematics", 1, [("attempt", "7")]⟩] := rfl
  have hboth : ∀ m ∈ (readGroup telemetry.streamName (max 1 telemetry.batchSize).toNat
      (run (@workerStep plainJson telemetry) {} twoMessages).streams).1,
      @Handles plainJson { work := failing }
        (fun m => if m.messageId = 0 then some "timeout" else none) m := by
    intro m hm
    rw [hread, List.mem_cons, List.mem_singleton] at hm
    rcases hm with rfl | rfl
    · have hone : 1 < 10 ^ maxDigits := Nat.one_lt_pow (by decide) (by decide)
      exact ⟨nofun, ⟨_, rfl⟩, rfl, _, [], rfl, by decide, hone, rfl⟩
    · exact ⟨nofun, ⟨_, rfl⟩, rfl⟩
  exact hboth

theorem not_done {s : StreamState} (hhandled : i ∉ s.handled)
    (horigin : ∀ entry ∈ s.entries ++ s.dlq, entry.origin ≠ some i) : ¬ Done s i := by
  rintro (⟨h, -⟩ | ⟨entry, hentry, h, -⟩)
  · exact hhandled h
  · exact horigin entry hentry h

/-- **A message is stranded** when its republication fails; and an attempt that is no number ends
the loop, with the message and the one after it pending. -/
theorem message_stranded :
    (let w := run (@workerStep plainJson telemetry) {} (twoMessages ++
        [.iteration { work := failing, answers := fun _ => { publication := .failed } },
          .iteration { work := failing }])
     w.terminated = none ∧ w.streams.delivered = 2 ∧ ¬ Done w.streams 0) ∧
    (let w := run (@workerStep plainJson telemetry) {} [.publish [("attempt", "abc")],
        .publish [("attempt", "0")], .iteration { work := failing }, .iteration { work := failing }]
     w.terminated ≠ none ∧ w.streams.delivered = 2 ∧ ¬ Done w.streams 1) := by
  refine ⟨⟨?_, ?_, not_done ?_ ?_⟩, ?_, ?_, not_done ?_ ?_⟩ <;> decide +kernel

end WezuBackend.Streams.Worker
