import WezuBackend.Lib.Entries
import WezuBackend.Lib.JsonStrings
import WezuBackend.Streams.JsonNumbers
import Mathlib.Data.List.Sort
import Mathlib.Data.String.Basic

/-!
# JSON as text

`json.dumps(value, sort_keys=True, separators=(",", ":"))` and `json.loads`.  A value is written
with the keys of its dictionaries in order, and read back so (`loads_dumps`): the same value for
Python, which does not look at the order of keys (`same_sortKeys`).  Integers are converted as `int`
and `str` do it, up to 4300 digits.  Both recurse into lists and dictionaries, as deep as the
interpreter's stack allows.

Floats are known by their `repr`; what a literal is converted to is a parameter.
-/

namespace WezuBackend.Streams.JsonCodec

open Lib.Entries Lib.JsonStrings Core.Base Core.Text Streams.Events Streams.JsonNumbers

/-! ## `json.loads` -/

def isWhitespace (c : Char) : Bool := c = ' ' ∨ c = '\t' ∨ c = '\n' ∨ c = '\r'

def skipWs (cs : List Char) : List Char := cs.dropWhile isWhitespace

def keywords : List (String × Json) :=
  [("null", .null), ("true", .bool true), ("false", .bool false), ("NaN", .float "nan"),
    ("Infinity", .float "inf"), ("-Infinity", .float "-inf")]

def scanKeyword (cs : List Char) : Option (Json × List Char) :=
  keywords.findSome? fun keyword =>
    if keyword.1.toList <+: cs then some (keyword.2, cs.drop keyword.1.length) else none

section

variable [Floats]

mutual

/-- A value at the beginning of a text, with so many recursive calls left for what it nests, and in
at most `fuel` steps. -/
def scanOnce : ℕ → ℕ → List Char → Except JsonError (Json × List Char)
  | _, 0, _ => .error .malformed
  | _, _ + 1, [] => .error .malformed
  | calls, fuel + 1, c :: cs =>
    if c = '"' then (orMalformed (scanString cs)).map fun s => (.str s.1, s.2)
    else if c = '[' then
      if calls = 0 then .error .tooDeep
      else if (skipWs cs).head? = some ']' then .ok (.list [], (skipWs cs).tail)
      else (scanItems (calls - 1) fuel (skipWs cs)).map fun vs => (.list vs.1, vs.2)
    else if c = '\x7b' then
      if calls = 0 then .error .tooDeep
      else if (skipWs cs).head? = some '\x7d' then .ok (.dict [], (skipWs cs).tail)
      else (scanPairs (calls - 1) fuel (skipWs cs)).map fun es => (.dict (ofEntries es.1), es.2)
    else
      match scanKeyword (c :: cs) with
      | some v => .ok v
      | none => scanNumber (c :: cs)

def scanItems : ℕ → ℕ → List Char → Except JsonError (List Json × List Char)
  | _, 0, _ => .error .malformed
  | calls, fuel + 1, cs =>
    (scanOnce calls fuel cs).bind fun v =>
      match skipWs v.2 with
      | ',' :: rest => (scanItems calls fuel (skipWs rest)).map fun vs => (v.1 :: vs.1, vs.2)
      | ']' :: rest => .ok ([v.1], rest)
      | _ => .error .malformed

def scanPairs : ℕ → ℕ → List Char → Except JsonError (List (String × Json) × List Char)
  | _, 0, _ => .error .malformed
  | _, _ + 1, [] => .error .malformed
  | calls, fuel + 1, c :: cs =>
    if c = '"' then
      (orMalformed (scanString cs)).bind fun key =>
        match skipWs key.2 with
        | ':' :: rest =>
          (scanOnce calls fuel (skipWs rest)).bind fun v =>
            match skipWs v.2 with
            | ',' :: rest =>
              (scanPairs calls fuel (skipWs rest)).map fun es => ((key.1, v.1) :: es.1, es.2)
            | '\x7d' :: rest => .ok ([(key.1, v.1)], rest)
            | _ => .error .malformed
        | _ => .error .malformed
    else .error .malformed

end

/-- `json.loads`, with so many recursive calls left. -/
def loadsWithin (calls : ℕ) (text : String) : Except JsonError Json :=
  (scanOnce calls (text.length + 1) (skipWs text.toList)).bind fun v =>
    if skipWs v.2 = [] then .ok v.1 else .error .malformed

/-- `json.loads`, on a stack that suffices for the text. -/
def loads (text : String) : Except JsonError Json := loadsWithin text.length text

end

/-! ## `json.dumps` -/

mutual

/-- The keys of all dictionaries in order. -/
def sortKeys : Json → Json
  | .list values => .list (sortItems values)
  | .dict entries => .dict ((sortEntries entries).insertionSort fun a b => a.1 ≤ b.1)
  | value => value

def sortItems : List Json → List Json
  | [] => []
  | v :: vs => sortKeys v :: sortItems vs

def sortEntries : List (String × Json) → List (String × Json)
  | [] => []
  | (key, v) :: es => (key, sortKeys v) :: sortEntries es

end

def floatLiteral (text : String) : String :=
  if text = "nan" then "NaN" else if text = "inf" then "Infinity"
  else if text = "-inf" then "-Infinity" else text

def quoted (s : String) : List Char := '"' :: escape s.toList ++ ['"']

mutual

/-- A value as it stands. -/
def write : Json → List Char
  | .null => "null".toList
  | .bool true => "true".toList
  | .bool false => "false".toList
  | .int n => (toString n).toList
  | .float text => (floatLiteral text).toList
  | .str s => quoted s
  | .list [] => ['[', ']']
  | .list (v :: vs) => '[' :: write v ++ writeItems vs
  | .dict [] => ['\x7b', '\x7d']
  | .dict ((key, v) :: es) => '\x7b' :: quoted key ++ ':' :: write v ++ writeEntries es

/-- The other items of a list, and its end. -/
def writeItems : List Json → List Char
  | [] => [']']
  | v :: vs => ',' :: write v ++ writeItems vs

def writeEntries : List (String × Json) → List Char
  | [] => ['\x7d']
  | (key, v) :: es => ',' :: quoted key ++ ':' :: write v ++ writeEntries es

end

/-- `json.dumps`, when it does not raise. -/
def dumps (value : Json) : String := String.ofList (write (sortKeys value))

/-! ## Values -/

mutual

/-- The value and all values in it. -/
def Everywhere (P : Json → Prop) : Json → Prop
  | .list values => P (.list values) ∧ ItemsEverywhere P values
  | .dict entries => P (.dict entries) ∧ EntriesEverywhere P entries
  | value => P value

def ItemsEverywhere (P : Json → Prop) : List Json → Prop
  | [] => True
  | v :: vs => Everywhere P v ∧ ItemsEverywhere P vs

def EntriesEverywhere (P : Json → Prop) : List (String × Json) → Prop
  | [] => True
  | (_, v) :: es => Everywhere P v ∧ EntriesEverywhere P es

end

mutual

/-- How deep lists and dictionaries are nested. -/
def depth : Json → ℕ
  | .list values => itemsDepth values + 1
  | .dict entries => entriesDepth entries + 1
  | _ => 0

def itemsDepth : List Json → ℕ
  | [] => 0
  | v :: vs => max (depth v) (itemsDepth vs)

def entriesDepth : List (String × Json) → ℕ
  | [] => 0
  | (_, v) :: es => max (depth v) (entriesDepth es)

end

/-- An integer can be converted. -/
def IsShort : Json → Prop
  | .int n => n.natAbs < 10 ^ maxDigits
  | _ => True

/-- All integers can be converted. -/
def Short (value : Json) : Prop := Everywhere IsShort value

mutual

def decideEverywhere {P : Json → Prop} [DecidablePred P] :
    ∀ value : Json, Decidable (Everywhere P value)
  | .null => inferInstanceAs (Decidable (P .null))
  | .bool b => inferInstanceAs (Decidable (P (.bool b)))
  | .int n => inferInstanceAs (Decidable (P (.int n)))
  | .float text => inferInstanceAs (Decidable (P (.float text)))
  | .str s => inferInstanceAs (Decidable (P (.str s)))
  | .list values => @instDecidableAnd _ _ inferInstance (decideItems values)
  | .dict entries => @instDecidableAnd _ _ inferInstance (decideEntries entries)

def decideItems {P : Json → Prop} [DecidablePred P] :
    ∀ values : List Json, Decidable (ItemsEverywhere P values)
  | [] => .isTrue trivial
  | v :: vs => @instDecidableAnd _ _ (decideEverywhere v) (decideItems vs)

def decideEntries {P : Json → Prop} [DecidablePred P] :
    ∀ entries : List (String × Json), Decidable (EntriesEverywhere P entries)
  | [] => .isTrue trivial
  | (_, v) :: es => @instDecidableAnd _ _ (decideEverywhere v) (decideEntries es)

end

theorem isShort_iff (n : ℤ) : IsShort (.int n) ↔ n.natAbs < 10 ^ maxDigits := Iff.rfl

instance : DecidablePred IsShort
  | .null => .isTrue trivial
  | .bool _ => .isTrue trivial
  | .int n => decidable_of_iff' _ (isShort_iff n)
  | .float _ => .isTrue trivial
  | .str _ => .isTrue trivial
  | .list _ => .isTrue trivial
  | .dict _ => .isTrue trivial

instance (value : Json) : Decidable (Short value) := decideEverywhere value

theorem isShort_of_lt {n : ℤ} (h : n.natAbs < 10) : IsShort (.int n) :=
  lt_of_lt_of_le h (Nat.le_self_pow (by decide) 10)

/-- `json.dumps`, which raises at an integer that is too long. -/
def jsonDumps (value : Json) : Except Exc String :=
  if Short value then .ok (dumps value) else .error tooLong

variable {value : Json}

variable {text : String}

theorem jsonDumps_ok :
    jsonDumps value = .ok text ↔ Short value ∧ dumps value = text := by
  unfold jsonDumps
  split_ifs with h
  · simp [h]
  · simp [h]

/-- The first character of a written value. -/
def Starts (c : Char) : Prop :=
  isWhitespace c = false ∧ c ≠ ']' ∧ c ≠ '\x7d' ∧ c ≠ ',' ∧ c ≠ ':'

instance (c : Char) : Decidable (Starts c) := by
  unfold Starts
  infer_instance

variable {c : Char}

theorem starts_of_isDigit (h : c.isDigit = true) : Starts c := by
  refine ⟨?_, ?_, ?_, ?_, ?_⟩
  · unfold isWhitespace
    rw [decide_eq_false_iff_not]
    rintro (rfl | rfl | rfl | rfl) <;> exact absurd h (by decide)
  all_goals
    rintro rfl
    exact absurd h (by decide)

theorem starts_of_numberHead {cs : List Char} (h : NumberHead cs) :
    ∃ c tail, cs = c :: tail ∧ Starts c ∧ c ≠ '"' ∧ c ≠ '[' ∧ c ≠ '\x7b' := by
  rcases h with ⟨d, tail, rfl, hdigit⟩ | ⟨d, tail, rfl, -⟩
  · refine ⟨d, tail, rfl, starts_of_isDigit hdigit, ?_, ?_, ?_⟩ <;>
      rintro rfl <;> exact absurd hdigit (by decide)
  · exact ⟨'-', d :: tail, rfl, by decide, by decide, by decide, by decide⟩

theorem keyword_heads : ∀ keyword ∈ keywords, ∃ c d tail, keyword.1.toList = c :: d :: tail ∧
    c.isDigit = false ∧ (c = '-' → d.isDigit = false) := by
  simp only [keywords, List.forall_mem_cons]
  refine ⟨?_, ?_, ?_, ?_, ?_, ?_, by simp⟩ <;> exact ⟨_, _, _, rfl, by decide, by decide⟩

theorem scanKeyword_of_numberHead {cs : List Char} (h : NumberHead cs) : scanKeyword cs = none := by
  refine List.findSome?_eq_none_iff.mpr fun keyword hkeyword => if_neg fun hprefix => ?_
  obtain ⟨c, d, tail, htext, hc, hd⟩ := keyword_heads keyword hkeyword
  rw [htext] at hprefix
  rcases h with ⟨d', tail', rfl, hdigit⟩ | ⟨d', tail', rfl, hdigit⟩
  · obtain ⟨rfl, -⟩ := List.cons_prefix_cons.mp hprefix
    rw [hc] at hdigit
    cases hdigit
  · obtain ⟨hminus, hprefix⟩ := List.cons_prefix_cons.mp hprefix
    obtain ⟨rfl, -⟩ := List.cons_prefix_cons.mp hprefix
    rw [hd hminus] at hdigit
    cases hdigit

theorem skipWs_of_starts (h : Starts c) (cs : List Char) : skipWs (c :: cs) = c :: cs :=
  List.dropWhile_cons_of_neg (by rw [h.1]; decide)

theorem stops_cons {c : Char} (h : c = ',' ∨ c = ']' ∨ c = '\x7d') (rest : List Char) :
    Stops (c :: rest) := by
  intro d hd
  obtain rfl := Option.some.inj hd
  rcases h with rfl | rfl | rfl <;> decide

theorem stops_writeItems (values : List Json) (rest : List Char) :
    Stops (writeItems values ++ rest) := by
  cases values <;> exact stops_cons (by simp) _

theorem stops_writeEntries (entries : List (String × Json)) (rest : List Char) :
    Stops (writeEntries entries ++ rest) := by
  cases entries <;> exact stops_cons (by simp) _

theorem length_writeItems_pos (values : List Json) : 1 ≤ (writeItems values).length := by
  cases values <;> simp [writeItems]

theorem length_writeEntries_pos (entries : List (String × Json)) :
    1 ≤ (writeEntries entries).length := by
  cases entries <;> simp [writeEntries]

theorem scanString_quoted (s : String) (rest : List Char) :
    ∃ tail, quoted s ++ rest = '"' :: tail ∧ scanString tail = some (s, rest) := by
  refine ⟨escape s.toList ++ '"' :: rest, ?_, scanString_escape s rest⟩
  rw [quoted, List.cons_append, List.cons_append, List.append_assoc, List.singleton_append]

/-! ## Keys in order -/

variable {entries : List (String × Json)}

theorem entriesEverywhere_iff {P : Json → Prop} :
    EntriesEverywhere P entries ↔ ∀ e ∈ entries, Everywhere P e.2 := by
  induction entries with
  | nil => simp [EntriesEverywhere]
  | cons e es ih => rw [EntriesEverywhere, ih, List.forall_mem_cons]

theorem keys_sortEntries (entries : List (String × Json)) :
    (sortEntries entries).map Prod.fst = entries.map Prod.fst := by
  induction entries with
  | nil => rfl
  | cons e es ih => rw [sortEntries, List.map_cons, List.map_cons, ih]

theorem perm_sorted (entries : List (String × Json)) :
    ((sortEntries entries).insertionSort fun a b => a.1 ≤ b.1).Perm (sortEntries entries) :=
  List.perm_insertionSort _ _

theorem pairwise_sorted (entries : List (String × Json)) :
    (entries.insertionSort fun a b => a.1 ≤ b.1).Pairwise fun a b => a.1 ≤ b.1 := by
  have : Std.Total fun a b : String × Json => a.1 ≤ b.1 := ⟨fun a b => le_total a.1 b.1⟩
  have : IsTrans (String × Json) fun a b => a.1 ≤ b.1 := ⟨fun _ _ _ => le_trans⟩
  exact List.pairwise_insertionSort _ _

theorem sortEntries_eq_self
    (h : ∀ e ∈ entries, sortKeys e.2 = e.2) : sortEntries entries = entries := by
  induction entries with
  | nil => rfl
  | cons e es ih =>
    rw [List.forall_mem_cons] at h
    rw [sortEntries, h.1, ih h.2]

mutual

theorem sortKeys_sortKeys : ∀ value : Json, sortKeys (sortKeys value) = sortKeys value
  | .null => rfl
  | .bool _ => rfl
  | .int _ => rfl
  | .float _ => rfl
  | .str _ => rfl
  | .list values => by rw [sortKeys, sortKeys, sortItems_sortItems]
  | .dict entries => by
    have hentries : sortEntries ((sortEntries entries).insertionSort fun a b => a.1 ≤ b.1) =
        (sortEntries entries).insertionSort fun a b => a.1 ≤ b.1 :=
      sortEntries_eq_self fun e he =>
        sortKeys_of_mem entries e ((perm_sorted entries).mem_iff.mp he)
    rw [sortKeys, sortKeys, hentries, (pairwise_sorted _).insertionSort_eq]

theorem sortItems_sortItems : ∀ values : List Json, sortItems (sortItems values) = sortItems values
  | [] => rfl
  | v :: vs => by rw [sortItems, sortItems, sortKeys_sortKeys, sortItems_sortItems]

theorem sortKeys_of_mem : ∀ (entries : List (String × Json)), ∀ e ∈ sortEntries entries,
    sortKeys e.2 = e.2
  | [], _, he => by cases he
  | (key, v) :: es, e, he => by
    rcases List.mem_cons.mp he with rfl | he
    · exact sortKeys_sortKeys v
    · exact sortKeys_of_mem es e he

end

theorem lookup_sortEntries (entries : List (String × Json)) (k : String) :
    (sortEntries entries).lookup k = (entries.lookup k).map sortKeys := by
  induction entries with
  | nil => rfl
  | cons e es ih =>
    rw [sortEntries, List.lookup_cons, List.lookup_cons, ih]
    split <;> rfl

theorem lookup_sorted (h : (entries.map Prod.fst).Nodup)
    (k : String) : ((sortEntries entries).insertionSort fun a b => a.1 ≤ b.1).lookup k =
      (entries.lookup k).map sortKeys := by
  have hnodup : ((sortEntries entries).map Prod.fst).Nodup := by
    rwa [keys_sortEntries]
  rw [← lookup_sortEntries, lookup_perm (perm_sorted entries).symm hnodup]

theorem nodup_sorted (h : (entries.map Prod.fst).Nodup) :
    (((sortEntries entries).insertionSort fun a b => a.1 ≤ b.1).map Prod.fst).Nodup := by
  rwa [((perm_sorted entries).map Prod.fst).nodup_iff, keys_sortEntries]

/-- **Dictionaries with the same values are the same**, with the keys in order. -/
theorem sortKeys_congr {as bs : List (String × Json)} (has : (as.map Prod.fst).Nodup)
    (hbs : (bs.map Prod.fst).Nodup)
    (h : ∀ k, (as.lookup k).map sortKeys = (bs.lookup k).map sortKeys) :
    sortKeys (.dict as) = sortKeys (.dict bs) := by
  have hmem : ∀ e, e ∈ (sortEntries as).insertionSort (fun a b => a.1 ≤ b.1) ↔
      e ∈ (sortEntries bs).insertionSort fun a b => a.1 ≤ b.1 := by
    rintro ⟨k, v⟩
    rw [← lookup_eq_some_iff_mem (nodup_sorted has), ← lookup_eq_some_iff_mem (nodup_sorted hbs),
      lookup_sorted has, lookup_sorted hbs, h]
  have hperm := (List.perm_ext_iff_of_nodup (nodup_sorted has).of_map
    (nodup_sorted hbs).of_map).mpr hmem
  -- a key stands for its entry
  have hantisymm : ∀ a b, a ∈ (sortEntries as).insertionSort (fun a b => a.1 ≤ b.1) →
      b ∈ (sortEntries bs).insertionSort (fun a b => a.1 ≤ b.1) → a.1 ≤ b.1 → b.1 ≤ a.1 →
        a = b := by
    rintro ⟨k, v⟩ ⟨k', w⟩ ha hb hle hge
    obtain rfl : k = k' := le_antisymm hle hge
    have ha' := (lookup_eq_some_iff_mem (nodup_sorted hbs)).mpr ((hmem _).mp ha)
    have hb' := (lookup_eq_some_iff_mem (nodup_sorted hbs)).mpr hb
    rw [Option.some.inj (ha'.symm.trans hb')]
  rw [sortKeys, sortKeys,
    List.Perm.eq_of_pairwise hantisymm (pairwise_sorted _) (pairwise_sorted _) hperm]

mutual

/-- What holds of all values in a value does so when the keys are in order. -/
theorem everywhere_sortKeys {P : Json → Prop} (hP : ∀ v, P v → P (sortKeys v)) :
    ∀ {value : Json}, Everywhere P value → Everywhere P (sortKeys value)
  | .null, h => h
  | .bool _, h => h
  | .int _, h => h
  | .float _, h => h
  | .str _, h => h
  | .list _, h => ⟨hP _ h.1, itemsEverywhere_sort hP h.2⟩
  | .dict entries, h => by
    refine ⟨hP _ h.1, entriesEverywhere_iff.mpr fun e he => ?_⟩
    exact entriesEverywhere_iff.mp (entriesEverywhere_sort hP h.2) e
      ((perm_sorted entries).mem_iff.mp he)

theorem itemsEverywhere_sort {P : Json → Prop} (hP : ∀ v, P v → P (sortKeys v)) :
    ∀ {values : List Json}, ItemsEverywhere P values → ItemsEverywhere P (sortItems values)
  | [], _ => trivial
  | _ :: _, h => ⟨everywhere_sortKeys hP h.1, itemsEverywhere_sort hP h.2⟩

theorem entriesEverywhere_sort {P : Json → Prop} (hP : ∀ v, P v → P (sortKeys v)) :
    ∀ {entries : List (String × Json)}, EntriesEverywhere P entries →
      EntriesEverywhere P (sortEntries entries)
  | [], _ => trivial
  | _ :: _, h => ⟨everywhere_sortKeys hP h.1, entriesEverywhere_sort hP h.2⟩

end

theorem entriesDepth_le_iff {d : ℕ} :
    entriesDepth entries ≤ d ↔ ∀ e ∈ entries, depth e.2 ≤ d := by
  induction entries with
  | nil => simp [entriesDepth]
  | cons e es ih => rw [entriesDepth, max_le_iff, ih, List.forall_mem_cons]

theorem entriesDepth_perm {as bs : List (String × Json)} (h : as.Perm bs) :
    entriesDepth as = entriesDepth bs := by
  induction h with
  | nil => rfl
  | cons e _ ih => rw [entriesDepth, entriesDepth, ih]
  | swap e e' es => simp only [entriesDepth, max_left_comm]
  | trans _ _ ih ih' => exact ih.trans ih'

mutual

theorem depth_sortKeys : ∀ value : Json, depth (sortKeys value) = depth value
  | .null => rfl
  | .bool _ => rfl
  | .int _ => rfl
  | .float _ => rfl
  | .str _ => rfl
  | .list values => by rw [sortKeys, depth, depth, itemsDepth_sort]
  | .dict entries => by
    rw [sortKeys, depth, depth, entriesDepth_perm (perm_sorted entries), entriesDepth_sort]

theorem itemsDepth_sort : ∀ values : List Json, itemsDepth (sortItems values) = itemsDepth values
  | [] => rfl
  | v :: vs => by rw [sortItems, itemsDepth, itemsDepth, depth_sortKeys v, itemsDepth_sort vs]

theorem entriesDepth_sort : ∀ entries : List (String × Json),
    entriesDepth (sortEntries entries) = entriesDepth entries
  | [] => rfl
  | (_, v) :: es => by
    rw [sortEntries, entriesDepth, entriesDepth, depth_sortKeys v, entriesDepth_sort es]

end

theorem short_sortKeys (h : Short value) : Short (sortKeys value) := by
  refine everywhere_sortKeys (fun v hv => ?_) h
  cases v <;> exact hv

mutual

/-- The values are equal for Python: dictionaries are compared without the order of their keys. -/
inductive Same : Json → Json → Prop where
  | refl (value : Json) : Same value value
  | list {vs ws : List Json} (h : SameItems vs ws) : Same (.list vs) (.list ws)
  | dict {xs ys zs : List (String × Json)} (h : SameEntries xs ys) (hperm : zs.Perm ys) :
    Same (.dict xs) (.dict zs)

inductive SameItems : List Json → List Json → Prop where
  | nil : SameItems [] []
  | cons {v w : Json} {vs ws : List Json} (h : Same v w) (hs : SameItems vs ws) :
    SameItems (v :: vs) (w :: ws)

inductive SameEntries : List (String × Json) → List (String × Json) → Prop where
  | nil : SameEntries [] []
  | cons (key : String) {v w : Json} {xs ys : List (String × Json)} (h : Same v w)
    (hs : SameEntries xs ys) : SameEntries ((key, v) :: xs) ((key, w) :: ys)

end

mutual

/-- **The order of keys makes no difference.** -/
theorem same_sortKeys : ∀ value : Json, Same value (sortKeys value)
  | .null => .refl _
  | .bool _ => .refl _
  | .int _ => .refl _
  | .float _ => .refl _
  | .str _ => .refl _
  | .list values => .list (sameItems_sort values)
  | .dict entries => .dict (sameEntries_sort entries) (perm_sorted entries)

theorem sameItems_sort : ∀ values : List Json, SameItems values (sortItems values)
  | [] => .nil
  | v :: vs => .cons (same_sortKeys v) (sameItems_sort vs)

theorem sameEntries_sort : ∀ entries : List (String × Json),
    SameEntries entries (sortEntries entries)
  | [] => .nil
  | (key, v) :: es => .cons key (same_sortKeys v) (sameEntries_sort es)

end

/-! ## Calls enough -/

section

variable {α β : Type} {calls : ℕ}

/-- What is read in the place of a value, by its depth. -/
def readAs (calls deep : ℕ) (found : α) : Except JsonError α :=
  if deep ≤ calls then .ok found else .error .tooDeep

theorem readAs_of_le {deep : ℕ} (h : deep ≤ calls) (found : α) :
    readAs calls deep found = .ok found := if_pos h

theorem readAs_of_lt {deep : ℕ} (h : calls < deep) (found : α) :
    readAs calls deep found = .error .tooDeep := if_neg h.not_ge

theorem readAs_map (deep : ℕ) (found : α) (f : α → β) :
    (readAs calls deep found).map f = readAs calls deep (f found) := by
  unfold readAs
  split <;> rfl

/-- A list or a dictionary takes one call, and what is in it has the others. -/
theorem readAs_succ (deep : ℕ) (found : α) :
    (if calls = 0 then .error .tooDeep else readAs (calls - 1) deep found) =
      readAs calls (deep + 1) found := by
  rcases calls with _ | calls
  · rfl
  · rw [if_neg (Nat.succ_ne_zero calls), Nat.add_sub_cancel]
    unfold readAs
    simp only [Nat.add_le_add_iff_right]

/-- Of two values one after the other the deeper one decides. -/
theorem readAs_max {first others : ℕ} {found : α} {all : β} {g : α → Except JsonError β}
    (hg : g found = readAs calls others all) :
    (readAs calls first found).bind g = readAs calls (max first others) all := by
  by_cases hfirst : first ≤ calls
  · rw [readAs_of_le hfirst]
    refine hg.trans ?_
    unfold readAs
    simp only [max_le_iff, hfirst, true_and]
  · rw [readAs_of_lt (not_le.mp hfirst), readAs_of_lt (lt_max_of_lt_left (not_le.mp hfirst))]
    rfl

end

mutual

theorem depth_le_length : ∀ value : Json, depth value ≤ (write value).length
  | .null => Nat.zero_le _
  | .bool _ => Nat.zero_le _
  | .int _ => Nat.zero_le _
  | .float _ => Nat.zero_le _
  | .str _ => Nat.zero_le _
  | .list [] => by simp [depth, itemsDepth, write]
  | .list (v :: vs) => by
    have hv := depth_le_length v
    have hvs := itemsDepth_le_length vs
    simp only [depth, itemsDepth, write, List.length_append, List.length_cons]
    omega
  | .dict [] => by simp [depth, entriesDepth, write]
  | .dict ((_, v) :: es) => by
    have hv := depth_le_length v
    have hes := entriesDepth_le_length es
    simp only [depth, entriesDepth, write, List.length_append, List.length_cons]
    omega

theorem itemsDepth_le_length : ∀ values : List Json, itemsDepth values ≤ (writeItems values).length
  | [] => Nat.zero_le _
  | v :: vs => by
    have hv := depth_le_length v
    have hvs := itemsDepth_le_length vs
    simp only [itemsDepth, writeItems, List.length_append, List.length_cons]
    omega

theorem entriesDepth_le_length : ∀ entries : List (String × Json),
    entriesDepth entries ≤ (writeEntries entries).length
  | [] => Nat.zero_le _
  | (_, v) :: es => by
    have hv := depth_le_length v
    have hes := entriesDepth_le_length es
    simp only [entriesDepth, writeEntries, List.length_append, List.length_cons]
    omega

end

section

variable [Floats]

/-! ## Values are read back -/

/-- The text is the `repr` of a float: read as a literal, it is the float of that text. -/
def IsRepr (text : String) : Prop := scanNumber text.toList = .ok (.float text, [])

theorem IsRepr.literal (h : IsRepr text) : floatLiteral text = text := by
  unfold floatLiteral
  split_ifs with hnan hinf hneg
  · subst hnan
    cases h
  · subst hinf
    cases h
  · subst hneg
    cases h
  · rfl

/-- No dictionary has a key twice, and floats are finite. -/
def IsProper : Json → Prop
  | .float text => IsRepr text
  | .dict entries => (entries.map Prod.fst).Nodup
  | _ => True

def Proper (value : Json) : Prop := Everywhere IsProper value

theorem proper_sortKeys (h : Proper value) : Proper (sortKeys value) := by
  refine everywhere_sortKeys (fun v hv => ?_) h
  cases v with
  | dict entries => exact nodup_sorted hv
  | _ => exact hv

variable {cs rest : List Char}

theorem scanOnce_number (h : scanNumber cs = .ok (value, []))
    (hstops : Stops rest) (calls fuel : ℕ) :
    scanOnce calls (fuel + 1) (cs ++ rest) = .ok (value, rest) := by
  have happend := scanNumber_append hstops h
  rw [List.nil_append] at happend
  have hhead := numberHead_of_scanNumber happend
  obtain ⟨c, tail, hcs, -, hquote, hbracket, hbrace⟩ := starts_of_numberHead hhead
  have hkeyword := scanKeyword_of_numberHead hhead
  rw [hcs] at happend hkeyword ⊢
  rw [scanOnce, if_neg hquote, if_neg hbracket, if_neg hbrace, hkeyword]
  exact happend

theorem starts_write (h : Proper value) (hshort : Short value) :
    ∃ c tail, write value = c :: tail ∧ Starts c := by
  cases value with
  | null => exact ⟨_, _, rfl, by decide⟩
  | bool b => cases b <;> exact ⟨_, _, rfl, by decide⟩
  | int n =>
    obtain ⟨c, tail, htext, hstarts, -⟩ :=
      starts_of_numberHead (numberHead_of_scanNumber (scanNumber_int hshort))
    exact ⟨c, tail, by rw [write, htext], hstarts⟩
  | float text =>
    have hrepr : IsRepr text := h
    obtain ⟨c, tail, htext, hstarts, -⟩ :=
      starts_of_numberHead (numberHead_of_scanNumber hrepr)
    exact ⟨c, tail, by rw [write, hrepr.literal, htext], hstarts⟩
  | str s => exact ⟨_, _, rfl, by decide⟩
  | list values => cases values <;> exact ⟨_, _, rfl, by decide⟩
  | dict entries => cases entries <;> exact ⟨_, _, rfl, by decide⟩

theorem skipWs_write (h : Proper value) (hshort : Short value) (rest : List Char) :
    skipWs (write value ++ rest) = write value ++ rest ∧
      (write value ++ rest).head? ≠ some ']' := by
  obtain ⟨c, tail, hwrite, hstarts⟩ := starts_write h hshort
  rw [hwrite, List.cons_append]
  exact ⟨skipWs_of_starts hstarts _, fun hhead => hstarts.2.1 (Option.some.inj hhead)⟩

variable {calls fuel : ℕ} {v : Json}

theorem scanPairs_bind (key : String) : scanPairs calls (fuel + 1) (quoted key ++ ':' :: cs) =
    (scanOnce calls fuel (skipWs cs)).bind fun v =>
      match skipWs v.2 with
      | ',' :: rest =>
        (scanPairs calls fuel (skipWs rest)).map fun es => ((key, v.1) :: es.1, es.2)
      | '\x7d' :: rest => .ok ([(key, v.1)], rest)
      | _ => .error .malformed := by
  obtain ⟨tail, htext, hscan⟩ := scanString_quoted key (':' :: cs)
  rw [htext, scanPairs, if_pos rfl, hscan]
  rfl

mutual

/-- **A written value is read back**, in front of anything that stops a number, if there are calls
enough for it. -/
theorem scanOnce_write : ∀ (value : Json), Proper value → Short value → ∀ (calls fuel : ℕ)
    (rest : List Char), (write value).length ≤ fuel → Stops rest →
      scanOnce calls fuel (write value ++ rest) = readAs calls (depth value) (value, rest)
  | .null, _, _, _, fuel + 1, rest, _, _ => rfl
  | .bool true, _, _, _, fuel + 1, rest, _, _ => rfl
  | .bool false, _, _, _, fuel + 1, rest, _, _ => rfl
  | .int n, _, hshort, calls, fuel + 1, rest, _, hstops => by
    rw [write]
    exact scanOnce_number (scanNumber_int hshort) hstops calls fuel
  | .float text, hproper, _, calls, fuel + 1, rest, _, hstops => by
    have hrepr : IsRepr text := hproper
    rw [write, hrepr.literal]
    exact scanOnce_number hrepr hstops calls fuel
  | .str s, _, _, calls, fuel + 1, rest, _, _ => by
    obtain ⟨tail, htext, hscan⟩ := scanString_quoted s rest
    rw [write, htext, scanOnce, if_pos rfl, hscan]
    rfl
  | .list [], _, _, calls, fuel + 1, rest, _, _ => by
    rw [depth, ← readAs_succ, itemsDepth, readAs_of_le (Nat.zero_le _)]
    rfl
  | .list (v :: vs), hproper, hshort, calls, fuel + 1, rest, hfuel, _ => by
    obtain ⟨-, hv, hvs⟩ := hproper
    obtain ⟨-, hshortv, hshortvs⟩ := hshort
    rw [write, List.length_append, List.length_cons] at hfuel
    have hitems := scanItems_write v vs hv hvs hshortv hshortvs (calls - 1) fuel rest (by omega)
    rw [List.append_assoc] at hitems
    obtain ⟨hskip, hhead⟩ := skipWs_write hv hshortv (writeItems vs ++ rest)
    rw [write, List.append_assoc, List.cons_append, scanOnce, if_neg (by decide), if_pos rfl, hskip,
      if_neg hhead, hitems, readAs_map, readAs_succ, depth]
  | .dict [], _, _, calls, fuel + 1, rest, _, _ => by
    rw [depth, ← readAs_succ, entriesDepth, readAs_of_le (Nat.zero_le _)]
    rfl
  | .dict ((key, v) :: es), hproper, hshort, calls, fuel + 1, rest, hfuel, _ => by
    obtain ⟨hnodup, hv, hes⟩ := hproper
    obtain ⟨-, hshortv, hshortes⟩ := hshort
    have hpairs := scanPairs_write key v es hv hes hshortv hshortes (calls - 1) fuel rest (by
      simp only [write, List.length_append, List.length_cons] at hfuel ⊢
      omega)
    obtain ⟨tail, htext, -⟩ := scanString_quoted key (':' :: write v ++ writeEntries es ++ rest)
    have hwrite : write (.dict ((key, v) :: es)) ++ rest = '\x7b' :: '"' :: tail := by
      rw [← htext]
      simp only [write, List.append_assoc, List.cons_append]
    have hpairs' : scanPairs (calls - 1) fuel ('"' :: tail) =
        readAs (calls - 1) (entriesDepth ((key, v) :: es)) ((key, v) :: es, rest) := by
      rw [← htext, ← hpairs]
      simp only [List.append_assoc, List.cons_append]
    have hskip : skipWs ('"' :: tail) = '"' :: tail := rfl
    have hhead : ¬ ('"' :: tail).head? = some '\x7d' := by simp
    rw [hwrite, scanOnce, if_neg (by decide), if_neg (by decide), if_pos rfl, hskip, if_neg hhead,
      hpairs', readAs_map, readAs_succ, ofEntries_of_nodup hnodup, depth]
  | value, hproper, hshort, _, 0, rest, hfuel, _ => by
    obtain ⟨c, tail, hwrite, -⟩ := starts_write hproper hshort
    rw [hwrite] at hfuel
    cases hfuel

theorem scanItems_write : ∀ (v : Json) (vs : List Json), Proper v → ItemsEverywhere IsProper vs →
    Short v → ItemsEverywhere IsShort vs → ∀ (calls fuel : ℕ) (rest : List Char),
      (write v).length + (writeItems vs).length ≤ fuel →
        scanItems calls fuel (write v ++ writeItems vs ++ rest) =
          readAs calls (itemsDepth (v :: vs)) (v :: vs, rest)
  | v, [], hv, _, hshort, _, calls, fuel + 1, rest, hfuel => by
    have hpos := length_writeItems_pos []
    rw [List.append_assoc, scanItems,
      scanOnce_write v hv hshort calls fuel _ (by omega) (stops_writeItems [] rest), itemsDepth]
    exact readAs_max (readAs_of_le (Nat.zero_le calls) ([v], rest)).symm
  | v, w :: vs, hv, hvs, hshort, hshorts, calls, fuel + 1, rest, hfuel => by
    obtain ⟨hw, hvs⟩ := hvs
    obtain ⟨hshortw, hshorts⟩ := hshorts
    rw [writeItems, List.length_append, List.length_cons] at hfuel
    have hitems := scanItems_write w vs hw hvs hshortw hshorts calls fuel rest (by omega)
    obtain ⟨hskip, -⟩ := skipWs_write hw hshortw (writeItems vs ++ rest)
    rw [List.append_assoc, scanItems,
      scanOnce_write v hv hshort calls fuel _ (by omega) (stops_writeItems (w :: vs) rest),
      itemsDepth]
    refine readAs_max ?_
    show (scanItems calls fuel (skipWs ((write w ++ writeItems vs) ++ rest))).map _ = _
    rw [List.append_assoc, hskip, ← List.append_assoc, hitems, readAs_map]
  | v, vs, hv, _, hshort, _, _, 0, rest, hfuel => by
    have hpos := length_writeItems_pos vs
    omega

theorem scanPairs_write : ∀ (key : String) (v : Json) (es : List (String × Json)), Proper v →
    EntriesEverywhere IsProper es → Short v → EntriesEverywhere IsShort es →
      ∀ (calls fuel : ℕ) (rest : List Char),
      (quoted key ++ ':' :: write v).length + (writeEntries es).length ≤ fuel →
        scanPairs calls fuel (quoted key ++ ':' :: write v ++ writeEntries es ++ rest) =
          readAs calls (entriesDepth ((key, v) :: es)) ((key, v) :: es, rest)
  | key, v, [], hv, _, hshort, _, calls, fuel + 1, rest, hfuel => by
    rw [List.length_append, List.length_cons] at hfuel
    obtain ⟨hskip, -⟩ := skipWs_write hv hshort (writeEntries [] ++ rest)
    have hvalue := scanOnce_write v hv hshort calls fuel _ (by omega) (stops_writeEntries [] rest)
    rw [← hskip] at hvalue
    rw [List.append_assoc, List.append_assoc, List.cons_append, scanPairs_bind, hvalue,
      entriesDepth]
    exact readAs_max (readAs_of_le (Nat.zero_le calls) ([(key, v)], rest)).symm
  | key, v, (key', w) :: es, hv, hes, hshort, hshorts, calls, fuel + 1, rest, hfuel => by
    obtain ⟨hw, hes⟩ := hes
    obtain ⟨hshortw, hshorts⟩ := hshorts
    simp only [writeEntries, List.length_append, List.length_cons] at hfuel
    have hpairs := scanPairs_write key' w es hw hes hshortw hshorts calls fuel rest (by
      simp only [List.length_append, List.length_cons]
      omega)
    obtain ⟨hskip, -⟩ := skipWs_write hv hshort (writeEntries ((key', w) :: es) ++ rest)
    have hvalue := scanOnce_write v hv hshort calls fuel _ (by omega)
      (stops_writeEntries ((key', w) :: es) rest)
    rw [← hskip] at hvalue
    rw [List.append_assoc, List.append_assoc, List.cons_append, scanPairs_bind, hvalue,
      entriesDepth]
    refine readAs_max ?_
    show (scanPairs calls fuel (quoted key' ++ ':' :: write w ++ writeEntries es ++ rest)).map _ = _
    rw [hpairs, readAs_map]
  | key, v, es, hv, _, hshort, _, _, 0, rest, hfuel => by
    have hpos := length_writeEntries_pos es
    omega

end

/-- **What is written is read back**, with the keys in order, if there are calls enough. -/
theorem loadsWithin_dumps (h : Proper value) (hshort : Short value) (calls : ℕ) :
    loadsWithin calls (dumps value) = readAs calls (depth value) (sortKeys value) := by
  have hproper := proper_sortKeys h
  have hshort' := short_sortKeys hshort
  obtain ⟨hskip, -⟩ := skipWs_write hproper hshort' []
  have hscan := scanOnce_write _ hproper hshort' calls ((dumps value).length + 1) [] (by
    rw [dumps, String.length_ofList]
    omega) stops_nil
  rw [← hskip, List.append_nil, depth_sortKeys] at hscan
  unfold loadsWithin
  rw [dumps, String.toList_ofList, ← dumps, hscan]
  by_cases hdepth : depth value ≤ calls
  · rw [readAs_of_le hdepth, readAs_of_le hdepth]
    rfl
  · rw [readAs_of_lt (not_le.mp hdepth), readAs_of_lt (not_le.mp hdepth)]
    rfl

theorem loads_dumps (h : Proper value) (hshort : Short value) :
    loads (dumps value) = .ok (sortKeys value) := by
  unfold loads
  rw [loadsWithin_dumps h hshort]
  refine readAs_of_le ?_ _
  rw [dumps, String.length_ofList, ← depth_sortKeys]
  exact depth_le_length _

end

end WezuBackend.Streams.JsonCodec
