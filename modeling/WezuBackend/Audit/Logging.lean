import WezuBackend.Lib.Entries
import WezuBackend.Streams.Events
import Mathlib.Data.List.Infix

/-!
# What is logged

`sanitize_for_logging` of `app/core/logging.py` bounds a value and hides what is stored under keys
that hold a marker (`isSensitiveKey`).  It cuts a key to 128 characters before it looks for markers,
so a value under a key with its marker further on is logged (`secret_logged`); it is hidden exactly
when the cut key still holds a marker, or the entry does not come into the log at all
(`Hidden`, `noninterference_iff`).
-/

namespace WezuBackend.Audit.Logging

open Lib.Entries Streams.Events

/-! ## The program -/

structure Settings where
  logMaxCollectionItems : ℤ := 50
  logMaxFieldLength : ℤ := 2048
  logRedactSensitiveFields : Bool := true

def sensitiveKeyMarkers : List String :=
  ["password", "secret", "token", "authorization", "cookie", "apikey", "api_key", "access_key",
    "private_key", "refresh", "otp", "pin", "passcode", "signature"]

def redacted : Json := .str "***REDACTED***"

/-- The note on what is cut off. -/
def truncatedNote (count : ℕ) : String := "...(truncated:" ++ toString count ++ ")"

def truncateString (value : String) (maxLen : ℕ) : String :=
  if maxLen = 0 ∨ value.length ≤ maxLen then value
  else String.ofList (value.toList.take maxLen) ++ truncatedNote (value.length - maxLen)

/-- `str.lower` of a character, as far as the markers go: the Kelvin sign and the dotted I are the
only other characters that become ASCII letters. -/
def lowerChar (c : Char) : List Char :=
  if c.toNat = 0x212a then ['k']
  else if c.toNat = 0x130 then ['i', Char.ofNat 0x307]
  else [c.toLower]

def isSensitiveKey (key : String) : Bool :=
  let normalized := (key.toList.flatMap lowerChar).map fun c => if c = '-' then '_' else c
  sensitiveKeyMarkers.any fun marker => marker.toList <:+: normalized

section

variable (settings : Settings)

def maxItems : ℕ :=
  (max 1 (if settings.logMaxCollectionItems = 0 then 50
    else settings.logMaxCollectionItems)).toNat

def maxFieldLen : ℕ :=
  (max 32 (if settings.logMaxFieldLength = 0 then 2048 else settings.logMaxFieldLength)).toNat

/-- The key of an entry in the log. -/
def loggedKey (rawKey : String) : String := truncateString rawKey 128

/-- The key under which the number of left out entries is logged. -/
def truncatedItems : String := "__truncated_items__"

/-- The log of an entry, when `sanitize` is what is logged of its value. -/
def logEntry (sanitize : Json → Json) (entry : String × Json) : String × Json :=
  let key := loggedKey entry.1
  (key, if settings.logRedactSensitiveFields ∧ isSensitiveKey key then redacted
    else sanitize entry.2)

/-- What is logged besides the entries. -/
def overflow (size : ℕ) : List (String × Json) :=
  if maxItems settings < size then [(truncatedItems, .int (size - maxItems settings : ℕ))] else []

/-- `sanitize_for_logging`, when `levels` more levels are looked into. -/
def sanitizeWithin (levels : ℕ) (value : Json) : Json :=
  match levels with
  | 0 => .str "<max_depth>"
  | levels + 1 =>
    match value with
    | .str text => .str (truncateString text (maxFieldLen settings))
    | .dict entries =>
      .dict (ofEntries ((entries.take (maxItems settings)).map
        (logEntry settings (sanitizeWithin levels)) ++ overflow settings entries.length))
    | .list values =>
      .list ((values.take (maxItems settings)).map (sanitizeWithin levels) ++
        if maxItems settings < values.length then
          [.str (truncatedNote (values.length - maxItems settings))] else [])
    | value => value

/-- `sanitize_for_logging`: below six levels nothing is shown. -/
def sanitizeForLogging (value : Json) : Json := sanitizeWithin settings 6 value

end

/-! ## Values that differ in secrets -/

mutual

/-- The values differ only in what is stored under sensitive keys. -/
inductive Alike : Json → Json → Prop where
  | same (value : Json) : Alike value value
  | list {vs ws : List Json} (h : AlikeItems vs ws) : Alike (.list vs) (.list ws)
  | dict {xs ys : List (String × Json)} (h : AlikeEntries xs ys) : Alike (.dict xs) (.dict ys)

inductive AlikeItems : List Json → List Json → Prop where
  | nil : AlikeItems [] []
  | cons {v w : Json} {vs ws : List Json} (h : Alike v w) (hs : AlikeItems vs ws) :
    AlikeItems (v :: vs) (w :: ws)

inductive AlikeEntries : List (String × Json) → List (String × Json) → Prop where
  | nil : AlikeEntries [] []
  | secret {key : String} (hkey : isSensitiveKey key = true) (v w : Json)
    {xs ys : List (String × Json)} (hs : AlikeEntries xs ys) :
    AlikeEntries ((key, v) :: xs) ((key, w) :: ys)
  | plain {key : String} {v w : Json} (h : Alike v w) {xs ys : List (String × Json)}
    (hs : AlikeEntries xs ys) : AlikeEntries ((key, v) :: xs) ((key, w) :: ys)

end

/-- Nothing of a secret is logged: whatever stands under sensitive keys, the log is the same. -/
def NoninterferingWithin (settings : Settings) (levels : ℕ) (value : Json) : Prop :=
  ∀ other, Alike value other → sanitizeWithin settings levels value =
    sanitizeWithin settings levels other

def Noninterfering (settings : Settings) (value : Json) : Prop :=
  ∀ other, Alike value other → sanitizeForLogging settings value = sanitizeForLogging settings other

/-! ## Where secrets are hidden -/

/-- The entries that no later one with the same logged key replaces. -/
def lasting : List (String × Json) → List (String × Json)
  | [] => []
  | entry :: entries =>
    if loggedKey entry.1 ∈ entries.map fun e => loggedKey e.1 then lasting entries
    else entry :: lasting entries

/-- The entries whose values come into the log of a dictionary. -/
def loggedEntries (settings : Settings) (entries : List (String × Json)) : List (String × Json) :=
  (lasting (entries.take (maxItems settings))).filter fun e =>
    isSensitiveKey (loggedKey e.1) = false ∧
      (maxItems settings < entries.length → loggedKey e.1 ≠ truncatedItems)

/-- Of the entries that are logged with their values, at each level that is looked into, none has a
sensitive key, unless the level below is not looked into. -/
def HiddenWithin (settings : Settings) : ℕ → Json → Prop
  | 0, _ => True
  | levels + 1, .list values =>
    ∀ value ∈ values.take (maxItems settings), HiddenWithin settings levels value
  | levels + 1, .dict entries =>
    ∀ e ∈ loggedEntries settings entries,
      if isSensitiveKey e.1 then levels = 0 else HiddenWithin settings levels e.2
  | _ + 1, _ => True

def Hidden (settings : Settings) (value : Json) : Prop := HiddenWithin settings 6 value

variable {values : List Json}

theorem hiddenWithin_list {settings : Settings} {levels : ℕ} :
    HiddenWithin settings (levels + 1) (.list values) ↔
      ∀ value ∈ values.take (maxItems settings), HiddenWithin settings levels value := by
  rw [HiddenWithin]

variable {entries : List (String × Json)}

theorem hiddenWithin_dict {settings : Settings} {levels : ℕ} :
    HiddenWithin settings (levels + 1) (.dict entries) ↔ ∀ e ∈ loggedEntries settings entries,
      if isSensitiveKey e.1 then levels = 0 else HiddenWithin settings levels e.2 := by
  rw [HiddenWithin]

instance decidableHidden (settings : Settings) :
    ∀ (levels : ℕ) (value : Json), Decidable (HiddenWithin settings levels value)
  | 0, _ => isTrue trivial
  | levels + 1, .list _ =>
    have : DecidablePred (HiddenWithin settings levels) := decidableHidden settings levels
    decidable_of_iff' _ hiddenWithin_list
  | levels + 1, .dict _ =>
    have : DecidablePred (HiddenWithin settings levels) := decidableHidden settings levels
    decidable_of_iff' _ hiddenWithin_dict
  | _ + 1, .null => isTrue trivial
  | _ + 1, .bool _ => isTrue trivial
  | _ + 1, .int _ => isTrue trivial
  | _ + 1, .float _ => isTrue trivial
  | _ + 1, .str _ => isTrue trivial

instance (settings : Settings) (value : Json) : Decidable (Hidden settings value) :=
  inferInstanceAs (Decidable (HiddenWithin settings 6 value))

/-! ## Alike values, entry by entry -/

theorem AlikeItems.forall₂ : ∀ {vs ws : List Json}, AlikeItems vs ws → List.Forall₂ Alike vs ws
  | _, _, .nil => .nil
  | _, _, .cons h hs => .cons h hs.forall₂

theorem AlikeEntries.forall₂ : ∀ {xs ys : List (String × Json)}, AlikeEntries xs ys →
    List.Forall₂ (fun a b => a.1 = b.1 ∧ (isSensitiveKey a.1 = false → Alike a.2 b.2)) xs ys
  | _, _, .nil => .nil
  | _, _, .secret hkey _ _ hs => .cons ⟨rfl, fun h => by rw [hkey] at h; cases h⟩ hs.forall₂
  | _, _, .plain h hs => .cons ⟨rfl, fun _ => h⟩ hs.forall₂

theorem alikeItems_refl : ∀ vs : List Json, AlikeItems vs vs
  | [] => .nil
  | v :: vs => .cons (.same v) (alikeItems_refl vs)

theorem alikeEntries_refl : ∀ xs : List (String × Json), AlikeEntries xs xs
  | [] => .nil
  | (_, v) :: xs => .plain (.same v) (alikeEntries_refl xs)

theorem alikeItems_replaced {v w : Json} (h : Alike v w) (after : List Json) :
    ∀ before : List Json, AlikeItems (before ++ v :: after) (before ++ w :: after)
  | [] => .cons h (alikeItems_refl after)
  | u :: before => .cons (.same u) (alikeItems_replaced h after before)

theorem alikeEntries_replaced {key : String} {v w : Json}
    (h : isSensitiveKey key = false → Alike v w) (after : List (String × Json)) :
    ∀ before : List (String × Json),
      AlikeEntries (before ++ (key, v) :: after) (before ++ (key, w) :: after)
  | [] => by
    rcases hkey : isSensitiveKey key with _ | _
    · exact .plain (h hkey) (alikeEntries_refl after)
    · exact .secret hkey v w (alikeEntries_refl after)
  | (_, u) :: before => .plain (.same u) (alikeEntries_replaced h after before)

/-! ## Lasting entries -/

theorem mem_lasting {xs : List (String × Json)} {e : String × Json} (h : e ∈ lasting xs) :
    ∃ before after, xs = before ++ e :: after ∧
      loggedKey e.1 ∉ after.map fun e => loggedKey e.1 := by
  induction xs with
  | nil => cases h
  | cons x xs ih =>
    have htail : e ∈ lasting xs → ∃ before after, x :: xs = before ++ e :: after ∧
        loggedKey e.1 ∉ after.map fun e => loggedKey e.1 := by
      intro hmem
      obtain ⟨before, after, hsplit, hlast⟩ := ih hmem
      exact ⟨x :: before, after, by rw [hsplit, List.cons_append], hlast⟩
    unfold lasting at h
    split_ifs at h with hlater
    · exact htail h
    · rcases List.mem_cons.mp h with rfl | hmem
      · exact ⟨[], xs, rfl, hlater⟩
      · exact htail hmem

theorem lasting_subset_cons (x : String × Json) (xs : List (String × Json)) :
    lasting xs ⊆ lasting (x :: xs) := by
  intro e he
  rw [lasting]
  split_ifs
  · exact he
  · exact List.mem_cons_of_mem x he

section

variable {settings : Settings} {levels : ℕ}

variable {k : String} {xs ys : List (String × Json)}

theorem lookup_logged_eq {sanitize : Json → Json}
    (h : List.Forall₂ (fun a b => a.1 = b.1 ∧ (isSensitiveKey a.1 = false → Alike a.2 b.2)) xs ys)
    (hsame : ∀ a ∈ lasting xs, loggedKey a.1 = k → ∀ w,
      (isSensitiveKey a.1 = false → Alike a.2 w) →
        (logEntry settings sanitize a).2 = (logEntry settings sanitize (a.1, w)).2) :
    (xs.map (logEntry settings sanitize)).reverse.lookup k =
      (ys.map (logEntry settings sanitize)).reverse.lookup k := by
  induction h with
  | nil => rfl
  | @cons a b xs ys hab hs ih =>
    obtain ⟨key, v⟩ := a
    obtain ⟨key', w⟩ := b
    obtain ⟨rfl, halike⟩ := hab
    have htail := ih fun a ha => hsame a (lasting_subset_cons _ _ ha)
    simp only [List.map_cons, List.reverse_cons, List.lookup_append, htail]
    rcases hlast : (ys.map (logEntry settings sanitize)).reverse.lookup k with _ | x
    · -- no later entry has the key
      by_cases hk : loggedKey key = k
      · have hnone : loggedKey key ∉ xs.map fun e => loggedKey e.1 := by
          have hxs := lookup_eq_none.mp (htail.trans hlast)
          rw [List.map_reverse, List.mem_reverse, List.map_map] at hxs
          rw [hk]
          exact hxs
        have hmem : (key, v) ∈ lasting ((key, v) :: xs) := by
          rw [lasting, if_neg hnone]
          exact List.mem_cons_self
        have hvalue := hsame _ hmem hk w halike
        have hentry : logEntry settings sanitize (key, v) =
            logEntry settings sanitize (key, w) := Prod.ext rfl hvalue
        rw [hentry]
      · have hne : (k == loggedKey key) = false := beq_false_of_ne (Ne.symm hk)
        simp [logEntry, List.lookup_cons, hne]
    · rfl

theorem length_eq_of_alike (h : AlikeEntries xs ys) :
    xs.length = ys.length := h.forall₂.length_eq

theorem take_front {α : Type} {l front : List α} {m : ℕ}
    (h : front.length = (l.take m).length) : (front ++ l.drop m).take m = front := by
  rw [List.length_take] at h
  rcases le_total m l.length with hle | hle
  · rw [List.take_left' (by omega)]
  · rw [List.drop_eq_nil_of_le hle, List.append_nil, List.take_of_length_le (by omega)]

theorem map_eq_of_alike {f : Json → Json} {vs ws : List Json} (h : List.Forall₂ Alike vs ws)
    (hf : ∀ v ∈ vs, ∀ w, Alike v w → f v = f w) : vs.map f = ws.map f := by
  induction h with
  | nil => rfl
  | cons hvw _ ih =>
    obtain ⟨hfirst, hrest⟩ := List.forall_mem_cons.mp hf
    rw [List.map_cons, List.map_cons, hfirst _ hvw, ih hrest]

theorem noninterfering_list :
    NoninterferingWithin settings (levels + 1) (.list values) ↔
      ∀ value ∈ values.take (maxItems settings), NoninterferingWithin settings levels value := by
  constructor
  · intro h value hvalue other halike
    obtain ⟨before, after, hsplit⟩ := List.append_of_mem hvalue
    have hvalues : values = before ++ value :: (after ++ values.drop (maxItems settings)) := by
      rw [← List.cons_append, ← List.append_assoc, ← hsplit, List.take_append_drop]
    have hothers : AlikeItems values
        ((before ++ other :: after) ++ values.drop (maxItems settings)) := by
      conv_lhs => rw [hvalues]
      rw [List.append_assoc, List.cons_append]
      exact alikeItems_replaced halike _ before
    have hlen : (before ++ other :: after).length =
        (values.take (maxItems settings)).length := by
      rw [hsplit, List.length_append, List.length_append, List.length_cons, List.length_cons]
    have hlogs := h _ (.list hothers)
    rw [sanitizeWithin, sanitizeWithin, take_front hlen, ← hothers.forall₂.length_eq, hsplit]
      at hlogs
    have hitems := List.append_cancel_right (Json.list.inj hlogs)
    rw [List.map_append, List.map_append] at hitems
    exact (List.cons.inj (List.append_cancel_left hitems)).1
  · intro h other halike
    cases halike with
    | same => rfl
    | list hitems =>
      rename_i ws
      have hforall := hitems.forall₂
      have hlen := hforall.length_eq
      have hlogs := map_eq_of_alike (List.forall₂_take (maxItems settings) hforall) h
      rw [sanitizeWithin, sanitizeWithin, hlogs, hlen]

/-! ## Dictionaries -/

variable {key : String}

theorem logEntry_of_secret (hon : settings.logRedactSensitiveFields = true)
    (sanitize : Json → Json) (h : isSensitiveKey (loggedKey key) = true)
    (value : Json) : (logEntry settings sanitize (key, value)).2 = redacted := if_pos ⟨hon, h⟩

theorem logEntry_of_plain (sanitize : Json → Json)
    (h : isSensitiveKey (loggedKey key) = false) (value : Json) :
    (logEntry settings sanitize (key, value)).2 = sanitize value := by
  refine if_neg ?_
  rw [h]
  rintro ⟨-, hkey⟩
  cases hkey

theorem exists_log_ne (settings : Settings) (levels : ℕ) (value : Json) :
    ∃ other, sanitizeWithin settings (levels + 1) value ≠
      sanitizeWithin settings (levels + 1) other := by
  by_contra hall
  push Not at hall
  have hfirst := hall .null
  have hsecond := hall (.bool true)
  rw [hfirst] at hsecond
  cases hsecond

theorem keys_logged (sanitize : Json → Json) (entries : List (String × Json)) :
    (entries.map (logEntry settings sanitize)).map Prod.fst =
      entries.map fun e => loggedKey e.1 := by
  rw [List.map_map]
  rfl

variable {size : ℕ}

theorem keys_overflow (h : k ∈ (overflow settings size).map Prod.fst) :
    maxItems settings < size ∧ k = truncatedItems := by
  unfold overflow at h
  split_ifs at h with hsize
  · exact ⟨hsize, by simpa using h⟩
  · cases h

/-- **An entry that comes into the log** is known from it. -/
theorem lookup_logged {before after : List (String × Json)}
    (sanitize : Json → Json) (hlast : loggedKey key ∉ after.map fun e => loggedKey e.1)
    (hsize : maxItems settings < size → loggedKey key ≠ truncatedItems) (value : Json) :
    (((before ++ (key, value) :: after).map (logEntry settings sanitize)) ++
        overflow settings size).reverse.lookup (loggedKey key) =
      some (logEntry settings sanitize (key, value)).2 := by
  rw [List.map_append, List.map_cons, List.append_assoc, List.cons_append]
  refine lookup_reverse_of_last ?_
  rw [List.map_append, List.mem_append, keys_logged]
  rintro (hafter | hover)
  · exact hlast hafter
  · obtain ⟨hlt, hkey⟩ := keys_overflow hover
    exact hsize hlt hkey

/-- The log shows what is stored under the key of an entry that comes into it. -/
theorem shown_of_noninterfering {value : Json}
    (h : NoninterferingWithin settings (levels + 1) (.dict entries))
    (he : (key, value) ∈ loggedEntries settings entries) {other : Json}
    (halike : isSensitiveKey key = false → Alike value other) :
    sanitizeWithin settings levels value = sanitizeWithin settings levels other := by
  obtain ⟨hlasting, hlogged⟩ := List.mem_filter.mp he
  obtain ⟨hplain, hsize⟩ := of_decide_eq_true hlogged
  obtain ⟨before, after, hsplit, hlast⟩ := mem_lasting hlasting
  have hentries : entries =
      before ++ (key, value) :: (after ++ entries.drop (maxItems settings)) := by
    rw [← List.cons_append, ← List.append_assoc, ← hsplit, List.take_append_drop]
  have hothers : AlikeEntries entries
      ((before ++ (key, other) :: after) ++ entries.drop (maxItems settings)) := by
    conv_lhs => rw [hentries]
    rw [List.append_assoc, List.cons_append]
    exact alikeEntries_replaced halike _ before
  have hlen : (before ++ (key, other) :: after).length =
      (entries.take (maxItems settings)).length := by
    rw [hsplit, List.length_append, List.length_append, List.length_cons, List.length_cons]
  have hlogs := h _ (.dict hothers)
  rw [sanitizeWithin, sanitizeWithin, take_front hlen, ← length_eq_of_alike hothers, hsplit]
    at hlogs
  have hkey := congrArg (List.lookup (loggedKey key)) (Json.dict.inj hlogs)
  rw [lookup_ofEntries, lookup_ofEntries, lookup_logged _ hlast hsize, lookup_logged _ hlast hsize,
    logEntry_of_plain _ hplain, logEntry_of_plain _ hplain] at hkey
  exact Option.some.inj hkey

theorem noninterfering_dict (hon : settings.logRedactSensitiveFields = true) :
    NoninterferingWithin settings (levels + 1) (.dict entries) ↔
      ∀ e ∈ loggedEntries settings entries, if isSensitiveKey e.1 then levels = 0
        else NoninterferingWithin settings levels e.2 := by
  constructor
  · rintro h ⟨key, value⟩ he
    split_ifs with hsecret
    · rcases levels with _ | levels
      · rfl
      · obtain ⟨other, hother⟩ := exists_log_ne settings levels value
        refine absurd (shown_of_noninterfering h he fun hkey => ?_) hother
        rw [hkey] at hsecret
        cases hsecret
    · exact fun other halike => shown_of_noninterfering h he fun _ => halike
  · intro h other halike
    cases halike with
    | same => rfl
    | dict hothers =>
      rename_i others
      have hforall := List.forall₂_take (maxItems settings) hothers.forall₂
      have hkeys : (entries.take (maxItems settings)).map (fun e => loggedKey e.1) =
          (others.take (maxItems settings)).map fun e => loggedKey e.1 := by
        refine List.forall₂_eq_eq_eq ▸ ?_
        rw [List.forall₂_map_left_iff, List.forall₂_map_right_iff]
        exact hforall.imp fun a b hab => congrArg loggedKey hab.1
      rw [sanitizeWithin, sanitizeWithin, ← length_eq_of_alike hothers]
      refine congrArg Json.dict ((ofEntries_eq_iff ?_).mpr fun k => ?_)
      · rw [List.map_append, List.map_append, keys_logged, keys_logged, hkeys]
      · rw [List.reverse_append, List.reverse_append, List.lookup_append, List.lookup_append]
        rcases hover : (overflow settings entries.length).reverse.lookup k with _ | x
        · rw [lookup_logged_eq hforall]
          rintro ⟨key, value⟩ ha rfl w hw
          rcases hsecret : isSensitiveKey (loggedKey key) with _ | _
          · rw [logEntry_of_plain _ hsecret, logEntry_of_plain _ hsecret]
            have hlogged : (key, value) ∈ loggedEntries settings entries := by
              refine List.mem_filter.mpr ⟨ha, decide_eq_true ⟨hsecret, fun hsize hkey => ?_⟩⟩
              rw [hkey, overflow, if_pos hsize] at hover
              cases hover
            have hvalue := h _ hlogged
            split_ifs at hvalue with hkey
            · subst hvalue
              rfl
            · exact hvalue w (hw (Bool.eq_false_iff.mpr hkey))
          · rw [logEntry_of_secret hon _ hsecret, logEntry_of_secret hon _ hsecret]
        · rfl

/-- A value that is neither a list nor a dictionary is like no other. -/
theorem noninterferingWithin_iff (hon : settings.logRedactSensitiveFields = true) (levels : ℕ)
    (value : Json) :
    NoninterferingWithin settings levels value ↔ HiddenWithin settings levels value := by
  induction levels generalizing value with
  | zero => exact iff_of_true (fun _ _ => rfl) trivial
  | succ levels ih =>
    cases value with
    | list values =>
      rw [noninterfering_list]
      exact forall₂_congr fun value _ => ih value
    | dict entries =>
      rw [noninterfering_dict hon]
      refine forall₂_congr fun e _ => ?_
      split_ifs
      · rfl
      · exact ih e.2
    | _ =>
      refine iff_of_true (fun other halike => ?_) trivial
      cases halike
      rfl

/-- **Secrets stay out of the log** exactly if they are hidden. -/
theorem noninterference_iff (hon : settings.logRedactSensitiveFields = true) (value : Json) :
    Noninterfering settings value ↔ Hidden settings value :=
  noninterferingWithin_iff hon 6 value

end

/-! ## A login and a long key -/

def login : Json :=
  .dict [("user", .str "asha"), ("password", .str "hunter2"),
    ("device", .dict [("os", .str "android"), ("push-token", .str "f81d")])]

theorem noninterference_sample : Noninterfering {} login :=
  (noninterference_iff rfl login).mpr (by decide +kernel)

/-- A key whose marker stands behind its first 128 characters. -/
def longKey : String := String.ofList (List.replicate 128 'x') ++ "_password"

/-- The password under it is logged. -/
theorem secret_logged : ¬ Noninterfering {} (.dict [(longKey, .str "hunter2")]) := by
  intro h
  exact absurd ((noninterference_iff rfl _).mp h) (by decide +kernel)

end WezuBackend.Audit.Logging
