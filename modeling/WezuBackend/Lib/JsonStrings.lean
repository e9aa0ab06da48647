import Mathlib.Data.List.Basic
import Mathlib.Data.Option.Basic

/-!
# Strings of JSON, in ASCII

A character is written as its UTF-16 units: a unit that prints in ASCII stands for itself, unless it
is a quote or a backslash; the others are escaped, with a letter or with four hexadecimal digits.
Reading gives the units back, and pairs of surrogates are joined (`scanString_escape`).  A lone
surrogate is no character, so a string with one is not read.
-/

namespace WezuBackend.Lib.JsonStrings

/-! ## Units -/

def isHigh (u : ℕ) : Bool := 0xd800 ≤ u ∧ u < 0xdc00

def isLow (u : ℕ) : Bool := 0xdc00 ≤ u ∧ u < 0xe000

def unitsOf (c : Char) : List ℕ :=
  if c.toNat < 0x10000 then [c.toNat]
  else [0xd800 + (c.toNat - 0x10000) / 0x400, 0xdc00 + (c.toNat - 0x10000) % 0x400]

def joinUnits : List ℕ → Option (List Char)
  | [] => some []
  | [u] => if isHigh u ∨ isLow u then none else some [Char.ofNat u]
  | u :: v :: us =>
    if isHigh u then
      if isLow v then
        (joinUnits us).map (Char.ofNat (0x10000 + (u - 0xd800) * 0x400 + (v - 0xdc00)) :: ·)
      else none
    else if isLow u then none
    else (joinUnits (v :: us)).map (Char.ofNat u :: ·)

theorem valid_toNat (c : Char) : c.toNat < 0xd800 ∨ 0xdfff < c.toNat ∧ c.toNat < 0x110000 :=
  c.valid

theorem joinUnits_unitsOf (c : Char) (us : List ℕ) :
    joinUnits (unitsOf c ++ us) = (joinUnits us).map (c :: ·) := by
  have hvalid := valid_toNat c
  unfold unitsOf
  by_cases hbmp : c.toNat < 0x10000
  · have hhigh : isHigh c.toNat = false := by
      rw [isHigh, decide_eq_false_iff_not]
      omega
    have hlow : isLow c.toNat = false := by
      rw [isLow, decide_eq_false_iff_not]
      omega
    rw [if_pos hbmp, List.singleton_append]
    rcases us with _ | ⟨v, us⟩
    · simp [joinUnits, hhigh, hlow, Char.ofNat_toNat]
    · simp [joinUnits, hhigh, hlow, Char.ofNat_toNat]
  · have hhigh : isHigh (0xd800 + (c.toNat - 0x10000) / 0x400) = true := by
      rw [isHigh, decide_eq_true_eq]
      omega
    have hlow : isLow (0xdc00 + (c.toNat - 0x10000) % 0x400) = true := by
      rw [isLow, decide_eq_true_eq]
      omega
    have hjoin : 0x10000 + (0xd800 + (c.toNat - 0x10000) / 0x400 - 0xd800) * 0x400 +
        (0xdc00 + (c.toNat - 0x10000) % 0x400 - 0xdc00) = c.toNat := by
      omega
    rw [if_neg hbmp, List.cons_append, List.singleton_append, joinUnits, if_pos hhigh, if_pos hlow,
      hjoin, Char.ofNat_toNat]

theorem joinUnits_flatMap (cs : List Char) : joinUnits (cs.flatMap unitsOf) = some cs := by
  induction cs with
  | nil => rfl
  | cons c cs ih => rw [List.flatMap_cons, joinUnits_unitsOf, ih, Option.map_some]

variable {u : ℕ}

theorem unitsOf_lt {c : Char} (h : u ∈ unitsOf c) : u < 0x10000 := by
  have hvalid := valid_toNat c
  unfold unitsOf at h
  split_ifs at h with hbmp
  · rw [List.mem_singleton.mp h]
    exact hbmp
  · rcases List.mem_pair.mp h with hu | hu
    · omega
    · omega

/-! ## Writing -/

/-- The letters that stand for a unit behind a backslash. -/
def letters : List (Char × ℕ) :=
  [('"', 34), ('\\', 92), ('/', 47), ('b', 8), ('f', 12), ('n', 10), ('r', 13), ('t', 9)]

def hexDigit (d : ℕ) : Char :=
  if d < 10 then Char.ofNat (48 + d) else Char.ofNat (87 + d)

def hexText (u : ℕ) : List Char :=
  [hexDigit (u / 4096 % 16), hexDigit (u / 256 % 16), hexDigit (u / 16 % 16), hexDigit (u % 16)]

def escapeUnit (u : ℕ) : List Char :=
  if u = 34 ∨ u = 92 then ['\\', Char.ofNat u]
  else if u = 8 then ['\\', 'b']
  else if u = 9 then ['\\', 't']
  else if u = 10 then ['\\', 'n']
  else if u = 12 then ['\\', 'f']
  else if u = 13 then ['\\', 'r']
  else if 32 ≤ u ∧ u ≤ 126 then [Char.ofNat u]
  else '\\' :: 'u' :: hexText u

/-- The text between the quotes. -/
def escape (cs : List Char) : List Char := (cs.flatMap unitsOf).flatMap escapeUnit

/-! ## Reading -/

def hexVal (c : Char) : Option ℕ :=
  if 48 ≤ c.toNat ∧ c.toNat ≤ 57 then some (c.toNat - 48)
  else if 97 ≤ c.toNat ∧ c.toNat ≤ 102 then some (c.toNat - 87)
  else if 65 ≤ c.toNat ∧ c.toNat ≤ 70 then some (c.toNat - 55)
  else none

def scanHex : List Char → Option (ℕ × List Char)
  | a :: b :: c :: d :: rest => do
    let a ← hexVal a
    let b ← hexVal b
    let c ← hexVal c
    let d ← hexVal d
    return (a * 4096 + b * 256 + c * 16 + d, rest)
  | _ => none

/-- What follows a backslash. -/
def scanEscape : List Char → Option (ℕ × List Char)
  | [] => none
  | c :: rest => if c = 'u' then scanHex rest else (letters.lookup c).map fun u => (u, rest)

/-- The units up to the closing quote, at most `fuel - 1` of them; a control character is refused.
-/
def scanUnits : ℕ → List Char → Option (List ℕ × List Char)
  | 0, _ => none
  | _ + 1, [] => none
  | fuel + 1, c :: rest =>
    if c = '"' then some ([], rest)
    else if c = '\\' then
      (scanEscape rest).bind fun e => (scanUnits fuel e.2).map fun p => (e.1 :: p.1, p.2)
    else if c.toNat < 32 then none
    else (scanUnits fuel rest).map fun p => (unitsOf c ++ p.1, p.2)

/-- A string behind its opening quote. -/
def scanString (cs : List Char) : Option (String × List Char) :=
  (scanUnits (cs.length + 1) cs).bind fun p =>
    (joinUnits p.1).map fun chars => (String.ofList chars, p.2)

/-! ## What is written is read back -/

theorem hexVal_hexDigit : ∀ d < 16, hexVal (hexDigit d) = some d := by decide

theorem scanHex_hexText (h : u < 0x10000) (rest : List Char) :
    scanHex (hexText u ++ rest) = some (u, rest) := by
  have hsum : u / 4096 % 16 * 4096 + u / 256 % 16 * 256 + u / 16 % 16 * 16 + u % 16 = u := by omega
  simp only [hexText, List.cons_append, List.nil_append, scanHex,
    hexVal_hexDigit _ (Nat.mod_lt _ (by omega)), Option.bind_eq_bind, Option.bind_some, hsum]
  rfl

theorem ofNat_printable : ∀ u < 127, 32 ≤ u → (Char.ofNat u).toNat = u ∧
    (u ≠ 34 → Char.ofNat u ≠ '"') ∧ (u ≠ 92 → Char.ofNat u ≠ '\\') := by
  decide

/-- **A unit is read back.** -/
theorem scanUnits_escapeUnit (h : u < 0x10000) (fuel : ℕ) (rest : List Char) :
    scanUnits (fuel + 1) (escapeUnit u ++ rest) =
      (scanUnits fuel rest).map fun p => (u :: p.1, p.2) := by
  have hletter : ∀ (c : Char), c ≠ 'u' → letters.lookup c = some u →
      scanUnits (fuel + 1) ('\\' :: c :: rest) =
        (scanUnits fuel rest).map fun p => (u :: p.1, p.2) := by
    intro c hc hlookup
    rw [scanUnits, if_neg (by decide), if_pos rfl, scanEscape, if_neg hc, hlookup,
      Option.map_some, Option.bind_some]
  unfold escapeUnit
  split_ifs with h1 h2 h3 h4 h5 h6 h7
  · rcases h1 with rfl | rfl
    · exact hletter '"' (by decide) (by decide)
    · exact hletter '\\' (by decide) (by decide)
  · subst h2
    exact hletter 'b' (by decide) (by decide)
  · subst h3
    exact hletter 't' (by decide) (by decide)
  · subst h4
    exact hletter 'n' (by decide) (by decide)
  · subst h5
    exact hletter 'f' (by decide) (by decide)
  · subst h6
    exact hletter 'r' (by decide) (by decide)
  · obtain ⟨hnat, hquote, hbackslash⟩ := ofNat_printable u (by omega) h7.1
    have hunits : unitsOf (Char.ofNat u) = [u] := by
      unfold unitsOf
      rw [hnat, if_pos h]
    rw [List.singleton_append, scanUnits, if_neg (hquote fun h => h1 (.inl h)),
      if_neg (hbackslash fun h => h1 (.inr h)), hnat, if_neg (by omega), hunits]
    rfl
  · rw [List.cons_append, List.cons_append, scanUnits, if_neg (by decide), if_pos rfl, scanEscape,
      if_pos rfl, scanHex_hexText h, Option.bind_some]

theorem escapeUnit_length_pos (u : ℕ) : 1 ≤ (escapeUnit u).length := by
  unfold escapeUnit
  split_ifs <;> simp

theorem scanUnits_flatMap {us : List ℕ} (h : ∀ u ∈ us, u < 0x10000) {fuel : ℕ} {rest : List Char}
    (hfuel : (us.flatMap escapeUnit).length < fuel) :
    scanUnits fuel (us.flatMap escapeUnit ++ '"' :: rest) = some (us, rest) := by
  induction us generalizing fuel with
  | nil =>
    obtain ⟨fuel, rfl⟩ : ∃ n, fuel = n + 1 := ⟨fuel - 1, by omega⟩
    rfl
  | cons u us ih =>
    obtain ⟨hu, hus⟩ := List.forall_mem_cons.mp h
    have hpos := escapeUnit_length_pos u
    rw [List.flatMap_cons, List.length_append] at hfuel
    obtain ⟨fuel, rfl⟩ : ∃ n, fuel = n + 1 := ⟨fuel - 1, by omega⟩
    rw [List.flatMap_cons, List.append_assoc, scanUnits_escapeUnit hu, ih hus (by omega),
      Option.map_some]

/-- **What is written is read back.** -/
theorem scanString_escape (s : String) (rest : List Char) :
    scanString (escape s.toList ++ '"' :: rest) = some (s, rest) := by
  have hunits : ∀ u ∈ s.toList.flatMap unitsOf, u < 0x10000 := by
    intro u hu
    obtain ⟨c, -, hc⟩ := List.mem_flatMap.mp hu
    exact unitsOf_lt hc
  have hscan : scanUnits ((escape s.toList ++ '"' :: rest).length + 1)
      (escape s.toList ++ '"' :: rest) = some (s.toList.flatMap unitsOf, rest) :=
    scanUnits_flatMap hunits (by
      rw [List.length_append]
      unfold escape
      omega)
  unfold scanString
  rw [hscan, Option.bind_some, joinUnits_flatMap, Option.map_some, String.ofList_toList]

end WezuBackend.Lib.JsonStrings
