import WezuBackend.Lib.JsonStrings
import Mathlib.Algebra.Group.Nat.Defs
import Mathlib.Data.List.Induction
import Mathlib.Data.List.TakeWhile

/-!
# Internet addresses

The texts that Python's `ipaddress` reads and writes.
-/

namespace WezuBackend.Lib.IpAddress

open JsonStrings

inductive Address where
  | v4 (ip : ℕ)
  | v6 (ip : ℕ) (scopeId : Option (List Char))
  deriving DecidableEq

/-- The number with these digits, the first of them counting most. -/
def number (base : ℕ) (digits : List ℕ) : ℕ := digits.foldl (fun n d => base * n + d) 0

/-! ## Reading -/

/-- Leading zeroes are not permitted. -/
def parseOctet (octet : List Char) : Option ℕ :=
  let n := Nat.ofDigitChars 10 octet 0
  if octet ≠ [] ∧ octet.all Char.isDigit ∧ octet.length ≤ 3 ∧
    (octet = ['0'] ∨ octet.head? ≠ some '0') ∧ n ≤ 255 then some n else none

def parseV4 (text : List Char) : Option ℕ :=
  match text.splitOn '.' with
  | [a, b, c, d] => ([a, b, c, d].mapM parseOctet).map (number 256)
  | _ => none

def parseHextet (hextet : List Char) : Option ℕ :=
  if hextet ≠ [] ∧ hextet.length ≤ 4 then (hextet.mapM hexVal).map (number 16) else none

/-- A dotted part at the end is replaced by two hextets. -/
def expandLast (parts : List (List Char)) : Option (List (List Char)) :=
  if '.' ∈ parts.getLastD [] then
    (parseV4 (parts.getLastD [])).map fun ip =>
      parts.dropLast ++ [Nat.toDigits 16 (ip / 65536), Nat.toDigits 16 (ip % 65536)]
  else some parts

/-- The hextets on one side of `::`; there may be none. -/
def side (parts : List (List Char)) : Option (List ℕ) :=
  if parts = [[]] then some [] else parts.mapM parseHextet

/-- An empty part that is not at an end comes from a `::`, which stands for zeroes. -/
def hextets (parts : List (List Char)) : Option (List ℕ) :=
  match (List.range parts.length).filter fun i =>
      1 ≤ i ∧ i + 1 < parts.length ∧ parts[i]? = some [] with
  | [] => if parts.length = 8 then parts.mapM parseHextet else none
  | [i] => do
    let hi ← side (parts.take i)
    let lo ← side (parts.drop (i + 1))
    if hi.length + lo.length < 8 then
      some (hi ++ List.replicate (8 - (hi.length + lo.length)) 0 ++ lo)
    else none
  | _ => none

def parseV6 (text : List Char) : Option ℕ := do
  let parts := text.splitOn ':'
  if parts.length < 3 then none else
  let parts ← expandLast parts
  if 9 < parts.length then none else
  (hextets parts).map (number 65536)

/-- The address, and the scope that follows it after a `%`. -/
def splitScopeId (text : List Char) : Option (List Char × Option (List Char)) :=
  match text.dropWhile (· ≠ '%') with
  | [] => some (text, none)
  | _ :: scopeId =>
    if scopeId = [] ∨ '%' ∈ scopeId then none else some (text.takeWhile (· ≠ '%'), some scopeId)

def ipAddress (text : List Char) : Option Address :=
  if '/' ∈ text then none else
  (parseV4 text).map .v4 <|> do
    let (addr, scopeId) ← splitScopeId text
    let ip ← parseV6 addr
    return .v6 ip scopeId

/-! ## Writing -/

/-- Where the first of the longest runs of zeroes starts, and its length. -/
def zeroRun (hs : List ℕ) : ℕ × ℕ :=
  let (best, bestLen, _) := hs.zipIdx.foldl (fun (best, bestLen, len) (h, i) =>
    if h = 0 then
      if bestLen < len + 1 then (i - len, len + 1, len + 1) else (best, bestLen, len + 1)
    else (best, bestLen, 0)) (0, 0, 0)
  (best, bestLen)

def joined (hs : List ℕ) : List Char := [':'].intercalate (hs.map (Nat.toDigits 16))

/-- The longest run of zeroes is written as `::`. -/
def compressed (hs : List ℕ) : List Char :=
  let (start, len) := zeroRun hs
  if 1 < len then joined (hs.take start) ++ [':', ':'] ++ joined (hs.drop (start + len))
  else joined hs

def str : Address → List Char
  | .v4 ip => ['.'].intercalate
      ([ip / 2 ^ 24 % 256, ip / 2 ^ 16 % 256, ip / 256 % 256, ip % 256].map (Nat.toDigits 10))
  | .v6 ip scopeId =>
    compressed ((List.range 8).map fun i => ip / 65536 ^ (7 - i) % 65536) ++
      scopeId.elim [] ('%' :: ·)

example : (ipAddress "2001:DB8:0:0:1::1.2.3.4%e0".toList).map str =
    some "2001:db8::1:0:102:304%e0".toList := by decide +kernel

inductive Network where
  | v4 (ip prefixlen : ℕ)
  | v6 (ip prefixlen : ℕ)

def Network.contains : Network → Address → Bool
  | .v4 net prefixlen, .v4 ip => ip / 2 ^ (32 - prefixlen) = net / 2 ^ (32 - prefixlen)
  | .v6 net prefixlen, .v6 ip _ => ip / 2 ^ (128 - prefixlen) = net / 2 ^ (128 - prefixlen)
  | _, _ => false

/-! ## What the text of an address is like -/

theorem isDigit_of_parseOctet {octet : List Char} {n : ℕ} (h : parseOctet octet = some n) :
    ∀ c ∈ octet, c.isDigit = true := by
  unfold parseOctet at h
  dsimp only at h
  split_ifs at h with hoctet
  exact List.all_eq_true.mp hoctet.2.1

variable {ip : ℕ} {text : List Char}

theorem octets_of_parseV4 (h : parseV4 text = some ip) :
    ∃ a b c d k l m n, text = ['.'].intercalate [a, b, c, d] ∧ parseOctet a = some k ∧
      parseOctet b = some l ∧ parseOctet c = some m ∧ parseOctet d = some n ∧
      ip = number 256 [k, l, m, n] := by
  unfold parseV4 at h
  split at h
  · next a b c d hsplit =>
    obtain ⟨ns, hns, rfl⟩ := Option.map_eq_some_iff.mp h
    simp only [List.mapM_cons, List.mapM_nil, Option.bind_eq_bind, Option.pure_def,
      Option.bind_eq_some_iff, Option.some.injEq] at hns
    obtain ⟨k, hk, _, ⟨l, hl, _, ⟨m, hm, _, ⟨n, hn, _, rfl, rfl⟩, rfl⟩, rfl⟩, rfl⟩ := hns
    refine ⟨a, b, c, d, k, l, m, n, ?_, hk, hl, hm, hn, rfl⟩
    rw [← hsplit, List.intercalate_splitOn]
  · cases h

variable {c : Char}

theorem mem_of_parseV4 (h : parseV4 text = some ip)
    (hc : c ∈ text) : c.isDigit = true ∨ c = '.' := by
  obtain ⟨o₁, o₂, o₃, o₄, _, _, _, _, rfl, h₁, h₂, h₃, h₄, -⟩ := octets_of_parseV4 h
  have hmem : c ∈ o₁ ∨ c = '.' ∨ c ∈ o₂ ∨ c = '.' ∨ c ∈ o₃ ∨ c = '.' ∨ c ∈ o₄ := by
    simpa [List.intercalate, List.intersperse] using hc
  rcases hmem with hc | hc | hc | hc | hc | hc | hc
  · exact .inl (isDigit_of_parseOctet h₁ c hc)
  · exact .inr hc
  · exact .inl (isDigit_of_parseOctet h₂ c hc)
  · exact .inr hc
  · exact .inl (isDigit_of_parseOctet h₃ c hc)
  · exact .inr hc
  · exact .inl (isDigit_of_parseOctet h₄ c hc)

theorem hexVal_of_mapM {α β : Type} {f : α → Option β} {x : α} {xs : List α} {ys : List β}
    (h : (x :: xs).mapM f = some ys) : ∃ y, f x = some y := by
  rw [List.mapM_cons, Option.bind_eq_bind, Option.bind_eq_some_iff] at h
  obtain ⟨y, hy, -⟩ := h
  exact ⟨y, hy⟩

theorem head_of_hextets {part : List Char} {parts : List (List Char)} {hs : List ℕ}
    (h : hextets ((c :: part) :: parts) = some hs) : ∃ d, hexVal c = some d := by
  have hpart : ∀ rest ds, ((c :: part) :: rest).mapM parseHextet = some ds →
      ∃ d, hexVal c = some d := by
    intro rest ds hds
    obtain ⟨n, hn⟩ := hexVal_of_mapM hds
    unfold parseHextet at hn
    split_ifs at hn
    obtain ⟨_, hdigits, -⟩ := Option.map_eq_some_iff.mp hn
    exact hexVal_of_mapM hdigits
  unfold hextets at h
  split at h
  · split_ifs at h
    exact hpart _ _ h
  · next i hi =>
    have hpos : 1 ≤ i := by
      have hmem := List.mem_filter.mp (hi ▸ List.mem_singleton_self i)
      exact (of_decide_eq_true hmem.2).1
    obtain ⟨i, rfl⟩ := Nat.exists_eq_add_of_le' hpos
    rw [List.take_succ_cons, Option.bind_eq_bind, Option.bind_eq_some_iff] at h
    obtain ⟨hi, hhi, -⟩ := h
    unfold side at hhi
    rw [if_neg (by simp)] at hhi
    exact hpart _ _ hhi
  · cases h

theorem head_of_parseV6
    (h : parseV6 (c :: text) = some ip) (hc : c ≠ ':') : ∃ d, hexVal c = some d := by
  obtain ⟨part, parts, hparts⟩ := List.exists_cons_of_ne_nil (List.splitOn_ne_nil ':' text)
  have hsplit : (c :: text).splitOn ':' = (c :: part) :: parts := by
    rw [List.splitOn_cons_eq_if_modifyHead, if_neg (by simpa using hc), hparts,
      List.modifyHead_cons]
  unfold parseV6 at h
  rw [hsplit] at h
  dsimp only at h
  split_ifs at h with hlen
  rw [Option.bind_eq_bind, Option.bind_eq_some_iff] at h
  obtain ⟨expanded, hexpand, h⟩ := h
  split_ifs at h
  obtain ⟨_, hhextets, -⟩ := Option.map_eq_some_iff.mp h
  -- there are three parts, so the first of them is not the one that is replaced
  obtain ⟨rest, rfl⟩ : ∃ rest, expanded = (c :: part) :: rest := by
    unfold expandLast at hexpand
    split_ifs at hexpand
    · obtain ⟨n, -, rfl⟩ := Option.map_eq_some_iff.mp hexpand
      rcases parts with _ | ⟨second, parts⟩
      · exact absurd hlen (by simp)
      · exact ⟨_, by rw [List.dropLast_cons_cons, List.cons_append]⟩
    · exact ⟨parts, (Option.some.inj hexpand).symm⟩
  exact head_of_hextets hhextets

theorem splitScopeId_fst {addr : List Char} {scopeId : Option (List Char)}
    (h : splitScopeId text = some (addr, scopeId)) : addr = text.takeWhile (· ≠ '%') := by
  unfold splitScopeId at h
  split at h
  · next hnone =>
    rw [← (Prod.mk.inj (Option.some.inj h)).1]
    have happend := List.takeWhile_append_dropWhile (p := (· ≠ '%')) (l := text)
    rw [hnone, List.append_nil] at happend
    exact happend.symm
  · split_ifs at h
    exact (Prod.mk.inj (Option.some.inj h)).1.symm

/-- The text of an address is one of version 4, or of version 6 up to the scope. -/
theorem ipAddress_cases {a : Address} (h : ipAddress text = some a) :
    (∃ ip, a = .v4 ip ∧ parseV4 text = some ip) ∨
      ∃ ip scopeId, a = .v6 ip scopeId ∧ parseV6 (text.takeWhile (· ≠ '%')) = some ip := by
  unfold ipAddress at h
  split_ifs at h
  rcases hv4 : parseV4 text with _ | ip
  · rw [hv4, Option.map_none, Option.orElse_eq_orElse, Option.orElse_none,
      Option.bind_eq_bind, Option.bind_eq_some_iff] at h
    obtain ⟨⟨addr, scopeId⟩, hsplit, h⟩ := h
    dsimp only at h
    rw [Option.bind_eq_bind, Option.bind_eq_some_iff] at h
    obtain ⟨ip, hip, h⟩ := h
    exact .inr ⟨ip, scopeId, (Option.some.inj h).symm, splitScopeId_fst hsplit ▸ hip⟩
  · rw [hv4] at h
    exact .inl ⟨ip, (Option.some.inj h).symm, rfl⟩

/-- The text of an address starts with a digit or a colon. -/
theorem ipAddress_of_head (hdot : c ≠ '.') (hcolon : c ≠ ':')
    (hhex : hexVal c = none) : ipAddress (c :: text) = none := by
  rw [Option.eq_none_iff_forall_ne_some]
  intro a h
  rcases ipAddress_cases h with ⟨ip, -, hv4⟩ | ⟨ip, scopeId, -, hv6⟩
  · have hdigit := (mem_of_parseV4 hv4 List.mem_cons_self).resolve_right hdot
    have hrange : 48 ≤ c.toNat ∧ c.toNat ≤ 57 := by
      rw [Char.isDigit, Bool.and_eq_true, decide_eq_true_eq, decide_eq_true_eq] at hdigit
      exact hdigit
    unfold hexVal at hhex
    rw [if_pos hrange] at hhex
    cases hhex
  · rw [List.takeWhile_cons] at hv6
    split_ifs at hv6 with hscope
    · obtain ⟨d, hd⟩ := head_of_parseV6 hv6 hcolon
      rw [hhex] at hd
      cases hd
    · cases hv6

theorem length_splitOn (sep : Char) (text : List Char) :
    (text.splitOn sep).length = text.count sep + 1 := by
  induction text with
  | nil => rfl
  | cons c text ih =>
    rw [List.splitOn_cons_eq_if_modifyHead, List.count_cons]
    split_ifs
    · rw [List.length_cons, ih]
    · rw [List.length_modifyHead, ih]

theorem ipAddress_of_count (hcount : text.count ':' ≤ 1)
    (hdot : '.' ∉ text.takeWhile (· ≠ ':')) : ipAddress text = none := by
  rw [Option.eq_none_iff_forall_ne_some]
  intro a h
  rcases ipAddress_cases h with ⟨ip, -, hv4⟩ | ⟨ip, scopeId, -, hv6⟩
  · have hcolon : ∀ c ∈ text, c ≠ ':' := by
      rintro c hc rfl
      exact absurd (mem_of_parseV4 hv4 hc) (by decide)
    rw [List.takeWhile_eq_self_iff.mpr fun c hc => decide_eq_true (hcolon c hc)] at hdot
    unfold parseV4 at hv4
    rw [List.splitOn_eq_singleton hdot] at hv4
    cases hv4
  · have hsub := (List.takeWhile_sublist (p := (· ≠ '%')) (l := text)).count_le ':'
    unfold parseV6 at hv6
    dsimp only at hv6
    rw [if_pos (by rw [length_splitOn]; omega)] at hv6
    cases hv6

/-! ## An address of version 4 is written as it was read -/

theorem toDigits_ofDigitChars {digits : List Char} (hdigits : ∀ c ∈ digits, c.isDigit = true)
    (hhead : ∀ c ∈ digits.head?, c ≠ '0') (hne : digits ≠ []) :
    0 < Nat.ofDigitChars 10 digits 0 ∧
      Nat.toDigits 10 (Nat.ofDigitChars 10 digits 0) = digits := by
  induction digits using List.reverseRecOn with
  | nil => exact absurd rfl hne
  | append_singleton init c ih =>
    obtain ⟨d, hd, rfl⟩ : ∃ d < 10, c = Nat.digitChar d := by
      have hc := hdigits c (by simp)
      have hrange : 48 ≤ c.toNat ∧ c.toNat ≤ 57 := by
        rw [Char.isDigit, Bool.and_eq_true, decide_eq_true_eq, decide_eq_true_eq] at hc
        exact hc
      obtain ⟨d, hd⟩ := Nat.exists_eq_add_of_le hrange.1
      have hlt : d < 10 := by omega
      refine ⟨d, hlt, Char.toNat_inj.mp (hd.trans ?_)⟩
      clear hd hc hrange
      revert hlt d
      decide
    rw [Nat.ofDigitChars_append, Nat.ofDigitChars_cons_digitChar_of_lt_ten hd,
      Nat.ofDigitChars_nil]
    rcases init with _ | ⟨e, init⟩
    · have hzero : d ≠ 0 := fun h => hhead _ rfl (by rw [h]; rfl)
      rw [Nat.ofDigitChars_nil]
      exact ⟨by omega, by rw [Nat.toDigits_of_lt_base (by omega)]; simp⟩
    · obtain ⟨hpos, hinit⟩ := ih (fun c hc => hdigits c (List.mem_append_left _ hc)) hhead nofun
      refine ⟨by omega, ?_⟩
      rw [← Nat.toDigits_append_toDigits (by decide) hpos hd, hinit,
        Nat.toDigits_of_lt_base hd]

theorem toDigits_of_parseOctet {octet : List Char} {n : ℕ} (h : parseOctet octet = some n) :
    n ≤ 255 ∧ Nat.toDigits 10 n = octet := by
  unfold parseOctet at h
  dsimp only at h
  split_ifs at h with hoctet
  obtain rfl := Option.some.inj h
  obtain ⟨hne, hdigits, -, rfl | hzero, hbyte⟩ := hoctet
  · exact ⟨hbyte, rfl⟩
  · exact ⟨hbyte, (toDigits_ofDigitChars (List.all_eq_true.mp hdigits)
      (fun c hc hc0 => hzero (hc0 ▸ hc)) hne).2⟩

theorem str_of_v4 (h : ipAddress text = some (.v4 ip)) :
    str (.v4 ip) = text := by
  have hv4 : parseV4 text = some ip := by
    rcases ipAddress_cases h with ⟨_, heq, hv4⟩ | ⟨_, _, heq, -⟩
    · rwa [Address.v4.inj heq]
    · cases heq
  obtain ⟨a, b, c, d, k, l, m, n, rfl, ha, hb, hc, hd, rfl⟩ := octets_of_parseV4 hv4
  obtain ⟨hk, ha⟩ := toDigits_of_parseOctet ha
  obtain ⟨hl, hb⟩ := toDigits_of_parseOctet hb
  obtain ⟨hm, hc⟩ := toDigits_of_parseOctet hc
  obtain ⟨hn, hd⟩ := toDigits_of_parseOctet hd
  have hbytes : [number 256 [k, l, m, n] / 2 ^ 24 % 256, number 256 [k, l, m, n] / 2 ^ 16 % 256,
      number 256 [k, l, m, n] / 256 % 256, number 256 [k, l, m, n] % 256] = [k, l, m, n] := by
    simp only [number, List.foldl_cons, List.foldl_nil, List.cons.injEq, and_true]
    omega
  unfold str
  dsimp only
  rw [hbytes]
  simp only [List.map_cons, List.map_nil, ha, hb, hc, hd]

end WezuBackend.Lib.IpAddress
