import Mathlib.Data.List.DropRight

/-!
# Base64 for URLs, without padding

The text of some bytes in the alphabet of URLs, without the padding (`b64urlEncode`), and the bytes
of a text: the padding is put back, and the decoder leaves out what is not in the alphabet
(`b64urlDecode`).  What was encoded is decoded (`b64urlDecode_encode`).
-/

namespace WezuBackend.Lib.Base64

def standard : List Char :=
  "ABCDEFGHIJKLMNOPQRSTUVWXYZabcdefghijklmnopqrstuvwxyz0123456789+/".toList

def symbol (n : ℕ) : Char := standard.getD n 'A'

def toUrl (c : Char) : Char := if c = '+' then '-' else if c = '/' then '_' else c

def ofUrl (c : Char) : Char := if c = '-' then '+' else if c = '_' then '/' else c

/-- `binascii.b2a_base64`, without the newline. -/
def b2a : List UInt8 → List Char
  | [] => []
  | [a] => [symbol (a.toNat / 4), symbol (a.toNat % 4 * 16), '=', '=']
  | [a, b] =>
    [symbol (a.toNat / 4), symbol (a.toNat % 4 * 16 + b.toNat / 16), symbol (b.toNat % 16 * 4), '=']
  | a :: b :: c :: bytes =>
    symbol (a.toNat / 4) :: symbol (a.toNat % 4 * 16 + b.toNat / 16) ::
      symbol (b.toNat % 16 * 4 + c.toNat / 64) :: symbol (c.toNat % 64) :: b2a bytes

/-- `base64.urlsafe_b64encode(raw).decode("ascii").rstrip("=")` -/
def b64urlEncode (raw : List UInt8) : String :=
  String.ofList (((b2a raw).map toUrl).rdropWhile (· = '='))

/-- `binascii.a2b_base64`: how many symbols of a group of four are behind, what they leave for the
next byte, and the padding. -/
def a2b : ℕ → ℕ → ℕ → List Char → Option (List UInt8)
  | pos, _, _, [] => if pos = 0 then some [] else none
  | pos, left, pads, c :: cs =>
    if c = '=' then
      if 2 ≤ pos ∧ 4 ≤ pos + (pads + 1) then some []
      else a2b pos left (if 2 ≤ pos then pads + 1 else pads) cs
    else
      match standard.idxOf? c with
      | none => a2b pos left pads cs
      | some v =>
        match pos with
        | 0 => a2b 1 v 0 cs
        | 1 => (a2b 2 (v % 16) 0 cs).map fun bytes => UInt8.ofNat (left * 4 + v / 16) :: bytes
        | 2 => (a2b 3 (v % 4) 0 cs).map fun bytes => UInt8.ofNat (left * 16 + v / 4) :: bytes
        | _ => (a2b 0 0 0 cs).map fun bytes => UInt8.ofNat (left * 64 + v) :: bytes

/-- `base64.urlsafe_b64decode` of the text with its padding; `none` when it raises. -/
def b64urlDecode (encoded : String) : Option (List UInt8) :=
  let padded := encoded.toList ++ List.replicate ((4 - encoded.length % 4) % 4) '='
  if padded.all fun c => c.toNat < 128 then a2b 0 0 0 (padded.map ofUrl) else none

/-! ## What was encoded is decoded -/

/-- The symbols of a text, without padding. -/
def symbols : List UInt8 → List ℕ
  | [] => []
  | [a] => [a.toNat / 4, a.toNat % 4 * 16]
  | [a, b] => [a.toNat / 4, a.toNat % 4 * 16 + b.toNat / 16, b.toNat % 16 * 4]
  | a :: b :: c :: bytes =>
    a.toNat / 4 :: (a.toNat % 4 * 16 + b.toNat / 16) :: (b.toNat % 16 * 4 + c.toNat / 64) ::
      (c.toNat % 64) :: symbols bytes

theorem symbols_lt : ∀ bytes : List UInt8, ∀ n ∈ symbols bytes, n < 64
  | [], n, hn => by cases hn
  | [a], n, hn => by
    have ha := a.toNat_lt
    simp only [symbols, List.mem_cons, List.not_mem_nil, or_false] at hn
    omega
  | [a, b], n, hn => by
    have ha := a.toNat_lt
    have hb := b.toNat_lt
    simp only [symbols, List.mem_cons, List.not_mem_nil, or_false] at hn
    omega
  | a :: b :: c :: bytes, n, hn => by
    have ha := a.toNat_lt
    have hb := b.toNat_lt
    have hc := c.toNat_lt
    simp only [symbols, List.mem_cons] at hn
    rcases hn with hn | hn | hn | hn | hn
    · omega
    · omega
    · omega
    · omega
    · exact symbols_lt bytes n hn

/-- A symbol of the URL alphabet is that of its number, and no padding. -/
theorem symbol_spec : ∀ n < 64, standard.idxOf? (symbol n) = some n ∧ symbol n ≠ '=' ∧
    ofUrl (toUrl (symbol n)) = symbol n ∧ toUrl (symbol n) ≠ '=' ∧
      (toUrl (symbol n)).toNat < 128 := by
  decide +kernel

theorem b2a_eq : ∀ bytes : List UInt8, ∃ k, b2a bytes =
    (symbols bytes).map symbol ++ List.replicate k '='
  | [] => ⟨0, rfl⟩
  | [_] => ⟨2, rfl⟩
  | [_, _] => ⟨1, rfl⟩
  | _ :: _ :: _ :: bytes => by
    obtain ⟨k, hk⟩ := b2a_eq bytes
    exact ⟨k, by rw [b2a, hk]; rfl⟩

theorem rdropWhile_append_replicate {α : Type} {p : α → Bool} {a : α} (ha : p a = true)
    {l : List α} (hl : ∀ x ∈ l, p x = false) (k : ℕ) :
    (l ++ List.replicate k a).rdropWhile p = l := by
  have hreplicate : ∀ x ∈ (List.replicate k a).reverse, p x = true := by
    intro x hx
    rwa [List.eq_of_mem_replicate (List.mem_reverse.mp hx)]
  unfold List.rdropWhile
  rw [List.reverse_append, List.dropWhile_append_of_pos hreplicate]
  rcases hrev : l.reverse with _ | ⟨x, tail⟩
  · rw [List.reverse_eq_nil_iff.mp hrev]
    rfl
  · have hx : p x = false := hl x (List.mem_reverse.mp (by rw [hrev]; exact List.mem_cons_self))
    rw [List.dropWhile_cons_of_neg (by rw [hx]; decide), ← hrev, List.reverse_reverse]

theorem toList_b64urlEncode (bytes : List UInt8) :
    (b64urlEncode bytes).toList = (symbols bytes).map fun n => toUrl (symbol n) := by
  obtain ⟨k, hk⟩ := b2a_eq bytes
  have hne : ∀ c ∈ (symbols bytes).map fun n => toUrl (symbol n), decide (c = '=') = false := by
    intro c hc
    obtain ⟨n, hn, rfl⟩ := List.mem_map.mp hc
    rw [decide_eq_false_iff_not]
    exact (symbol_spec n (symbols_lt bytes n hn)).2.2.2.1
  rw [b64urlEncode, String.toList_ofList, hk, List.map_append, List.map_replicate, List.map_map]
  exact rdropWhile_append_replicate (by decide) hne k

section

variable {n : ℕ} (h : n < 64) (left pads : ℕ) (cs : List Char)

include h

theorem a2b_first : a2b 0 left pads (symbol n :: cs) = a2b 1 n 0 cs := by
  rw [a2b, if_neg (symbol_spec n h).2.1, (symbol_spec n h).1]
  rfl

theorem a2b_second : a2b 1 left pads (symbol n :: cs) =
    (a2b 2 (n % 16) 0 cs).map fun bytes => UInt8.ofNat (left * 4 + n / 16) :: bytes := by
  rw [a2b, if_neg (symbol_spec n h).2.1, (symbol_spec n h).1]
  rfl

theorem a2b_third : a2b 2 left pads (symbol n :: cs) =
    (a2b 3 (n % 4) 0 cs).map fun bytes => UInt8.ofNat (left * 16 + n / 4) :: bytes := by
  rw [a2b, if_neg (symbol_spec n h).2.1, (symbol_spec n h).1]
  rfl

theorem a2b_fourth : a2b 3 left pads (symbol n :: cs) =
    (a2b 0 0 0 cs).map fun bytes => UInt8.ofNat (left * 64 + n) :: bytes := by
  rw [a2b, if_neg (symbol_spec n h).2.1, (symbol_spec n h).1]
  rfl

end

theorem ofNat_eq {a : UInt8} {n : ℕ} (h : n = a.toNat) : UInt8.ofNat n = a := by
  rw [h, UInt8.ofNat_toNat]

/-- The padding that a text without it gets. -/
def padding (length : ℕ) : List Char := List.replicate ((4 - length % 4) % 4) '='

theorem a2b_symbols : ∀ bytes : List UInt8,
    a2b 0 0 0 ((symbols bytes).map symbol ++ padding (symbols bytes).length) = some bytes
  | [] => rfl
  | [a] => by
    have ha := a.toNat_lt
    have hfirst : a.toNat / 4 * 4 + a.toNat % 4 * 16 / 16 = a.toNat := by omega
    simp only [symbols, List.map_cons, List.map_nil, List.cons_append, List.nil_append]
    rw [a2b_first (by omega), a2b_second (by omega), ofNat_eq hfirst]
    rfl
  | [a, b] => by
    have ha := a.toNat_lt
    have hb := b.toNat_lt
    have hfirst : a.toNat / 4 * 4 + (a.toNat % 4 * 16 + b.toNat / 16) / 16 = a.toNat := by omega
    have hsecond : (a.toNat % 4 * 16 + b.toNat / 16) % 16 * 16 + b.toNat % 16 * 4 / 4 =
        b.toNat := by omega
    simp only [symbols, List.map_cons, List.map_nil, List.cons_append, List.nil_append]
    rw [a2b_first (by omega), a2b_second (by omega), a2b_third (by omega), ofNat_eq hfirst,
      ofNat_eq hsecond]
    rfl
  | a :: b :: c :: bytes => by
    have ha := a.toNat_lt
    have hb := b.toNat_lt
    have hc := c.toNat_lt
    have hfirst : a.toNat / 4 * 4 + (a.toNat % 4 * 16 + b.toNat / 16) / 16 = a.toNat := by omega
    have hsecond : (a.toNat % 4 * 16 + b.toNat / 16) % 16 * 16 +
        (b.toNat % 16 * 4 + c.toNat / 64) / 4 = b.toNat := by omega
    have hthird : (b.toNat % 16 * 4 + c.toNat / 64) % 4 * 64 + c.toNat % 64 = c.toNat := by omega
    have hpadding : padding (symbols (a :: b :: c :: bytes)).length =
        padding (symbols bytes).length := by
      unfold padding
      simp only [symbols, List.length_cons]
      congr 2
      omega
    rw [hpadding]
    simp only [symbols, List.map_cons, List.cons_append]
    rw [a2b_first (by omega), a2b_second (by omega), a2b_third (by omega), a2b_fourth (by omega),
      ofNat_eq hfirst, ofNat_eq hsecond, ofNat_eq hthird, a2b_symbols bytes]
    rfl

theorem b64urlDecode_encode (bytes : List UInt8) :
    b64urlDecode (b64urlEncode bytes) = some bytes := by
  have hlist := toList_b64urlEncode bytes
  have hlength : (b64urlEncode bytes).length = (symbols bytes).length := by
    rw [← String.length_toList, hlist, List.length_map]
  have hascii : ∀ c ∈ (b64urlEncode bytes).toList ++ padding (symbols bytes).length,
      decide (c.toNat < 128) = true := by
    intro c hc
    rw [hlist] at hc
    rw [decide_eq_true_eq]
    rcases List.mem_append.mp hc with hc | hc
    · obtain ⟨n, hn, rfl⟩ := List.mem_map.mp hc
      exact (symbol_spec n (symbols_lt bytes n hn)).2.2.2.2
    · rw [List.eq_of_mem_replicate hc]
      decide
  have hurl : ((b64urlEncode bytes).toList ++ padding (symbols bytes).length).map ofUrl =
      (symbols bytes).map symbol ++ padding (symbols bytes).length := by
    rw [hlist, List.map_append, List.map_map, padding, List.map_replicate]
    congr 1
    refine List.map_congr_left fun n hn => ?_
    exact (symbol_spec n (symbols_lt bytes n hn)).2.2.1
  unfold b64urlDecode
  rw [hlength]
  dsimp only
  rw [← padding, if_pos (List.all_eq_true.mpr hascii), hurl, a2b_symbols]

end WezuBackend.Lib.Base64
