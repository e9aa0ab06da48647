import WezuBackend.Lib.Results
import WezuBackend.Streams.Events

/-!
# Numbers of JSON

The literal of a number goes as far as it can.  An integer is converted as `int` does it, up to 4300
digits, and its text is read back (`scanNumber_int`); what a float's literal is converted to is a
parameter.  In front of anything that is no part of a number the literal ends there
(`scanNumber_append`).
-/

namespace WezuBackend.Streams.JsonNumbers

open Lib.Results Core.Text Streams.Events

/-- What `json.loads` raises. -/
inductive JsonError where
  /-- `JSONDecodeError` -/
  | malformed
  /-- the `ValueError` of an integer with too many digits -/
  | tooLong
  /-- `RecursionError` -/
  | tooDeep
  deriving DecidableEq, Repr

def orMalformed {α : Type} (scanned : Option α) : Except JsonError α :=
  scanned.elim (.error .malformed) .ok

theorem orMalformed_ok {α : Type} {scanned : Option α} {a : α} :
    orMalformed scanned = .ok a ↔ scanned = some a := by
  rcases scanned with _ | b <;> simp [orMalformed]

/-- What becomes of the literal of a float. -/
class Floats where
  /-- `repr(float(literal))` -/
  reprOf : String → String

/-- Floats whose literals are as `repr` writes them. -/
@[reducible] def written : Floats where
  reprOf text := text

def scanSign : List Char → List Char × List Char
  | '-' :: cs => (['-'], cs)
  | cs => ([], cs)

def scanIntPart : List Char → Option (List Char × List Char)
  | '0' :: cs => some (['0'], cs)
  | cs =>
    if cs.takeWhile Char.isDigit = [] then none
    else some (cs.takeWhile Char.isDigit, cs.dropWhile Char.isDigit)

def scanFraction : List Char → List Char × List Char
  | '.' :: cs =>
    if cs.takeWhile Char.isDigit = [] then ([], '.' :: cs)
    else ('.' :: cs.takeWhile Char.isDigit, cs.dropWhile Char.isDigit)
  | cs => ([], cs)

def scanExponentSign : List Char → List Char × List Char
  | '+' :: cs => (['+'], cs)
  | '-' :: cs => (['-'], cs)
  | cs => ([], cs)

def scanExponent : List Char → List Char × List Char
  | [] => ([], [])
  | c :: cs =>
    let signed := scanExponentSign cs
    if (c = 'e' ∨ c = 'E') ∧ signed.2.takeWhile Char.isDigit ≠ [] then
      (c :: signed.1 ++ signed.2.takeWhile Char.isDigit, signed.2.dropWhile Char.isDigit)
    else ([], c :: cs)

section

variable [Floats]

def numberOf (int fraction exponent : List Char) : Except JsonError Json :=
  if fraction = [] ∧ exponent = [] then
    match intOfText (String.ofList int) with
    | .ok n => .ok (.int n)
    | .error _ => .error .tooLong
  else .ok (.float (Floats.reprOf (String.ofList (int ++ fraction ++ exponent))))

def scanNumber (cs : List Char) : Except JsonError (Json × List Char) :=
  let sign := scanSign cs
  orMalformed (scanIntPart sign.2) >>= fun int =>
    let fraction := scanFraction int.2
    let exponent := scanExponent fraction.2
    (numberOf (sign.1 ++ int.1) fraction.1 exponent.1).map fun value => (value, exponent.2)

end

/-! ## Numbers are read back -/

theorem toList_toString_ofNat (n : ℕ) : (toString (n : ℤ)).toList = Nat.toDigits 10 n :=
  Nat.toList_repr

theorem toList_toString_neg (n : ℕ) :
    (toString (-((n + 1 : ℕ) : ℤ))).toList = '-' :: Nat.toDigits 10 (n + 1) := by
  show ("-" ++ toString (n + 1)).toList = _
  rw [String.toList_append]
  show '-' :: (Nat.repr (n + 1)).toList = _
  rw [Nat.toList_repr]

variable {n : ℕ}

theorem isDigit_toDigits : ∀ c ∈ Nat.toDigits 10 n, c.isDigit = true := fun _ hc =>
  Nat.isDigit_of_mem_toDigits (by omega) (by omega) hc

theorem digitChar_ne_zero : ∀ d < 10, d ≠ 0 → d.digitChar ≠ '0' := by decide

theorem head_toDigits (h : n ≠ 0) : (Nat.toDigits 10 n).head? ≠ some '0' := by
  induction n using Nat.strong_induction_on with
  | _ n ih =>
    rcases Nat.lt_or_ge n 10 with hlt | hge
    · rw [Nat.toDigits_of_lt_base hlt]
      simpa using digitChar_ne_zero n hlt h
    · rw [Nat.toDigits_of_base_le (by omega) hge]
      have hfirst := ih (n / 10) (by omega) (by omega)
      rcases hdigits : Nat.toDigits 10 (n / 10) with _ | ⟨c, cs⟩
      · exact absurd hdigits Nat.toDigits_ne_nil
      · rw [hdigits] at hfirst
        simpa using hfirst

theorem intOfText_neg (h : n < 10 ^ maxDigits) :
    intOfText (String.ofList ('-' :: Nat.toDigits 10 n)) = .ok (-(n : ℤ)) := by
  have hlist : (String.ofList ('-' :: Nat.toDigits 10 n)).toList = '-' :: Nat.toDigits 10 n :=
    String.toList_ofList
  have hspace : ∀ c ∈ (String.ofList ('-' :: Nat.toDigits 10 n)).toList, isSpace c = false := by
    rw [hlist, List.forall_mem_cons]
    exact ⟨by decide, fun c hc => isSpace_of_isDigit (isDigit_toDigits c hc)⟩
  have hspelled : spelledInt (String.ofList ('-' :: Nat.toDigits 10 n)) = some (-(n : ℤ)) := by
    unfold spelledInt
    rw [strip_of_not_space hspace, hlist]
    show Option.map (fun k : ℤ => -k)
      ((spelledDigits (Nat.toDigits 10 n)).bind fun k => some (k : ℤ)) = _
    rw [spelledDigits_toDigits]
    rfl
  have hlength : ((String.ofList ('-' :: Nat.toDigits 10 n)).toList.filter isDecimal).length ≤
      maxDigits := by
    rw [hlist, List.filter_cons_of_neg (by decide), List.filter_eq_self.mpr fun c hc =>
      isDecimal_of_isDigit (isDigit_toDigits c hc)]
    exact (Nat.length_toDigits_le_iff (by omega) (by decide)).mpr h
  unfold intOfText
  rw [hspelled]
  exact if_pos hlength

theorem intOfText_toString_int {n : ℤ} (h : n.natAbs < 10 ^ maxDigits) :
    intOfText (toString n) = .ok n := by
  rcases n with m | m
  · exact intOfText_toString h
  · have htext : toString (Int.negSucc m) = String.ofList ('-' :: Nat.toDigits 10 (m + 1)) := by
      rw [← toList_toString_neg, String.ofList_toList]
      rfl
    rw [htext]
    exact intOfText_neg h

theorem scanIntPart_of_ne {cs : List Char} (h : cs.head? ≠ some '0') : scanIntPart cs =
    if cs.takeWhile Char.isDigit = [] then none
    else some (cs.takeWhile Char.isDigit, cs.dropWhile Char.isDigit) := by
  unfold scanIntPart
  split
  · exact absurd rfl h
  · rfl

theorem scanIntPart_toDigits (n : ℕ) :
    scanIntPart (Nat.toDigits 10 n) = some (Nat.toDigits 10 n, []) := by
  by_cases hzero : n = 0
  · subst hzero
    rfl
  · rw [scanIntPart_of_ne (head_toDigits hzero), List.takeWhile_eq_self_iff.mpr isDigit_toDigits,
      List.dropWhile_eq_nil_iff.mpr isDigit_toDigits, if_neg Nat.toDigits_ne_nil]

theorem scanSign_toDigits (n : ℕ) : scanSign (Nat.toDigits 10 n) = ([], Nat.toDigits 10 n) := by
  unfold scanSign
  split
  · next cs hcs =>
    have hminus := isDigit_toDigits '-' (by rw [hcs]; exact List.mem_cons_self)
    exact absurd hminus (by decide)
  · rfl

/-- What may follow a number. -/
def Stops (rest : List Char) : Prop :=
  ∀ c ∈ rest.head?, c.isDigit = false ∧ c ∉ ['.', 'e', 'E', '+', '-']

theorem stops_nil : Stops [] := by
  intro c hc
  cases hc

variable {int : List Char × List Char}

section

variable {cs rest : List Char}

theorem takeWhile_append_stops (h : Stops rest) :
    (cs ++ rest).takeWhile Char.isDigit = cs.takeWhile Char.isDigit := by
  induction cs with
  | nil =>
    rcases rest with _ | ⟨c, rest⟩
    · rfl
    · rw [List.nil_append, List.takeWhile_cons_of_neg (by simp [(h c rfl).1])]
      rfl
  | cons c cs ih =>
    rw [List.cons_append, List.takeWhile_cons, List.takeWhile_cons, ih]

theorem dropWhile_append_stops (h : Stops rest) :
    (cs ++ rest).dropWhile Char.isDigit = cs.dropWhile Char.isDigit ++ rest := by
  induction cs with
  | nil =>
    rcases rest with _ | ⟨c, rest⟩
    · rfl
    · rw [List.nil_append, List.dropWhile_cons_of_neg (by simp [(h c rfl).1])]
      rfl
  | cons c cs ih =>
    rw [List.cons_append, List.dropWhile_cons, List.dropWhile_cons, ih]
    split_ifs <;> rfl

theorem scanIntPart_append (h : Stops rest) (hint : scanIntPart cs = some int) :
    scanIntPart (cs ++ rest) = some (int.1, int.2 ++ rest) := by
  by_cases hzero : cs.head? = some '0'
  · obtain ⟨tail, rfl⟩ : ∃ tail, cs = '0' :: tail := by
      rcases cs with _ | ⟨c, tail⟩
      · cases hzero
      · exact ⟨tail, by rw [Option.some.inj hzero]⟩
    obtain rfl := Option.some.inj hint
    rfl
  · rw [scanIntPart_of_ne hzero] at hint
    have hne : cs ≠ [] := by
      rintro rfl
      cases hint
    have hzero' : (cs ++ rest).head? ≠ some '0' := by
      rwa [List.head?_append_of_ne_nil _ hne]
    rw [scanIntPart_of_ne hzero', takeWhile_append_stops h, dropWhile_append_stops h]
    split_ifs at hint ⊢ with hnone
    obtain rfl := Option.some.inj hint
    rfl

theorem scanFraction_of_ne {cs : List Char} (h : cs.head? ≠ some '.') :
    scanFraction cs = ([], cs) := by
  unfold scanFraction
  split
  · exact absurd rfl h
  · rfl

theorem scanFraction_append (h : Stops rest) :
    scanFraction (cs ++ rest) = ((scanFraction cs).1, (scanFraction cs).2 ++ rest) := by
  rcases cs with _ | ⟨c, cs⟩
  · have hrest : rest.head? ≠ some '.' := fun hdot => (h '.' hdot).2 (by decide)
    rw [List.nil_append, scanFraction_of_ne hrest]
    rfl
  · by_cases hc : c = '.'
    · subst hc
      rw [List.cons_append, scanFraction, scanFraction, takeWhile_append_stops h,
        dropWhile_append_stops h]
      split_ifs <;> rfl
    · rw [scanFraction_of_ne (by simpa using hc), scanFraction_of_ne (by simpa using hc)]

theorem scanExponentSign_of_ne {cs : List Char} (hplus : cs.head? ≠ some '+')
    (hminus : cs.head? ≠ some '-') : scanExponentSign cs = ([], cs) := by
  unfold scanExponentSign
  split
  · exact absurd rfl hplus
  · exact absurd rfl hminus
  · rfl

theorem scanExponentSign_append (h : Stops rest) : scanExponentSign (cs ++ rest) =
    ((scanExponentSign cs).1, (scanExponentSign cs).2 ++ rest) := by
  rcases cs with _ | ⟨c, cs⟩
  · have hplus : rest.head? ≠ some '+' := fun hhead => (h '+' hhead).2 (by decide)
    have hminus : rest.head? ≠ some '-' := fun hhead => (h '-' hhead).2 (by decide)
    rw [List.nil_append, scanExponentSign_of_ne hplus hminus]
    rfl
  · by_cases hplus : c = '+'
    · subst hplus
      rfl
    · by_cases hminus : c = '-'
      · subst hminus
        rfl
      · rw [scanExponentSign_of_ne (by simpa using hplus) (by simpa using hminus),
          scanExponentSign_of_ne (by simpa using hplus) (by simpa using hminus)]

theorem scanExponent_of_ne {c : Char} (h : ¬ (c = 'e' ∨ c = 'E')) (cs : List Char) :
    scanExponent (c :: cs) = ([], c :: cs) := if_neg fun hexp => h hexp.1

theorem scanExponent_append (h : Stops rest) :
    scanExponent (cs ++ rest) = ((scanExponent cs).1, (scanExponent cs).2 ++ rest) := by
  rcases cs with _ | ⟨c, cs⟩
  · rcases rest with _ | ⟨c, rest⟩
    · rfl
    · have hc := (h c rfl).2
      have hne : ¬ (c = 'e' ∨ c = 'E') := by
        rintro (rfl | rfl)
        · exact hc (by decide)
        · exact hc (by decide)
      rw [List.nil_append, scanExponent_of_ne hne]
      rfl
  · rw [List.cons_append, scanExponent, scanExponent, scanExponentSign_append h]
    dsimp only
    rw [takeWhile_append_stops h, dropWhile_append_stops h]
    split_ifs <;> rfl

end

theorem head_of_scanIntPart {cs : List Char}
    (h : scanIntPart cs = some int) : ∃ d tail, cs = d :: tail ∧ d.isDigit = true := by
  rcases cs with _ | ⟨d, tail⟩
  · cases h
  · refine ⟨d, tail, rfl, ?_⟩
    by_cases hzero : d = '0'
    · rw [hzero]
      decide
    · by_contra hdigit
      rw [scanIntPart_of_ne (by simpa using hzero), List.takeWhile_cons_of_neg hdigit,
        if_pos rfl] at h
      cases h

/-- The text of a number begins with a digit, or with a minus and a digit. -/
def NumberHead (cs : List Char) : Prop :=
  (∃ d tail, cs = d :: tail ∧ d.isDigit = true) ∨
    ∃ d tail, cs = '-' :: d :: tail ∧ d.isDigit = true

section

variable [Floats]

variable {v : Json × List Char}

/-- **A number ends where no other character of it follows.** -/
theorem scanNumber_append {cs rest : List Char} (h : Stops rest)
    (hv : scanNumber cs = .ok v) : scanNumber (cs ++ rest) = .ok (v.1, v.2 ++ rest) := by
  have hne : cs ≠ [] := by
    rintro rfl
    cases hv
  have hsign : scanSign (cs ++ rest) = ((scanSign cs).1, (scanSign cs).2 ++ rest) := by
    rcases cs with _ | ⟨c, cs⟩
    · exact absurd rfl hne
    · by_cases hminus : c = '-'
      · subst hminus
        rfl
      · simp [scanSign, hminus]
  unfold scanNumber at hv ⊢
  dsimp only at hv ⊢
  obtain ⟨int, hint, hv⟩ := except_bind_ok.mp hv
  refine except_bind_ok.mpr ⟨(int.1, int.2 ++ rest), ?_, ?_⟩
  · rw [hsign, orMalformed_ok]
    exact scanIntPart_append h (orMalformed_ok.mp hint)
  · dsimp only
    rw [hsign, scanFraction_append h]
    dsimp only
    rw [scanExponent_append h]
    obtain ⟨value, hvalue, rfl⟩ := except_map_ok.mp hv
    exact except_map_ok.mpr ⟨value, hvalue, rfl⟩

theorem scanNumber_of_digits {cs sign : List Char} {z : ℤ}
    (hsign : scanSign cs = (sign, Nat.toDigits 10 n))
    (hz : intOfText (String.ofList (sign ++ Nat.toDigits 10 n)) = .ok z) :
    scanNumber cs = .ok (.int z, []) := by
  unfold scanNumber
  dsimp only
  rw [hsign]
  refine except_bind_ok.mpr ⟨_, orMalformed_ok.mpr (scanIntPart_toDigits n), ?_⟩
  show (numberOf (sign ++ Nat.toDigits 10 n) [] []).map _ = _
  rw [numberOf, if_pos ⟨rfl, rfl⟩, hz]
  rfl

theorem scanNumber_int {n : ℤ} (h : n.natAbs < 10 ^ maxDigits) :
    scanNumber (toString n).toList = .ok (.int n, []) := by
  rcases n with m | m
  · rw [Int.ofNat_eq_natCast, toList_toString_ofNat]
    refine scanNumber_of_digits (scanSign_toDigits m) ?_
    rw [List.nil_append, ← Nat.toString_eq_ofList_toDigits]
    exact intOfText_toString h
  · rw [Int.negSucc_eq]
    have htext := toList_toString_neg m
    have hneg := intOfText_neg (n := m + 1) h
    push_cast at htext hneg
    rw [htext]
    exact scanNumber_of_digits rfl hneg

theorem numberHead_of_scanNumber {cs : List Char} (h : scanNumber cs = .ok v) : NumberHead cs := by
  obtain ⟨int, hint, -⟩ := except_bind_ok.mp h
  obtain ⟨d, tail, hcs, hdigit⟩ := head_of_scanIntPart (orMalformed_ok.mp hint)
  unfold scanSign at hcs
  split at hcs
  · next cs' =>
    exact .inr ⟨d, tail, by rw [← hcs], hdigit⟩
  · exact .inl ⟨d, tail, hcs, hdigit⟩

end

end WezuBackend.Streams.JsonNumbers
