import WezuBackend.Fleet.QrCodes
import WezuBackend.Lib.Base64
import WezuBackend.Streams.JsonCodec

/-!
# Signed scan tokens

`build_signed_scan_value` and `parse_signed_scan_value` with the encoding of a token: the payload as
JSON, in UTF-8 and base64.  HMAC is a parameter.  A token is parsed to the id and the serial it was
built for (`parse_built`).  If no text has a signature that was not made for it, every other text is
parsed to nothing, unless its signature is not ASCII: comparing it raises then (`parsed_iff`).
-/

namespace WezuBackend.Fleet.ScanTokens

open Lib.Base64 Lib.Results Core.Base Core.Text
open Core.Letters Fleet.Consistency Fleet.QrCodes
open Fleet.Transitions (normalizeBatterySerial_ok)
open Streams.Events (Json)
open Streams.JsonNumbers Streams.JsonCodec

/-! ## The encoding of a token -/

/-- HMAC with the signing key; the rest is what parsing and images take from libraries. -/
class Signing where
  /-- `hmac.new(key, message, hashlib.sha256).digest()` -/
  digest : List UInt8 → List UInt8
  /-- `int(value)`, unless it raises -/
  int : Json → Option ℤ
  refusesNetloc : String → Bool
  image : String → Except Exc String
  int_int : ∀ n, int (.int n) = some n

def encodeUtf8 (text : String) : List UInt8 := text.toUTF8.data.toList

def decodeUtf8 (bytes : List UInt8) : Option String := String.fromUTF8? ⟨bytes.toArray⟩

def builtPayload (batteryId : ℤ) (serial : String) : Json :=
  .dict [("v", .int 1), ("t", .str "battery"), ("bid", .int batteryId), ("sn", .str serial)]

def encodeText (text : String) : String := b64urlEncode (encodeUtf8 text)

/-- The payload of an encoded text; only a malformed one is caught.  What the service has signed is
shallow, so the stack suffices. -/
def decodePayload [Floats] (encoded : String) : Except Exc (Option Json) :=
  match (b64urlDecode encoded).bind decodeUtf8 with
  | none => .ok none
  | some text =>
    match loads text with
    | .ok value => .ok (some value)
    | .error .malformed => .ok none
    | .error .tooLong => .error tooLong
    | .error .tooDeep => .error .recursionError

theorem decodeUtf8_encodeUtf8 (text : String) : decodeUtf8 (encodeUtf8 text) = some text := by
  have hbytes : (⟨(encodeUtf8 text).toArray⟩ : ByteArray) = text.toUTF8 := by
    unfold encodeUtf8
    rw [Array.toArray_toList]
  unfold decodeUtf8 String.fromUTF8?
  rw [hbytes, String.toUTF8_eq_toByteArray, dif_pos text.isValidUTF8]
  rfl

theorem alphabet_spec : ∀ n < 64, toUrl (symbol n) ≠ '.' ∧ isSpace (toUrl (symbol n)) = false ∧
    (toUrl (symbol n)).toNat < 128 := by
  decide +kernel

theorem b64urlEncode_alphabet (bytes : List UInt8) : ∀ c ∈ (b64urlEncode bytes).toList,
    c ≠ '.' ∧ isSpace c = false ∧ c.toNat < 128 := by
  intro c hc
  rw [toList_b64urlEncode] at hc
  obtain ⟨n, hn, rfl⟩ := List.mem_map.mp hc
  exact alphabet_spec n (symbols_lt bytes n hn)

theorem encodeText_no_dot (text : String) : '.' ∉ (encodeText text).toList := fun h =>
  (b64urlEncode_alphabet _ _ h).1 rfl

variable {batteryId : ℤ}

theorem short_builtPayload (h : batteryId.natAbs < 10 ^ maxDigits)
    (serial : String) : Short (builtPayload batteryId serial) :=
  ⟨trivial, isShort_of_lt (by decide), trivial, h, trivial, trivial⟩

variable {serial : String}

theorem short_builtPayload_iff :
    Short (builtPayload batteryId serial) ↔ batteryId.natAbs < 10 ^ maxDigits :=
  ⟨fun h => h.2.2.2.1, fun h => short_builtPayload h serial⟩

def readPayloadOf (batteryId : ℤ) (serial : String) : Json :=
  .dict [("bid", .int batteryId), ("sn", .str serial), ("t", .str "battery"), ("v", .int 1)]

theorem sortKeys_builtPayload (batteryId : ℤ) (serial : String) :
    sortKeys (builtPayload batteryId serial) = readPayloadOf batteryId serial := by
  simp [builtPayload, readPayloadOf, sortKeys, sortEntries, List.orderedInsert]

def Parts (token encoded signature : String) : Prop :=
  (token.toList.splitOn '.').map String.ofList = ["WZB1", encoded, signature]

theorem Parts.eq {token encoded signature : String} (h : Parts token encoded signature) :
    token = "WZB1" ++ "." ++ encoded ++ "." ++ signature := by
  have hlists : token.toList.splitOn '.' =
      ["WZB1".toList, encoded.toList, signature.toList] := by
    have hmap := congrArg (List.map String.toList) h
    rw [List.map_map] at hmap
    simpa [Function.comp_def] using hmap
  have hjoin : ['.'].intercalate (token.toList.splitOn '.') = token.toList :=
    List.intercalate_splitOn '.'
  rw [hlists] at hjoin
  rw [← String.toList_inj, ← hjoin]
  simp [List.intercalate]

theorem compareDigest_foreign {a : String} (h : ∃ c ∈ a.toList, 128 ≤ c.toNat) (b : String) :
    compareDigest a b = .error .typeError := by
  obtain ⟨c, hc, hge⟩ := h
  refine if_neg fun hall => ?_
  have hlt := List.all_eq_true.mp hall c (List.mem_append_left _ hc)
  rw [decide_eq_true_eq] at hlt
  omega

theorem compareDigest_ascii {a b : String} (ha : ∀ c ∈ a.toList, c.toNat < 128)
    (hb : ∀ c ∈ b.toList, c.toNat < 128) : compareDigest a b = .ok (decide (a = b)) := by
  refine if_pos (List.all_eq_true.mpr fun c hc => ?_)
  rw [decide_eq_true_eq]
  rcases List.mem_append.mp hc with hc | hc
  · exact ha c hc
  · exact hb c hc

section

variable [Floats]

theorem proper_builtPayload (batteryId : ℤ) (serial : String) :
    Proper (builtPayload batteryId serial) := by
  have hkeys : ["v", "t", "bid", "sn"].Nodup := by decide
  exact ⟨hkeys, trivial, trivial, trivial, trivial, trivial⟩

theorem decodePayload_encodeText (h : batteryId.natAbs < 10 ^ maxDigits)
    (serial : String) : decodePayload (encodeText (dumps (builtPayload batteryId serial))) =
      .ok (some (readPayloadOf batteryId serial)) := by
  have hloads := loads_dumps (proper_builtPayload batteryId serial) (short_builtPayload h serial)
  unfold decodePayload encodeText
  rw [b64urlDecode_encode, Option.bind_some, decodeUtf8_encodeUtf8]
  dsimp only
  rw [hloads, sortKeys_builtPayload]

variable [Signing]

instance instCodes : Codes where
  encode id serial := encodeText (dumps (builtPayload id serial))
  decode := decodePayload
  signature text := b64urlEncode (Signing.digest (encodeUtf8 text))
  int := Signing.int
  refusesNetloc := Signing.refusesNetloc
  image := Signing.image
  encode_alphabet _ _ c hc :=
    ⟨(b64urlEncode_alphabet _ c hc).1, (b64urlEncode_alphabet _ c hc).2.1⟩
  signature_alphabet _ := b64urlEncode_alphabet _
  int_int := Signing.int_int

variable {encoded : String}

theorem parts_tokenText (h : '.' ∉ encoded.toList) :
    Parts (tokenText encoded) encoded (Codes.signature encoded) := splitOn_tokenText h

theorem signature_ascii (encoded : String) :
    ∀ c ∈ (Codes.signature encoded).toList, c.toNat < 128 := fun c hc =>
  (Codes.signature_alphabet encoded c hc).2.2

variable [Casing]

/-! ## Tokens -/

/-- `build_signed_scan_value`, for any number. -/
def buildSignedScanValue (batteryId : ℤ) (serialNumber : String) : Except Exc String := do
  let serial ← normalizeBatterySerial serialNumber "serial_number"
  let text ← jsonDumps (builtPayload batteryId serial)
  return tokenText (encodeText text)

/-- The token is built for the id and the serial, which is kept in its normal form. -/
def BuiltFor (token : String) (signed : SignedPayload) : Prop :=
  0 < signed.batteryId ∧ ∃ serialNumber, normal serialNumber = signed.serialNumber ∧
    buildSignedScanValue signed.batteryId serialNumber = .ok token

/-- What is signed was built: HMAC outputs cannot be forged. -/
def Unforged (token : String) : Prop :=
  ∀ encoded, token = tokenText encoded → ∃ batteryId serialNumber,
    buildSignedScanValue batteryId serialNumber = .ok token

/-- The token is parsed to what it was built for, and to nothing if it was not built. -/
def Parsed (token : String) : Prop :=
  ∃ parsed, parseSignedScanValue token = .ok parsed ∧
    ∀ signed, parsed = some signed ↔ BuiltFor token signed

/-- There is a character in the signature that is not ASCII. -/
def ForeignSignature (token : String) : Prop :=
  ∃ encoded signature, Parts token encoded signature ∧ ∃ c ∈ signature.toList, 128 ≤ c.toNat

theorem buildSignedScanValue_ok {serialNumber token : String} :
    buildSignedScanValue batteryId serialNumber = .ok token ↔
      normal serialNumber ≠ "" ∧ batteryId.natAbs < 10 ^ maxDigits ∧
        tokenText (encodeText (dumps (builtPayload batteryId (normal serialNumber)))) = token := by
  unfold buildSignedScanValue
  rw [except_bind_ok]
  constructor
  · rintro ⟨serial, hserial, h⟩
    obtain ⟨text, htext, h⟩ := except_bind_ok.mp h
    obtain ⟨hne, rfl⟩ := normalizeBatterySerial_ok.mp hserial
    obtain ⟨hshort, rfl⟩ := jsonDumps_ok.mp htext
    exact ⟨hne, short_builtPayload_iff.mp hshort, Except.ok.inj h⟩
  · rintro ⟨hne, hshort, rfl⟩
    exact ⟨_, normalizeBatterySerial_ok.mpr ⟨hne, rfl⟩, except_bind_ok.mpr
      ⟨_, jsonDumps_ok.mpr ⟨short_builtPayload_iff.mpr hshort, rfl⟩, rfl⟩⟩

/-! ## Parsing -/

variable {token : String}

theorem parse_of_not_parts (h : ∀ encoded signature, ¬ Parts token encoded signature) :
    parseSignedScanValue token = .ok none := by
  unfold parseSignedScanValue
  split
  · next encoded signature hparts => exact absurd hparts (h encoded signature)
  · rfl

theorem parse_of_parts {token encoded signature : String} (h : Parts token encoded signature) :
    parseSignedScanValue token = (do
      if ← compareDigest signature (Codes.signature encoded) then
        return (← Codes.decode encoded).bind readPayload
      else return none) := by
  unfold parseSignedScanValue
  rw [h]
  rfl

theorem parse_tokenText_eq (h : '.' ∉ encoded.toList) :
    parseSignedScanValue (tokenText encoded) = (do
      return (← Codes.decode encoded).bind readPayload) := by
  rw [parse_of_parts (parts_tokenText h),
    compareDigest_ascii (signature_ascii encoded) (signature_ascii encoded), decide_eq_true rfl]
  rfl

theorem readPayload_readPayloadOf (hserial : normal serial = serial) (hne : serial ≠ "") :
    readPayload (readPayloadOf batteryId serial) =
      if batteryId ≤ 0 then none else some ⟨batteryId, serial⟩ := by
  have hsn : normalizeBatterySerial serial "sn" = .ok serial :=
    normalizeBatterySerial_ok.mpr ⟨by rwa [hserial], hserial⟩
  simp [readPayload, readPayloadOf, List.lookup_cons, Codes.int_int, hsn]

theorem parse_built {serialNumber token : String}
    (h : buildSignedScanValue batteryId serialNumber = .ok token) :
    parseSignedScanValue token =
      .ok (if batteryId ≤ 0 then none else some ⟨batteryId, normal serialNumber⟩) := by
  obtain ⟨hne, hshort, rfl⟩ := buildSignedScanValue_ok.mp h
  rw [parse_tokenText_eq (encodeText_no_dot _)]
  show (decodePayload _ >>= fun value => pure (value.bind readPayload)) = _
  rw [decodePayload_encodeText hshort]
  show Except.ok ((some (readPayloadOf batteryId (normal serialNumber))).bind readPayload) = _
  rw [Option.bind_some, readPayload_readPayloadOf (normal_normal _) hne]

variable {signed : SignedPayload}

theorem exists_tokenText_of_parse (h : parseSignedScanValue token = .ok (some signed)) :
    ∃ encoded, token = tokenText encoded := by
  by_cases hparts : ∃ encoded signature, Parts token encoded signature
  · obtain ⟨encoded, signature, hparts⟩ := hparts
    rw [parse_of_parts hparts] at h
    obtain ⟨same, hsame, h⟩ := except_bind_ok.mp h
    unfold compareDigest at hsame
    split_ifs at hsame with hascii
    obtain rfl := Except.ok.inj hsame
    by_cases heq : signature = Codes.signature encoded
    · exact ⟨encoded, by rw [hparts.eq, heq, tokenText]⟩
    · rw [decide_eq_false heq] at h
      cases h
  · push Not at hparts
    rw [parse_of_not_parts hparts] at h
    cases h

theorem builtFor_of_parse (hunforged : Unforged token)
    (h : parseSignedScanValue token = .ok (some signed)) : BuiltFor token signed := by
  obtain ⟨encoded, hencoded⟩ := exists_tokenText_of_parse h
  obtain ⟨batteryId, serialNumber, hbuilt⟩ := hunforged encoded hencoded
  rw [parse_built hbuilt] at h
  split_ifs at h with hid
  · cases h
  · obtain rfl := Option.some.inj (Except.ok.inj h)
    exact ⟨by simpa using hid, serialNumber, rfl, hbuilt⟩

theorem parse_of_builtFor (h : BuiltFor token signed) :
    parseSignedScanValue token = .ok (some signed) := by
  obtain ⟨hpos, serialNumber, hserial, hbuilt⟩ := h
  rw [parse_built hbuilt, if_neg (by omega), hserial]

/-- **When a text is parsed to what it was built for, or to nothing**: unless its signature is not
ASCII. -/
theorem parsed_iff {token : String} (hunforged : Unforged token) :
    Parsed token ↔ ¬ ForeignSignature token := by
  constructor
  · rintro ⟨parsed, hparse, -⟩ ⟨encoded, signature, hparts, hforeign⟩
    rw [parse_of_parts hparts, compareDigest_foreign hforeign] at hparse
    cases hparse
  · intro hnot
    obtain ⟨parsed, hparse⟩ : ∃ parsed, parseSignedScanValue token = .ok parsed := by
      by_cases hparts : ∃ encoded signature, Parts token encoded signature
      · obtain ⟨encoded, signature, hparts⟩ := hparts
        have hascii : ∀ c ∈ signature.toList, c.toNat < 128 := by
          intro c hc
          by_contra hge
          exact hnot ⟨encoded, signature, hparts, c, hc, by omega⟩
        by_cases heq : signature = Codes.signature encoded
        · have htoken : token = tokenText encoded := by rw [hparts.eq, heq, tokenText]
          obtain ⟨batteryId, serialNumber, hbuilt⟩ := hunforged encoded htoken
          exact ⟨_, parse_built hbuilt⟩
        · refine ⟨none, ?_⟩
          rw [parse_of_parts hparts, compareDigest_ascii hascii (signature_ascii encoded),
            decide_eq_false heq]
          rfl
      · push Not at hparts
        exact ⟨none, parse_of_not_parts hparts⟩
    refine ⟨parsed, hparse, fun signed => ⟨?_, fun hbuilt => ?_⟩⟩
    · rintro rfl
      exact builtFor_of_parse hunforged hparse
    · exact Except.ok.inj (hparse.symm.trans (parse_of_builtFor hbuilt))

end

/-- The signature of the token of battery 21 with the serial `WZ-21`. -/
instance signing21 : Signing where
  digest _ :=
    [228, 233, 115, 222, 1, 247, 92, 203, 31, 199, 147, 227, 252, 113, 25, 127, 113, 164, 120, 98,
      91, 133, 118, 94, 186, 221, 249, 188, 115, 48, 13, 188]
  int := codesB07.int
  refusesNetloc := codesB07.refusesNetloc
  image := codesB07.image
  int_int := codesB07.int_int

def token21 : String :=
  "WZB1.eyJiaWQiOjIxLCJzbiI6IldaLTIxIiwidCI6ImJhdHRlcnkiLCJ2IjoxfQ." ++
    "5Olz3gH3XMsfx5Pj_HEZf3GkeGJbhXZeut35vHMwDbw"

theorem built_token21 : @buildSignedScanValue written _ _ 21 "wz-21" = .ok token21 := by
  have hnormal : normal "wz-21" = "WZ-21" := by decide
  have hshort : (21 : ℤ).natAbs < 10 ^ maxDigits :=
    lt_of_lt_of_le (b := 10 ^ 2) (by decide) (Nat.pow_le_pow_right (by decide) (by decide))
  refine (@buildSignedScanValue_ok _ written _ _ _ _).mpr ⟨by rw [hnormal]; decide, hshort, ?_⟩
  rw [hnormal]
  decide +kernel

theorem parsed_sample : @Parsed written _ _ token21 := by
  refine (@parsed_iff written _ _ _ fun _ _ => ⟨21, "wz-21", built_token21⟩).mpr ?_
  rintro ⟨encoded, signature, hparts, c, hc, hge⟩
  have hascii : ∀ c ∈ token21.toList, c.toNat < 128 := List.all_iff_forall_prop.mp (by decide)
  rw [hparts.eq] at hascii
  have hlt := hascii c (by simp [hc])
  omega

theorem signature_signing21 (encoded : String) :
    (@instCodes written _).signature encoded = "5Olz3gH3XMsfx5Pj_HEZf3GkeGJbhXZeut35vHMwDbw" := by
  show b64urlEncode [228, 233, 115, 222, 1, 247, 92, 203, 31, 199, 147, 227, 252, 113, 25, 127, 113,
    164, 120, 98, 91, 133, 118, 94, 186, 221, 249, 188, 115, 48, 13, 188] = _
  decide +kernel

theorem foreign_signature_raises :
    @Unforged written _ _ "WZB1.e30.é" ∧ ¬ @Parsed written _ _ "WZB1.e30.é" := by
  have hparts : Parts "WZB1.e30.é" "e30" "é" := by
    unfold Parts
    decide
  refine ⟨fun encoded htoken => ?_, ?_⟩
  · have hlist : "WZB1.e30.é".toList = ("WZB1" ++ "." ++ encoded ++ ".").toList ++
        "5Olz3gH3XMsfx5Pj_HEZf3GkeGJbhXZeut35vHMwDbw".toList := by
      rw [htoken, ← String.toList_append, ← signature_signing21 encoded]
      rfl
    have hlast := congrArg List.getLast? hlist
    rw [List.getLast?_append] at hlast
    exact absurd hlast (by simp)
  · rintro ⟨parsed, hparse, -⟩
    rw [@parse_of_parts written _ _ _ _ _ hparts,
      compareDigest_foreign ⟨'é', by decide, by decide⟩] at hparse
    cases hparse

end WezuBackend.Fleet.ScanTokens
