import WezuBackend.Core.Letters
import WezuBackend.Lib.IpAddress

/-!
# Client addresses behind a proxy

`get_client_ip` takes the first entry of `X-Forwarded-For` that it can read, which is the client's
own; the address that the proxy appends comes after it (`client_ip_iff`).  The helper of the rate
limiter and the passkeys reads the same headers by other rules (`clients_agree`).
-/

namespace WezuBackend.Core.Proxy

open Text Lib.IpAddress Lib.JsonStrings

/-! ## The source -/

/-- Without the characters at both ends that satisfy `p`. -/
def stripOf (p : Char → Bool) (text : List Char) : List Char :=
  ((text.dropWhile p).reverse.dropWhile p).reverse

def unquoted (candidate : List Char) : List Char :=
  stripOf (· == '"') (stripOf isSpace candidate)

/-- What `_parse_ip` takes from brackets, or before a port. -/
def host (raw : List Char) : List Char :=
  if raw.head? = some '[' then raw.tail.takeWhile (· ≠ ']')
  else if raw.count ':' = 1 ∧ '.' ∈ raw.takeWhile (· ≠ ':') then raw.takeWhile (· ≠ ':')
  else raw

/-- `_parse_ip`; the text of an address is never empty. -/
def parseIp (candidate : List Char) : Option (List Char) :=
  let raw := unquoted candidate
  if raw = [] ∨ raw.map Char.toLower = "unknown".toList ∨ raw.head? = some '_' then none
  else if raw.head? = some '[' ∧ ']' ∉ raw then none
  else (ipAddress (host raw)).map str

structure Request where
  /-- The host of the peer. -/
  client : Option (List Char)
  xForwardedFor : Option (List Char) := none
  forwarded : Option (List Char) := none
  xRealIp : Option (List Char) := none
  /-- `request.state.client_ip` -/
  clientIp : Option (List Char) := none

variable (networks : List Network)

def isTrustedProxy (sourceIp : Option (List Char)) : Bool :=
  match sourceIp.bind ipAddress with
  | some addr => networks.any fun network => network.contains addr
  | none => false

def sourceIp (request : Request) : Option (List Char) := request.client.bind parseIp

/-- `_is_trusted_proxy_source`; the source is the text of an address. -/
def isTrustedProxySource (request : Request) : Bool := isTrustedProxy networks (sourceIp request)

def firstXForwardedForIp (request : Request) : Option (List Char) :=
  request.xForwardedFor.bind fun value => (value.splitOn ',').findSome? parseIp

/-- The value of a token `for=...`. -/
def forValue (token : List Char) : Option (List Char) :=
  if '=' ∈ token ∧
      (stripOf isSpace (token.takeWhile (· ≠ '='))).map Char.toLower = "for".toList then
    some (token.dropWhile (· ≠ '=')).tail
  else none

def forIp (tokens : List (List Char)) : Option (List Char) :=
  tokens.findSome? fun token => (forValue token).bind parseIp

def firstForwardedForIp (request : Request) : Option (List Char) :=
  request.forwarded.bind fun value =>
    (value.splitOn ',').findSome? fun element => forIp (element.splitOn ';')

def getClientIp (request : Request) : List Char × Request :=
  match request.clientIp with
  | some (c :: cached) => (c :: cached, request)
  | _ =>
    let source := (sourceIp request).getD "unknown".toList
    let clientIp := if isTrustedProxySource networks request then
      (firstXForwardedForIp request <|> firstForwardedForIp request <|>
        request.xRealIp.bind parseIp).getD source
    else source
    (clientIp, { request with clientIp := some clientIp })

/-- What `_extract_valid_ip` takes from brackets, or before a port. -/
def validHost (ip : List Char) : List Char :=
  if ip.head? = some '[' ∧ ']' ∈ ip then ip.tail.takeWhile (· ≠ ']')
  else if ip.count ':' = 1 ∧ '.' ∈ ip then ip.takeWhile (· ≠ ':')
  else ip

/-- `_extract_valid_ip` of one candidate. -/
def validIp (raw : List Char) : Option (List Char) :=
  let ip := validHost (stripOf (· == '\'') (unquoted raw))
  (ipAddress ip).map fun _ => ip

def extractValidIp (candidates : List (List Char)) : Option (List Char) :=
  candidates.findSome? validIp

def isValueChar (c : Char) : Bool :=
  c ≠ '"' ∧ c ≠ '\'' ∧ c ≠ ',' ∧ c ≠ ';' ∧ isSpace c = false

def optionalQuote : List Char → List Char
  | '"' :: rest => rest
  | '\'' :: rest => rest
  | rest => rest

/-- What follows `=\s*["']?` at the start of the text. -/
def afterName : List Char → Option (List Char)
  | '=' :: rest => some (optionalQuote (rest.dropWhile isSpace))
  | _ => none

/-- What follows `for\s*=\s*["']?` at the start of the text. -/
def afterFor (text : List Char) : Option (List Char) :=
  if (text.take 3).map Char.toLower = "for".toList then
    afterName ((text.drop 3).dropWhile isSpace)
  else none

/-- The value of a match of `_FORWARDED_FOR_PATTERN` at the start of the text. -/
def matchFor (text : List Char) : Option (List Char) :=
  ((afterFor text).map fun rest => rest.takeWhile isValueChar).filter (· ≠ [])

/-- The value of the first match. -/
def search : List Char → Option (List Char)
  | [] => none
  | c :: text => matchFor (c :: text) <|> search text

def extractFromForwardedHeader (forwarded : Option (List Char)) : Option (List Char) :=
  forwarded.bind fun value => (value.splitOn ',').findSome? fun hop => (search hop).bind validIp

def extractForwardedClientIp (sourceIp forwardedFor forwarded xRealIp : Option (List Char)) :
    Option (List Char) :=
  if isTrustedProxy networks sourceIp then
    extractValidIp ((forwardedFor.getD []).splitOn ',') <|>
      extractFromForwardedHeader forwarded <|> extractValidIp [xRealIp.getD []] <|> sourceIp
  else sourceIp

/-- `FORWARDED_ALLOW_IPS`, as it is set by default. -/
def defaultNetworks : List Network :=
  [.v4 0x7f000001 32, .v6 1 128, .v4 0xac100000 12]

/-! ## The address that the proxy appends -/

/-- The request of a client, as the proxy passes it on: it appends the peer to what the client says
that it was forwarded for. -/
def throughProxy (request : Request) (peer : List Char) : Request :=
  { request with
    xForwardedFor :=
      some (request.xForwardedFor.elim peer fun value => value ++ [',', ' '] ++ peer) }

/-- The first entry of the client's own that can be read, if there is one, is this address. -/
def Harmless (value : Option (List Char)) (address : List Char) : Prop :=
  ∀ v ∈ value, ∀ before entry after, v.splitOn ',' = before ++ entry :: after →
    (∀ e ∈ before, parseIp e = none) → ∀ b ∈ parseIp entry, b = address

theorem parseIp_blank (text : List Char) : parseIp (' ' :: text) = parseIp text := rfl

theorem firstXForwardedForIp_throughProxy (request : Request) {peer address : List Char}
    (hcomma : ',' ∉ peer) (hpeer : parseIp peer = some address) :
    firstXForwardedForIp (throughProxy request peer) =
      some ((firstXForwardedForIp request).getD address) := by
  unfold firstXForwardedForIp throughProxy
  rcases request.xForwardedFor with _ | value
  · simp [List.splitOn_eq_singleton hcomma, hpeer]
  · have hsplit : (value ++ [',', ' '] ++ peer).splitOn ',' =
        value.splitOn ',' ++ [' ' :: peer] := by
      have hlast : ',' ∉ ' ' :: peer := by simpa using hcomma
      rw [List.append_assoc, List.cons_append, List.splitOn_append_cons_self]
      exact congrArg _ (List.splitOn_eq_singleton hlast)
    simp only [Option.elim_some, Option.bind_some, hsplit, List.findSome?_append,
      List.findSome?_singleton, parseIp_blank, hpeer]
    cases (value.splitOn ',').findSome? parseIp <;> rfl

theorem getClientIp_of_trusted {request : Request} (hfresh : request.clientIp = none)
    (htrusted : isTrustedProxySource networks request = true) :
    (getClientIp networks request).1 =
      (firstXForwardedForIp request <|> firstForwardedForIp request <|>
        request.xRealIp.bind parseIp).getD ((sourceIp request).getD "unknown".toList) := by
  unfold getClientIp
  rw [hfresh]
  dsimp only
  rw [if_pos htrusted]

/-- **The client's address is the one that the proxy appends**, exactly if no entry that the client
itself sends is taken for it. -/
theorem client_ip_iff {request : Request} (hfresh : request.clientIp = none)
    (htrusted : isTrustedProxySource networks request = true) {peer address : List Char}
    (hcomma : ',' ∉ peer) (hpeer : parseIp peer = some address) :
    (getClientIp networks (throughProxy request peer)).1 = address ↔
      Harmless request.xForwardedFor address := by
  rw [getClientIp_of_trusted networks
    (show (throughProxy request peer).clientIp = none from hfresh) htrusted,
    firstXForwardedForIp_throughProxy request hcomma hpeer]
  change (firstXForwardedForIp request).getD address = address ↔ _
  unfold Harmless firstXForwardedForIp
  rcases request.xForwardedFor with _ | value
  · exact iff_of_true rfl nofun
  · rw [Option.bind_some]
    constructor
    · rintro h v hv before entry after hsplit hbefore b hb
      obtain rfl := Option.some.inj hv
      have hfirst : (value.splitOn ',').findSome? parseIp = some b :=
        List.findSome?_eq_some_iff.mpr ⟨before, entry, after, hsplit, hb, hbefore⟩
      rwa [hfirst] at h
    · intro h
      rcases hfirst : (value.splitOn ',').findSome? parseIp with _ | b
      · rfl
      · obtain ⟨before, entry, after, hsplit, hb, hbefore⟩ := List.findSome?_eq_some_iff.mp hfirst
        exact h value rfl before entry after hsplit hbefore b hb

def proxied (xForwardedFor : Option (List Char)) : Request :=
  { client := some "172.18.0.2".toList, xForwardedFor }

theorem client_ip_sample :
    Harmless (some "unknown, _hidden".toList) "203.0.113.7".toList :=
  (client_ip_iff defaultNetworks
    (rfl : (proxied (some "unknown, _hidden".toList)).clientIp = none) (by decide +kernel)
    (by decide : ',' ∉ "203.0.113.7".toList) (by decide +kernel)).mp (by decide +kernel)

/-- A client chooses its address. -/
theorem own_entry_is_taken :
    (getClientIp defaultNetworks (throughProxy (proxied none) "203.0.113.7".toList)).1 =
        "203.0.113.7".toList ∧
      (getClientIp defaultNetworks
        (throughProxy (proxied (some "198.51.100.1".toList)) "203.0.113.7".toList)).1 =
        "198.51.100.1".toList := by
  decide +kernel

/-! ## Where the two readers agree -/

/-- The entry has no apostrophe around its address, and an address of version 6 is spelled as
`ipaddress` writes it; or neither reader takes the entry for an address. -/
def Plain (raw : List Char) : Prop :=
  stripOf (· == '\'') (unquoted raw) = unquoted raw ∧
      (∀ ip scopeId, ipAddress (host (unquoted raw)) = some (.v6 ip scopeId) →
        str (.v6 ip scopeId) = host (unquoted raw)) ∨
    parseIp raw = none ∧ validIp raw = none

/-- The text starts as none of an address does. -/
def Foreign (text : List Char) : Prop :=
  ∃ c rest, text = c :: rest ∧ c ≠ '.' ∧ c ≠ ':' ∧ hexVal c = none

theorem ipAddress_of_foreign {text : List Char} (h : Foreign text)
    (hbracket : ¬ (text.head? = some '[' ∧ ']' ∈ text)) : ipAddress (validHost text) = none := by
  obtain ⟨c, rest, rfl, hdot, hcolon, hhex⟩ := h
  unfold validHost
  rw [if_neg hbracket, List.takeWhile_cons, if_pos (decide_eq_true hcolon)]
  split_ifs <;> exact ipAddress_of_head hdot hcolon hhex

variable {raw : List Char}

/-- What `_parse_ip` refuses outright is no address. -/
theorem foreign_of_refused (h : raw.map Char.toLower = "unknown".toList ∨ raw.head? = some '_') :
    Foreign raw ∧ raw.head? ≠ some '[' := by
  rcases raw with _ | ⟨c, raw⟩
  · rcases h with h | h <;> cases h
  · rcases h with h | h
    · have hc : c.toLower = 'u' := (List.cons.inj h).1
      have hn : c.toNat = 117 ∨ c.toNat = 85 := by
        have hlower := Letters.toNat_toLower c
        rw [hc, show 'u'.toNat = 117 from rfl] at hlower
        split_ifs at hlower <;> omega
      have hne : ∀ d : Char, d.toLower ≠ 'u' → c ≠ d := fun d hd hcd => hd (hcd ▸ hc)
      refine ⟨⟨c, raw, rfl, hne _ (by decide), hne _ (by decide), ?_⟩,
        fun h => hne '[' (by decide) (Option.some.inj h)⟩
      unfold hexVal
      rw [if_neg (by omega), if_neg (by omega), if_neg (by omega)]
    · obtain rfl := Option.some.inj h
      exact ⟨⟨_, _, rfl, by decide, by decide, by decide⟩, by simp⟩

/-- The two readers split off a port by different rules, but where they differ there is no
address. -/
theorem host_or_none (hbracket : ¬ (raw.head? = some '[' ∧ ']' ∉ raw)) :
    validHost raw = host raw ∨ ipAddress (validHost raw) = none ∧ ipAddress (host raw) = none := by
  unfold validHost host
  by_cases hopen : raw.head? = some '['
  · rw [if_pos hopen, if_pos ⟨hopen, by_contra fun h => hbracket ⟨hopen, h⟩⟩]
    exact .inl rfl
  rw [if_neg hopen, if_neg fun h => hopen h.1]
  by_cases hcount : raw.count ':' = 1
  · have hsub : (raw.takeWhile (· ≠ ':')).Sublist raw := List.takeWhile_sublist _
    by_cases hdot : '.' ∈ raw.takeWhile (· ≠ ':')
    · rw [if_pos ⟨hcount, hsub.mem hdot⟩, if_pos ⟨hcount, hdot⟩]
      exact .inl rfl
    · have hbefore : ipAddress (raw.takeWhile (· ≠ ':')) = none :=
        ipAddress_of_count (hcount ▸ hsub.count_le ':') fun h =>
          hdot ((List.takeWhile_sublist _).mem h)
      have hraw : ipAddress raw = none := ipAddress_of_count hcount.le hdot
      rw [if_neg fun h : raw.count ':' = 1 ∧ '.' ∈ raw.takeWhile (· ≠ ':') => hdot h.2]
      split_ifs
      · exact .inr ⟨hbefore, hraw⟩
      · exact .inl rfl
  · rw [if_neg fun h => hcount h.1, if_neg fun h => hcount h.1]
    exact .inl rfl

theorem parseIp_eq_validIp (h : Plain raw) : parseIp raw = validIp raw := by
  rcases h with ⟨hquotes, hspelled⟩ | ⟨hparse, hvalid⟩
  · unfold parseIp validIp
    rw [hquotes]
    generalize unquoted raw = text at hspelled ⊢
    dsimp only
    split_ifs with hrefused hbracket
    · rcases hrefused with rfl | hrefused
      · rfl
      · obtain ⟨hforeign, hopen⟩ := foreign_of_refused hrefused
        rw [ipAddress_of_foreign hforeign fun h => hopen h.1]
        rfl
    · obtain ⟨rest, rfl⟩ : ∃ rest, text = '[' :: rest := List.head?_eq_some_iff.mp hbracket.1
      rw [ipAddress_of_foreign ⟨_, _, rfl, by decide, by decide, by decide⟩
        fun h => hbracket.2 h.2]
      rfl
    · rcases host_or_none hbracket with hhost | ⟨hvalid, hhost⟩
      · rw [hhost]
        rcases ha : ipAddress (host text) with _ | ip | ⟨ip, scopeId⟩
        · rfl
        · exact congrArg some (str_of_v4 ha)
        · exact congrArg some (hspelled ip scopeId ha)
      · rw [hhost, hvalid]
        rfl
  · rw [hparse, hvalid]

/-! ## Parameters of a hop -/

/-- The value `w`, with blanks and at most one double quote on each side of it. -/
def Wrapped (raw w : List Char) : Prop :=
  ∃ l r, stripOf isSpace raw = l ++ w ++ r ∧ (l = [] ∨ l = ['"']) ∧ (r = [] ∨ r = ['"']) ∧
    ∀ c ∈ w, isValueChar c = true

/-- The tokens that are read of a hop: those that are not named `for` do not contain one that is,
and of the values of those that are only the first one that is not empty counts. -/
def PlainTokens : List (List Char) → Prop
  | [] => True
  | token :: tokens =>
    match forValue token with
    | none => search token = none ∧ PlainTokens tokens
    | some raw => ∃ w, Wrapped raw w ∧ Plain w ∧ (w = [] → PlainTokens tokens) ∧
        (w ≠ [] → parseIp raw = none → ∀ t ∈ tokens, forValue t = none)

theorem stripOf_append {p : Char → Bool} {l w r : List Char} (hl : ∀ c ∈ l, p c = true)
    (hw : ∀ c ∈ w, p c = false) (hr : ∀ c ∈ r, p c = true) : stripOf p (l ++ w ++ r) = w := by
  have hdrop : ∀ {l u : List Char}, (∀ c ∈ l, p c = true) →
      (l ++ u).dropWhile p = u.dropWhile p := fun hl =>
    List.dropWhile_append_of_pos hl
  have hkeep : ∀ {u : List Char}, (∀ c ∈ u, p c = false) → u.dropWhile p = u := by
    intro u hu
    rcases u with _ | ⟨c, u⟩
    · rfl
    · rw [List.dropWhile_cons_of_neg (by simp [hu c List.mem_cons_self])]
  unfold stripOf
  rw [List.append_assoc, hdrop hl]
  rcases w with _ | ⟨c, w⟩
  · have hnil := hdrop (u := []) hr
    rw [List.append_nil] at hnil
    rw [List.nil_append, hnil]
    rfl
  · rw [List.cons_append, List.dropWhile_cons_of_neg (by simp [hw c List.mem_cons_self]),
      ← List.cons_append, List.reverse_append, hdrop fun c hc => hr c (List.mem_reverse.mp hc),
      hkeep fun c hc => hw c (List.mem_reverse.mp hc), List.reverse_reverse]

theorem exists_stripped (p : Char → Bool) (text : List Char) :
    ∃ r, text.dropWhile p = stripOf p text ++ r ∧ ∀ c ∈ r, p c = true := by
  refine ⟨((text.dropWhile p).reverse.takeWhile p).reverse, ?_, fun c hc =>
    List.mem_takeWhile_imp (List.mem_reverse.mp hc)⟩
  unfold stripOf
  rw [← List.reverse_append, List.takeWhile_append_dropWhile, List.reverse_reverse]

theorem Wrapped.unquoted_eq {raw w : List Char} (h : Wrapped raw w) :
    unquoted raw = w ∧ unquoted w = w := by
  obtain ⟨l, r, hraw, hl, hr, hw⟩ := h
  have hvalue : ∀ c ∈ w, isSpace c = false ∧ (c == '"') = false := by
    intro c hc
    have h := of_decide_eq_true (hw c hc)
    exact ⟨h.2.2.2.2, beq_eq_false_iff_ne.mpr h.1⟩
  have hspace : stripOf isSpace w = w := by
    have h := stripOf_append (p := isSpace) (l := []) (r := []) nofun (fun c hc => (hvalue c hc).1)
      nofun
    rwa [List.nil_append, List.append_nil] at h
  have hquote : ∀ {l r : List Char}, (l = [] ∨ l = ['"']) → (r = [] ∨ r = ['"']) →
      stripOf (· == '"') (l ++ w ++ r) = w := by
    intro l r hl hr
    refine stripOf_append ?_ (fun c hc => (hvalue c hc).2) ?_
    · rcases hl with rfl | rfl <;> simp
    · rcases hr with rfl | rfl <;> simp
  unfold unquoted
  rw [hraw, hspace]
  exact ⟨hquote hl hr, by simpa using hquote (.inl rfl) (.inl rfl)⟩

variable {c : Char}

theorem matchFor_of_head {text : List Char} (h : c.toLower ≠ 'f') :
    matchFor (c :: text) = none := by
  have hafter : afterFor (c :: text) = none := if_neg fun heq => h (List.cons.inj heq).1
  unfold matchFor
  rw [hafter]
  rfl

theorem search_append {before text : List Char} (h : ∀ c ∈ before, c.toLower ≠ 'f') :
    search (before ++ text) = search text := by
  induction before with
  | nil => rfl
  | cons c before ih =>
    rw [List.cons_append, search, matchFor_of_head (h c List.mem_cons_self),
      ih fun d hd => h d (List.mem_cons_of_mem _ hd)]
    rfl

theorem toLower_of_isSpace (h : isSpace c = true) : c.toLower ≠ 'f' := by
  intro hc
  have hlower := Letters.toNat_toLower c
  rw [hc, show 'f'.toNat = 102 from rfl] at hlower
  have hn : c.toNat = 102 ∨ c.toNat = 70 := by split_ifs at hlower <;> omega
  have hspace := of_decide_eq_true h
  omega

theorem isValueChar_of_isSpace (h : isSpace c = true) : isValueChar c = false := by
  simp [isValueChar, h]

theorem optionalQuote_of_head {rest : List Char} (hquote : c ≠ '"')
    (hapostrophe : c ≠ '\'') : optionalQuote (c :: rest) = c :: rest := by
  unfold optionalQuote
  split
  · next heq => exact absurd (List.cons.inj heq).1 hquote
  · next heq => exact absurd (List.cons.inj heq).1 hapostrophe
  · rfl

/-- The value ends where the closing quote or the blanks begin. -/
theorem takeWhile_end {r blanks : List Char} (hr : r = [] ∨ r = ['"'])
    (hblanks : ∀ c ∈ blanks, isSpace c = true) : (r ++ blanks).takeWhile isValueChar = [] := by
  rcases hr with rfl | rfl
  · rcases blanks with _ | ⟨c, blanks⟩
    · rfl
    · exact List.takeWhile_cons_of_neg
        (by simp [isValueChar_of_isSpace (hblanks c List.mem_cons_self)])
  · rfl

theorem takeWhile_optionalQuote {l w r blanks : List Char} (hl : l = [] ∨ l = ['"'])
    (hw : ∀ c ∈ w, isValueChar c = true) (hr : r = [] ∨ r = ['"'])
    (hblanks : ∀ c ∈ blanks, isSpace c = true) :
    (optionalQuote (l ++ w ++ r ++ blanks)).takeWhile isValueChar = w := by
  have hvalue : (w ++ (r ++ blanks)).takeWhile isValueChar = w := by
    rw [List.takeWhile_append_of_pos hw, takeWhile_end hr hblanks, List.append_nil]
  rw [List.append_assoc, List.append_assoc]
  rcases hl with rfl | rfl
  · rw [List.nil_append]
    rcases w with _ | ⟨c, w⟩
    · rw [List.nil_append]
      rcases hr with rfl | rfl
      · rcases blanks with _ | ⟨c, blanks⟩
        · rfl
        · have hc := hblanks c List.mem_cons_self
          have hne : ∀ d : Char, isSpace d = false → c ≠ d := fun d hd hcd => by
            rw [hcd, hd] at hc
            cases hc
          rw [List.nil_append, optionalQuote_of_head (hne _ (by decide)) (hne _ (by decide))]
          exact hvalue
      · exact takeWhile_end (.inl rfl) hblanks
    · have hc := of_decide_eq_true (hw c List.mem_cons_self)
      rw [List.cons_append, optionalQuote_of_head hc.1 hc.2.1, ← List.cons_append]
      exact hvalue
  · exact hvalue

theorem eq_of_forValue {token raw : List Char} (h : forValue token = some raw) :
    ∃ before name after, token = before ++ (name ++ (after ++ '=' :: raw)) ∧
      name.map Char.toLower = "for".toList ∧ (∀ c ∈ before, isSpace c = true) ∧
      ∀ c ∈ after, isSpace c = true := by
  unfold forValue at h
  split_ifs at h with hfor
  obtain ⟨hmem, hname⟩ := hfor
  obtain ⟨key, value, rfl, hkey⟩ := List.eq_append_cons_of_mem hmem
  have hne : ∀ c ∈ key, decide (c ≠ '=') = true := fun c hc =>
    decide_eq_true fun h => hkey (h ▸ hc)
  rw [List.takeWhile_append_of_pos hne, List.takeWhile_cons_of_neg (by decide),
    List.append_nil] at hname
  rw [List.dropWhile_append_of_pos hne, List.dropWhile_cons_of_neg (by decide),
    List.tail_cons] at h
  obtain rfl := Option.some.inj h
  obtain ⟨after, hdrop, hafter⟩ := exists_stripped isSpace key
  refine ⟨key.takeWhile isSpace, _, after, ?_, hname, fun c hc => List.mem_takeWhile_imp hc,
    hafter⟩
  rw [← List.append_assoc (stripOf _ _), ← hdrop, ← List.append_assoc,
    List.takeWhile_append_dropWhile]

theorem afterFor_append {name rest value : List Char}
    (hname : name.map Char.toLower = "for".toList) (hrest : rest.dropWhile isSpace = '=' :: value) :
    afterFor (name ++ rest) = some (optionalQuote (value.dropWhile isSpace)) := by
  have hlength : name.length = 3 := by
    have hlength := congrArg List.length hname
    rwa [List.length_map] at hlength
  unfold afterFor
  rw [List.take_left' hlength, List.drop_left' hlength, if_pos hname, hrest]
  rfl

theorem matchFor_of_wrapped {name after raw w : List Char}
    (hname : name.map Char.toLower = "for".toList) (hafter : ∀ c ∈ after, isSpace c = true)
    (hwrapped : Wrapped raw w) :
    matchFor (name ++ (after ++ '=' :: raw)) = if w = [] then none else some w := by
  obtain ⟨left, right, hraw, hl, hr, hw⟩ := hwrapped
  obtain ⟨blanks, hdrop, hblanks⟩ := exists_stripped isSpace raw
  have hspaces : (after ++ '=' :: raw).dropWhile isSpace = '=' :: raw := by
    rw [List.dropWhile_append_of_pos hafter]
    rfl
  unfold matchFor
  rw [afterFor_append hname hspaces, hdrop, hraw, Option.map_some,
    takeWhile_optionalQuote hl hw hr hblanks, Option.filter_some]
  by_cases hw : w = [] <;> simp [hw]

/-- An empty value has no `f`. -/
theorem toLower_of_wrapped (h : Wrapped raw []) : ∀ c ∈ raw, c.toLower ≠ 'f' := by
  obtain ⟨left, right, hraw, hl, hr, -⟩ := h
  obtain ⟨blanks, hdrop, hblanks⟩ := exists_stripped isSpace raw
  intro c hc
  rw [← List.takeWhile_append_dropWhile (p := isSpace) (l := raw), hdrop, hraw] at hc
  simp only [List.mem_append, List.append_nil] at hc
  have hquote : ∀ {q : List Char}, (q = [] ∨ q = ['"']) → c ∈ q → c.toLower ≠ 'f' := by
    rintro q (rfl | rfl) hc
    · cases hc
    · obtain rfl := List.mem_singleton.mp hc
      decide
  rcases hc with hc | (hc | hc) | hc
  · exact toLower_of_isSpace (List.mem_takeWhile_imp hc)
  · exact hquote hl hc
  · exact hquote hr hc
  · exact toLower_of_isSpace (hblanks c hc)

/-- **What the pattern finds in a token named `for`** is the value between the quotes. -/
theorem search_of_forValue {token raw w : List Char} (h : forValue token = some raw)
    (hwrapped : Wrapped raw w) : search token = if w = [] then none else some w := by
  obtain ⟨before, name, after, rfl, hname, hbefore, hafter⟩ := eq_of_forValue h
  have hmatch := matchFor_of_wrapped hname hafter hwrapped
  obtain ⟨f, o, r, rfl⟩ : ∃ f o r, name = [f, o, r] := by
    have hlength := congrArg List.length hname
    rw [List.length_map] at hlength
    exact List.length_eq_three.mp hlength
  rw [search_append fun c hc => toLower_of_isSpace (hbefore c hc), List.cons_append, search,
    ← List.cons_append, hmatch]
  split_ifs with hempty
  · -- the rest of the token has no `f`
    obtain ⟨-, ho, hr⟩ : f.toLower = 'f' ∧ o.toLower = 'o' ∧ r.toLower = 'r' := by simpa using hname
    have hrest : ∀ c ∈ [o, r] ++ (after ++ '=' :: raw), c.toLower ≠ 'f' := by
      intro c hc
      simp only [List.cons_append, List.nil_append, List.mem_cons, List.mem_append] at hc
      rcases hc with rfl | rfl | hc | rfl | hc
      · rw [ho]
        decide
      · rw [hr]
        decide
      · exact toLower_of_isSpace (hafter c hc)
      · decide
      · exact toLower_of_wrapped (hempty ▸ hwrapped) c hc
    have hnone := @search_append _ [] hrest
    rw [List.append_nil] at hnone
    rw [hnone]
    rfl
  · rfl

theorem afterName_of_head {rest : List Char} (h : c ≠ '=') :
    afterName (c :: rest) = none := by
  unfold afterName
  split
  · next heq => exact absurd (List.cons.inj heq).1 h
  · rfl

/-- A match does not reach beyond a semicolon. -/
theorem matchFor_append (text rest : List Char) :
    matchFor (text ++ ';' :: rest) = matchFor text := by
  have hdrop : ∀ u : List Char, (u ++ ';' :: rest).dropWhile isSpace =
      u.dropWhile isSpace ++ ';' :: rest := by
    intro u
    rw [List.dropWhile_append, List.dropWhile_cons_of_neg (by decide)]
    split_ifs with hu
    · rw [List.isEmpty_iff.mp hu, List.nil_append]
    · rfl
  have hquote : ∀ u : List Char,
      optionalQuote (u ++ ';' :: rest) = optionalQuote u ++ ';' :: rest := by
    intro u
    rcases u with _ | ⟨c, u⟩
    · rfl
    · by_cases hc : c = '"' ∨ c = '\''
      · rcases hc with rfl | rfl <;> rfl
      · rw [not_or] at hc
        rw [List.cons_append, optionalQuote_of_head hc.1 hc.2, optionalQuote_of_head hc.1 hc.2,
          List.cons_append]
  have htake : ∀ u : List Char,
      (u ++ ';' :: rest).takeWhile isValueChar = u.takeWhile isValueChar := by
    intro u
    rw [List.takeWhile_append]
    split_ifs with hu
    · rw [List.takeWhile_cons_of_neg (by decide), List.append_nil,
        (List.takeWhile_prefix _).eq_of_length hu]
    · rfl
  have hvalue : ∀ u : List Char, (afterName (u ++ ';' :: rest)).map (·.takeWhile isValueChar) =
      (afterName u).map (·.takeWhile isValueChar) := by
    intro u
    rcases u with _ | ⟨c, u⟩
    · rfl
    · by_cases hc : c = '='
      · subst hc
        change
          some ((optionalQuote ((u ++ ';' :: rest).dropWhile isSpace)).takeWhile isValueChar) = _
        rw [hdrop, hquote, htake]
        rfl
      · rw [List.cons_append, afterName_of_head hc, afterName_of_head hc]
  have hafter : (afterFor (text ++ ';' :: rest)).map (·.takeWhile isValueChar) =
      (afterFor text).map (·.takeWhile isValueChar) := by
    unfold afterFor
    rcases Nat.lt_or_ge text.length 3 with hlen | hlen
    · have hshort : (text.take 3).map Char.toLower ≠ "for".toList := by
        intro h
        have hlength := congrArg List.length h
        rw [List.length_map, List.take_of_length_le hlen.le] at hlength
        exact absurd hlength hlen.ne
      have hsemicolon : ((text ++ ';' :: rest).take 3).map Char.toLower ≠ "for".toList := by
        intro h
        have hmem : ';' ∈ (text ++ ';' :: rest).take 3 :=
          List.mem_take_iff_getElem.mpr ⟨text.length, by simp; omega, by simp⟩
        exact absurd (h ▸ List.mem_map_of_mem hmem : Char.toLower ';' ∈ "for".toList) (by decide)
      rw [if_neg hsemicolon, if_neg hshort]
    · rw [List.take_append_of_le_length hlen, List.drop_append_of_le_length hlen, hdrop]
      split_ifs
      · exact hvalue _
      · rfl
  unfold matchFor
  rw [hafter]

theorem search_append_cons (text rest : List Char) :
    search (text ++ ';' :: rest) = (search text <|> search rest) := by
  induction text with
  | nil =>
    have hskip : search ([';'] ++ rest) = search rest := search_append fun c hc => by
      obtain rfl := List.mem_singleton.mp hc
      decide
    exact hskip
  | cons c text ih =>
    have hmatch := matchFor_append (c :: text) rest
    rw [List.cons_append] at hmatch
    rw [List.cons_append, search, search, hmatch, ih]
    cases matchFor (c :: text) <;> rfl

/-- The pattern is looked for in one token after the other. -/
theorem search_splitOn (hop : List Char) : search hop = (hop.splitOn ';').findSome? search := by
  have h : ∀ tokens : List (List Char),
      search ([';'].intercalate tokens) = tokens.findSome? search := by
    intro tokens
    induction tokens with
    | nil => rfl
    | cons token tokens ih =>
      rcases tokens with _ | ⟨next, tokens⟩
      · rw [List.intercalate_singleton, List.findSome?_singleton]
      · rw [List.findSome?_cons, ← ih, List.intercalate_cons_cons, List.append_assoc]
        exact (search_append_cons _ _).trans (by cases search token <;> rfl)
  rw [← h, List.intercalate_splitOn]

theorem forIp_eq {tokens : List (List Char)} (h : PlainTokens tokens) :
    forIp tokens = (tokens.findSome? search).bind validIp := by
  unfold forIp
  induction tokens with
  | nil => rfl
  | cons token tokens ih =>
    unfold PlainTokens at h
    rcases hvalue : forValue token with _ | raw
    · rw [hvalue] at h
      rw [List.findSome?_cons, List.findSome?_cons, hvalue, h.1]
      exact ih h.2
    · rw [hvalue] at h
      obtain ⟨w, hwrapped, hplain, hempty, hfirst⟩ := h
      obtain ⟨hraw, hw⟩ := hwrapped.unquoted_eq
      have hparse : parseIp raw = validIp w := by
        rw [← parseIp_eq_validIp hplain]
        unfold parseIp
        rw [hraw, hw]
      rw [List.findSome?_cons, List.findSome?_cons, hvalue, search_of_forValue hvalue hwrapped,
        Option.bind_some, hparse]
      by_cases hnil : w = []
      · subst hnil
        exact ih (hempty rfl)
      · rw [if_neg hnil]
        dsimp only
        rw [Option.bind_some]
        rcases hvalid : validIp w with _ | ip
        · refine List.findSome?_eq_none_iff.mpr fun t ht => ?_
          rw [hfirst hnil (hparse.trans hvalid) t ht]
          rfl
        · rfl

/-! ## The two readers -/

section Upto

variable {α β : Type} {p : α → Prop} {f g : α → Option β}

/-- The predicate holds up to the first element that has a result. -/
def Upto (p : α → Prop) (f : α → Option β) : List α → Prop
  | [] => True
  | x :: xs => p x ∧ (f x = none → Upto p f xs)

theorem findSome?_of_upto (hfg : ∀ x, p x → f x = g x) {xs : List α} (h : Upto p f xs) :
    xs.findSome? f = xs.findSome? g := by
  induction xs with
  | nil => rfl
  | cons x xs ih =>
    rw [List.findSome?_cons, List.findSome?_cons, ← hfg x h.1]
    rcases hx : f x with _ | y
    · exact ih (h.2 hx)
    · rfl

end Upto

/-- What is read of the request until an address is found is plain. -/
structure PlainHeaders (request : Request) : Prop where
  client : ∀ peer ∈ request.client, parseIp peer = some peer
  xForwardedFor : ∀ v ∈ request.xForwardedFor, Upto Plain parseIp (v.splitOn ',')
  forwarded : firstXForwardedForIp request = none → ∀ v ∈ request.forwarded,
    Upto (fun hop => PlainTokens (hop.splitOn ';')) (fun hop => forIp (hop.splitOn ';'))
      (v.splitOn ',')
  xRealIp : firstXForwardedForIp request = none → firstForwardedForIp request = none →
    ∀ v ∈ request.xRealIp, Plain v

variable {request : Request}

theorem PlainHeaders.sourceIp_eq (h : PlainHeaders request) :
    sourceIp request = request.client := by
  unfold sourceIp
  rcases hclient : request.client with _ | peer
  · rfl
  · exact h.client peer hclient

theorem PlainHeaders.entries_eq (h : PlainHeaders request) :
    firstXForwardedForIp request =
      extractValidIp ((request.xForwardedFor.getD []).splitOn ',') := by
  unfold firstXForwardedForIp
  rcases hvalue : request.xForwardedFor with _ | value
  · rfl
  · exact findSome?_of_upto (fun _ => parseIp_eq_validIp) (h.xForwardedFor value hvalue)

theorem PlainHeaders.hops_eq (h : PlainHeaders request)
    (hentries : firstXForwardedForIp request = none) :
    firstForwardedForIp request = extractFromForwardedHeader request.forwarded := by
  unfold firstForwardedForIp extractFromForwardedHeader
  rcases hvalue : request.forwarded with _ | value
  · rfl
  · refine findSome?_of_upto (fun hop hplain => ?_) (h.forwarded hentries value hvalue)
    rw [search_splitOn, forIp_eq hplain]

theorem PlainHeaders.realIp_eq (h : PlainHeaders request)
    (hentries : firstXForwardedForIp request = none)
    (hhops : firstForwardedForIp request = none) :
    request.xRealIp.bind parseIp = extractValidIp [request.xRealIp.getD []] := by
  unfold extractValidIp
  rw [List.findSome?_singleton]
  rcases hvalue : request.xRealIp with _ | value
  · rfl
  · exact parseIp_eq_validIp (h.xRealIp hentries hhops value hvalue)

/-- **The two readers agree** on a request from a trusted proxy, if what they read is plain. -/
theorem clients_agree (hfresh : request.clientIp = none)
    (htrusted : isTrustedProxy networks request.client = true) (h : PlainHeaders request) :
    some (getClientIp networks request).1 =
      extractForwardedClientIp networks request.client request.xForwardedFor request.forwarded
        request.xRealIp := by
  have hsource : isTrustedProxySource networks request = true := by
    unfold isTrustedProxySource
    rwa [h.sourceIp_eq]
  obtain ⟨peer, hclient⟩ : ∃ peer, request.client = some peer := by
    rcases hclient : request.client with _ | peer
    · rw [hclient] at htrusted
      cases htrusted
    · exact ⟨peer, rfl⟩
  unfold extractForwardedClientIp
  rw [if_pos htrusted, getClientIp_of_trusted networks hfresh hsource, ← h.entries_eq,
    h.sourceIp_eq, hclient]
  rcases hentries : firstXForwardedForIp request with _ | ip
  · rw [← h.hops_eq hentries]
    rcases hhops : firstForwardedForIp request with _ | ip
    · rw [← h.realIp_eq hentries hhops]
      cases request.xRealIp.bind parseIp <;> rfl
    · rfl
  · rfl

/-- Only the last header has an address. -/
def throughHeaders : Request where
  client := some "172.18.0.2".toList
  xForwardedFor := some "unknown".toList
  forwarded := some "proto=https;for=_hidden".toList
  xRealIp := some "203.0.113.9".toList

theorem clients_agree_sample :
    some (getClientIp defaultNetworks (proxied (some "unknown, [2001:db8::17]:4711".toList))).1 =
      extractForwardedClientIp defaultNetworks (some "172.18.0.2".toList)
        (some "unknown, [2001:db8::17]:4711".toList) none none ∧
    some (getClientIp defaultNetworks throughHeaders).1 =
      extractForwardedClientIp defaultNetworks throughHeaders.client throughHeaders.xForwardedFor
        throughHeaders.forwarded throughHeaders.xRealIp := by
  have hclient : ∀ peer ∈ some "172.18.0.2".toList, parseIp peer = some peer := by
    decide +kernel
  have hunknown : Plain "unknown".toList := .inr ⟨by decide +kernel, by decide +kernel⟩
  constructor
  · refine clients_agree defaultNetworks
      (rfl : (proxied (some "unknown, [2001:db8::17]:4711".toList)).clientIp = none)
      (by decide +kernel) ⟨hclient, ?_, fun _ => nofun, fun _ _ => nofun⟩
    intro value hvalue
    obtain rfl := Option.some.inj hvalue
    have hsplit : "unknown, [2001:db8::17]:4711".toList.splitOn ',' =
        ["unknown".toList, " [2001:db8::17]:4711".toList] := by decide +kernel
    have hread : ipAddress (host (unquoted " [2001:db8::17]:4711".toList)) =
        some (.v6 0x20010db8000000000000000000000017 none) := by decide +kernel
    rw [hsplit]
    refine ⟨hunknown, fun _ => ⟨.inl ⟨by decide +kernel, fun ip scopeId h => ?_⟩, fun _ => trivial⟩⟩
    rw [hread] at h
    obtain ⟨rfl, rfl⟩ := Address.v6.inj (Option.some.inj h)
    decide +kernel
  · refine clients_agree defaultNetworks (rfl : throughHeaders.clientIp = none) (by decide +kernel)
      ⟨hclient, ?_, fun _ value hvalue => ?_, fun _ _ value hvalue => ?_⟩
    · intro value hvalue
      obtain rfl := Option.some.inj hvalue
      have hsplit : "unknown".toList.splitOn ',' = ["unknown".toList] := by decide +kernel
      rw [hsplit]
      exact ⟨hunknown, fun _ => trivial⟩
    · obtain rfl := Option.some.inj hvalue
      have hsplit : "proto=https;for=_hidden".toList.splitOn ',' =
          ["proto=https;for=_hidden".toList] := by decide +kernel
      have htokens : "proto=https;for=_hidden".toList.splitOn ';' =
          ["proto=https".toList, "for=_hidden".toList] := by decide +kernel
      rw [hsplit]
      refine ⟨?_, fun _ => trivial⟩
      dsimp only
      rw [htokens]
      have hwrapped : Wrapped "_hidden".toList "_hidden".toList :=
        ⟨[], [], by decide +kernel, .inl rfl, .inl rfl, List.all_eq_true.mp (by decide +kernel)⟩
      exact ⟨by decide +kernel, "_hidden".toList, hwrapped,
        .inr ⟨by decide +kernel, by decide +kernel⟩, fun h => absurd h (by decide),
        fun _ _ => nofun⟩
    · obtain rfl := Option.some.inj hvalue
      refine .inl ⟨by decide +kernel, fun ip scopeId h => ?_⟩
      have hread : ipAddress (host (unquoted "203.0.113.9".toList)) = some (.v4 3405803785) := by
        decide +kernel
      rw [hread] at h
      cases h

/-- An address in apostrophes is one to the second reader only, and only the first one spells an
address its own way. -/
theorem readers_differ :
    (getClientIp defaultNetworks (proxied (some "'203.0.113.9'".toList))).1 = "172.18.0.2".toList ∧
      extractForwardedClientIp defaultNetworks (some "172.18.0.2".toList)
        (some "'203.0.113.9'".toList) none none = some "203.0.113.9".toList ∧
      (getClientIp defaultNetworks (proxied (some "2001:DB8::1".toList))).1 =
        "2001:db8::1".toList ∧
      extractForwardedClientIp defaultNetworks (some "172.18.0.2".toList)
        (some "2001:DB8::1".toList) none none = some "2001:DB8::1".toList := by
  decide +kernel

end WezuBackend.Core.Proxy
