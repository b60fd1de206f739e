-- SUMMARY: Extended CONNECT requests and responses over QPACK field sections.
import Wtquic.Proto.Qpack
import Wtquic.Proto.SfString

namespace Wtquic.Connect

/-! # CONNECT requests and responses

The model of `connect.c`. -/

open Qpack (Field)

/-- `WTQ_CONNECT_MAX_FIELDS`. -/
def maxFields : Nat := 32

/-- `CONNECT_SF_STAGING`. -/
def sfStaging : Nat := 1024

/-- `WTQ_CONNECT_PROTOCOL_TOKEN`. -/
def protocolToken : Bytes := ascii "webtransport-h3"

/-- `WTQ_CONNECT_PROTOCOL_TOKEN_LEGACY`. -/
def protocolTokenLegacy : Bytes := ascii "webtransport"

/-- The failures of `wtq_connect_status_t`. -/
inductive Error where
  | buffer
  | malformed
  | notWebtransport
  | qpackDecompressionFailed
  deriving DecidableEq, Repr

/-- `wtq_connect_opts_t`. -/
structure Opts where
  lenientSfTokens : Bool
  acceptLegacyProtocol : Bool
  deriving DecidableEq, Repr

/-! ## Field syntax -/

/-- RFC 9110 tchar, uppercase included. -/
def isTokenChar (c : UInt8) : Bool :=
  (97 ≤ c && c ≤ 122) || (65 ≤ c && c ≤ 90) || (48 ≤ c && c ≤ 57)
    || (ascii "!#$%&'*+-.^_`|~").contains c

/-- The same set without uppercase: field names are lowercase. -/
def isTchar (c : UInt8) : Bool := !(65 ≤ c && c ≤ 90) && isTokenChar c

def valueIsToken (v : Bytes) : Bool := !v.isEmpty && v.all isTokenChar

def isSchemeAlpha (c : UInt8) : Bool := (97 ≤ c && c ≤ 122) || (65 ≤ c && c ≤ 90)

/-- `scheme_is_valid`. -/
def schemeIsValid : Bytes → Bool
  | [] => false
  | c :: rest =>
    isSchemeAlpha c
      && rest.all fun c =>
        isSchemeAlpha c || (48 ≤ c && c ≤ 57) || c == 43 || c == 45 || c == 46

def asciiLower (c : UInt8) : UInt8 := if 65 ≤ c && c ≤ 90 then c + 32 else c

/-- `span_ieq`: ASCII case-insensitive equality. -/
def spanIeq (a b : Bytes) : Bool := a.map asciiLower == b.map asciiLower

/-- The members of a comma-separated list. -/
def splitCommas : Bytes → List Bytes
  | [] => [[]]
  | c :: rest =>
    if c = 44 then [] :: splitCommas rest
    else
      match splitCommas rest with
      | [] => [[c]]
      | m :: ms => (c :: m) :: ms

def isOws (c : UInt8) : Bool := c == 32 || c == 9

/-- Strip SP and HTAB on both sides. -/
def trimOws (m : Bytes) : Bytes := ((m.dropWhile isOws).reverse.dropWhile isOws).reverse

/-- `te_is_trailers`: every nonempty member is `trailers`, and there is one. -/
def teIsTrailers (v : Bytes) : Bool :=
  let members := (splitCommas v).map trimOws |>.filter fun m => !m.isEmpty
  !members.isEmpty && members.all fun m => spanIeq m (ascii "trailers")

/-- The per-byte rule of `value_is_valid`; `first` marks the first byte. -/
def valueBytesValid : Bool → Bytes → Bool
  | _, [] => true
  | first, c :: rest =>
    if c = 32 ∨ c = 9 then !first && !rest.isEmpty && valueBytesValid false rest
    else if c < 0x21 ∨ c = 0x7F then false
    else valueBytesValid false rest

/-- `value_is_valid`. -/
def valueIsValid (v : Bytes) : Bool := valueBytesValid true v

/-- A pseudo-header name starts with a colon. -/
def isPseudo (f : Field) : Bool := f.name.head? == some 58

/-- `name_is_valid`. -/
def nameIsValid (name : Bytes) : Bool :=
  match name with
  | [] => false
  | c :: rest => if c = 58 then !rest.isEmpty && rest.all isTchar else name.all isTchar

/-- The connection-specific fields HTTP/3 forbids. -/
def isForbidden (name : Bytes) : Bool :=
  name == ascii "connection" || name == ascii "keep-alive"
    || name == ascii "proxy-connection" || name == ascii "transfer-encoding"
    || name == ascii "upgrade"

/-! ## The shared field walk -/

/-- The universal rules of `walk_init`, field by field. -/
def walkFields (requestHeaders : Bool) : Bool → List Field → Bool
  | _, [] => true
  | seenRegular, f :: fs =>
    nameIsValid f.name && valueIsValid f.value
      && (if isPseudo f then !seenRegular && walkFields requestHeaders seenRegular fs
          else
            !isForbidden f.name
              && (f.name != ascii "te" || (requestHeaders && teIsTrailers f.value))
              && walkFields requestHeaders true fs)

/-- `walk_init`: the decoded fields, and the scratch offset where Structured Field
output may begin. -/
def walkInit (sec : Bytes) (scratchCap : Nat) (requestHeaders : Bool) :
    Except Error (List Field × Nat) :=
  match Qpack.decodeSection sec maxFields scratchCap with
  | .error .buffer => .error .buffer
  | .error _ => .error .qpackDecompressionFailed
  | .ok (fields, sfOff) =>
    if walkFields requestHeaders false fields then .ok (fields, sfOff) else .error .malformed

/-- `parse_protocol_list`: a malformed field, or an empty member, is ignored. -/
def parseProtocolList (value : Bytes) (opts : Opts) (maxProtocols cap : Nat) :
    Except Error (List Bytes) :=
  match Sf.stringParseList value opts.lenientSfTokens cap maxProtocols with
  | .error .buffer => .error .buffer
  | .error .malformed => .ok []
  | .ok ps => if ps.any (·.isEmpty) then .ok [] else .ok ps

/-! ## Requests -/

/-- `wtq_connect_req_t`, with the offered protocols. -/
structure Request where
  authority : Bytes
  path : Bytes
  origin : Option Bytes
  legacyProtocol : Bool
  d02Marker : Option Bytes
  protocols : List Bytes
  deriving DecidableEq, Repr

/-- The fields `wtq_connect_decode_request` picks out of a section. -/
structure RequestSlots where
  method : Option Bytes := none
  scheme : Option Bytes := none
  authority : Option Bytes := none
  path : Option Bytes := none
  protocol : Option Bytes := none
  origin : Option Bytes := none
  d02Marker : Option Bytes := none
  wtap : Option Bytes := none
  host : Option Bytes := none
  deriving DecidableEq, Repr

/-- Fill a slot that may be filled only once. -/
def fillOnce (slot : Option Bytes) (v : Bytes) : Option (Option Bytes) :=
  if slot.isSome then none else some (some v)

/-- File one field; `none` is a malformed section (an unknown or repeated
pseudo-header, or a repeated singleton). -/
def RequestSlots.put (s : RequestSlots) (f : Field) : Option RequestSlots :=
  if isPseudo f then
    if f.name = ascii ":method" then
      (fillOnce s.method f.value).map fun v => { s with method := v }
    else if f.name = ascii ":scheme" then
      (fillOnce s.scheme f.value).map fun v => { s with scheme := v }
    else if f.name = ascii ":authority" then
      (fillOnce s.authority f.value).map fun v => { s with authority := v }
    else if f.name = ascii ":path" then
      (fillOnce s.path f.value).map fun v => { s with path := v }
    else if f.name = ascii ":protocol" then
      (fillOnce s.protocol f.value).map fun v => { s with protocol := v }
    else none
  else if f.name = ascii "origin" then
    (fillOnce s.origin f.value).map fun v => { s with origin := v }
  else if f.name = ascii "sec-webtransport-http3-draft02" then
    (fillOnce s.d02Marker f.value).map fun v => { s with d02Marker := v }
  else if f.name = ascii "wt-available-protocols" then
    (fillOnce s.wtap f.value).map fun v => { s with wtap := v }
  else if f.name = ascii "host" then
    (fillOnce s.host f.value).map fun v => { s with host := v }
  else some s

/-- Pseudo-header and Host syntax, checked before anything is routed on it. -/
def RequestSlots.syntaxOk (s : RequestSlots) : Bool :=
  s.method.any valueIsToken
    && s.protocol.all valueIsToken
    && s.scheme.all schemeIsValid
    && s.host.all fun h =>
      !h.isEmpty && s.authority.all fun a => spanIeq h a

/-- A request that is not a CONNECT: well-formed, or malformed. -/
def RequestSlots.classifyPlain (s : RequestSlots) : Error :=
  match s.scheme, s.path, s.protocol with
  | some scheme, some path, none =>
    if path.isEmpty then .malformed
    else if spanIeq scheme (ascii "https") || spanIeq scheme (ascii "http") then
      if s.authority.any (·.isEmpty) then .malformed
      else if s.authority.isNone && s.host.isNone then .malformed
      else .notWebtransport
    else .notWebtransport
  | _, _, _ => .malformed

/-- A CONNECT without `:protocol`: an ordinary tunnel, or malformed. -/
def RequestSlots.classifyTunnel (s : RequestSlots) : Error :=
  match s.authority, s.scheme, s.path with
  | some a, none, none => if a.isEmpty then .malformed else .notWebtransport
  | _, _, _ => .malformed

/-- Classify the filed fields, and read the request out of a WebTransport CONNECT. -/
def RequestSlots.judge (s : RequestSlots) (opts : Opts) (maxProtocols cap : Nat) :
    Except Error Request :=
  if !s.syntaxOk then .error .malformed
  else if s.method ≠ some (ascii "CONNECT") then .error s.classifyPlain
  else
    match s.protocol with
    | none => .error s.classifyTunnel
    | some protocol =>
      match s.scheme, s.authority, s.path with
      | some scheme, some authority, some path =>
        let legacy := opts.acceptLegacyProtocol && protocol == protocolTokenLegacy
        if protocol ≠ protocolToken ∧ !legacy then .error .notWebtransport
        else if scheme ≠ ascii "https" then .error .malformed
        else if authority.isEmpty || path.isEmpty then .error .malformed
        else
          let finish protocols := Except.ok
            { authority, path, origin := s.origin,
              legacyProtocol := protocol ≠ protocolToken,
              d02Marker := s.d02Marker, protocols }
          match s.wtap with
          | none => finish []
          | some value =>
            match parseProtocolList value opts maxProtocols cap with
            | .error e => .error e
            | .ok protocols => finish protocols
      | _, _, _ => .error .malformed

/-- `wtq_connect_decode_request`. -/
def decodeRequest (sec : Bytes) (opts : Opts) (maxProtocols scratchCap : Nat) :
    Except Error Request :=
  match walkInit sec scratchCap true with
  | .error e => .error e
  | .ok (fields, sfOff) =>
    match fields.foldlM RequestSlots.put {} with
    | none => .error .malformed
    | some s => s.judge opts maxProtocols (scratchCap - sfOff)

/-- `wtq_connect_validate_trailers`; `none` is OK. -/
def validateTrailers (sec : Bytes) (scratchCap : Nat) : Option Error :=
  match walkInit sec scratchCap false with
  | .error e => some e
  | .ok (fields, _) => if fields.any isPseudo then some .malformed else none

/-! ## Responses -/

/-- `wtq_connect_resp_t`. -/
structure Response where
  status : Nat
  protocol : Option Bytes
  d02Marker : Option Bytes
  deriving DecidableEq, Repr

/-- `wtq_connect_status_is_success`. -/
def statusIsSuccess (status : Nat) : Bool := 200 ≤ status && status ≤ 299

/-- The fields `wtq_connect_decode_response` picks out of a section. -/
structure ResponseSlots where
  status : Option Bytes := none
  rmark : Option Bytes := none
  wtp : Option Bytes := none
  deriving DecidableEq, Repr

def ResponseSlots.put (s : ResponseSlots) (f : Field) : Option ResponseSlots :=
  if isPseudo f then
    if f.name = ascii ":status" then
      (fillOnce s.status f.value).map fun v => { s with status := v }
    else none
  else if f.name = ascii "sec-webtransport-http3-draft" then
    (fillOnce s.rmark f.value).map fun v => { s with rmark := v }
  else if f.name = ascii "wt-protocol" then
    (fillOnce s.wtp f.value).map fun v => { s with wtp := v }
  else some s

/-- The three digits of `:status`, at least 100. -/
def parseStatus (v : Bytes) : Option Nat :=
  match v with
  | [a, b, c] =>
    if v.all (fun d => 48 ≤ d && d ≤ 57) then
      let code := (a.toNat - 48) * 100 + (b.toNat - 48) * 10 + (c.toNat - 48)
      if code < 100 then none else some code
    else none
  | _ => none

/-- `wtq_connect_decode_response`. -/
def decodeResponse (sec : Bytes) (opts : Opts) (scratchCap : Nat) : Except Error Response :=
  match walkInit sec scratchCap false with
  | .error e => .error e
  | .ok (fields, sfOff) =>
    match fields.foldlM ResponseSlots.put {} with
    | none => .error .malformed
    | some s =>
      match s.status.bind parseStatus with
      | none => .error .malformed
      | some status =>
        match s.wtp with
        | none => .ok { status, protocol := none, d02Marker := s.rmark }
        | some value =>
          match Sf.stringParseItem value opts.lenientSfTokens (scratchCap - sfOff) with
          | .error .buffer => .error .buffer
          | .error .malformed => .ok { status, protocol := none, d02Marker := s.rmark }
          | .ok v =>
            .ok { status, protocol := if v.isEmpty then none else some v,
                  d02Marker := s.rmark }

/-! ## Encoders -/

/-- The QPACK outcome as a CONNECT outcome. -/
def ofQpack : Except Qpack.Error Bytes → Except Error Bytes
  | .ok bs => .ok bs
  | .error .buffer => .error .buffer
  | .error _ => .error .malformed

/-- The optional Structured Field list of an offer; `none` when nothing is offered. -/
def stageOffer (protocols : List Bytes) : Except Error (Option Bytes) :=
  if protocols.isEmpty then .ok none
  else if protocols.any fun p => p.isEmpty || !Sf.stringValid p then .error .malformed
  else
    match Sf.stringEncodeList protocols sfStaging with
    | .ok s => .ok (some s)
    | .error .buffer => .error .buffer
    | .error .malformed => .error .malformed

/-- The fields of a generated CONNECT request, in wire order. -/
def requestFields (authority path : Bytes) (origin : Option Bytes) (token : Bytes)
    (emitD02Marker : Bool) (offer : Option Bytes) : List Field :=
  [{ name := ascii ":method", value := ascii "CONNECT" },
   { name := ascii ":scheme", value := ascii "https" },
   { name := ascii ":authority", value := authority },
   { name := ascii ":path", value := path },
   { name := ascii ":protocol", value := token }]
    ++ (match origin with
        | some o => if o.isEmpty then [] else [{ name := ascii "origin", value := o }]
        | none => [])
    ++ (if emitD02Marker then
          [{ name := ascii "sec-webtransport-http3-draft02", value := ascii "1" }] else [])
    ++ (match offer with
        | some s => [{ name := ascii "wt-available-protocols", value := s }]
        | none => [])

/-- `wtq_connect_encode_request_d02`. -/
def encodeRequestD02 (authority path : Bytes) (origin : Option Bytes)
    (protocols : List Bytes) (token : Bytes) (emitD02Marker : Bool) (cap : Nat) :
    Except Error Bytes :=
  if authority.isEmpty || path.isEmpty then .error .malformed
  else
    let token := if token.isEmpty then protocolToken else token
    if !valueIsToken token then .error .malformed
    else if !valueIsValid authority || !valueIsValid path || !origin.all valueIsValid then
      .error .malformed
    else
      match stageOffer protocols with
      | .error e => .error e
      | .ok offer =>
        ofQpack (Qpack.encodeSection
          (requestFields authority path origin token emitD02Marker offer) cap)

/-- The decimal digits of a status code. -/
def statusDigits (status : Nat) : Bytes :=
  [UInt8.ofNat (48 + status / 100), UInt8.ofNat (48 + status / 10 % 10),
   UInt8.ofNat (48 + status % 10)]

/-- The optional Structured Field item of a response. -/
def stageSelected : Option Bytes → Except Error (Option Bytes)
  | none => .ok none
  | some p =>
    if p.isEmpty || !Sf.stringValid p then .error .malformed
    else
      match Sf.stringEncodeItem p sfStaging with
      | .ok s => .ok (some s)
      | .error .buffer => .error .buffer
      | .error .malformed => .error .malformed

/-- The fields of a generated response, in wire order. -/
def responseFields (status : Nat) (emitD02Marker : Bool) (selected : Option Bytes) :
    List Field :=
  [{ name := ascii ":status", value := statusDigits status }]
    ++ (if emitD02Marker then
          [{ name := ascii "sec-webtransport-http3-draft", value := ascii "draft02" }] else [])
    ++ (match selected with
        | some s => [{ name := ascii "wt-protocol", value := s }]
        | none => [])

/-- `wtq_connect_encode_response_ex`. -/
def encodeResponseEx (status : Nat) (selected : Option Bytes) (emitD02Marker : Bool)
    (cap : Nat) : Except Error Bytes :=
  if status < 100 ∨ status > 999 then .error .malformed
  else
    match stageSelected selected with
    | .error e => .error e
    | .ok sel => ofQpack (Qpack.encodeSection (responseFields status emitD02Marker sel) cap)

/-- `wtq_connect_encode_response`. -/
def encodeResponse (status : Nat) (selected : Option Bytes) (cap : Nat) :
    Except Error Bytes :=
  encodeResponseEx status selected false cap

/-- `wtq_connect_select_protocol`. -/
def selectProtocol (offered supported : List Bytes) : Option Nat :=
  Sf.stringSelect offered supported

end Wtquic.Connect
