-- SUMMARY: Profile policies, subprotocol checks and Origin policies.
import Wtquic.Engine.Types

namespace Wtquic.Engine

/-! # Policies

The pure policy functions of `conn.c`: the mapping from a profile to its CONNECT
rules, the serialized-origin grammar, and the checks of configured values. -/

/-- `CONN_STRICT_OPTS`. -/
def strictOpts : Connect.Opts := { lenientSfTokens := false, acceptLegacyProtocol := false }

/-- `CONN_SERVER_COMPAT_OPTS`, and `CONN_READBACK_LEGACY_OPTS` of the client. -/
def compatOpts : Connect.Opts := { lenientSfTokens := false, acceptLegacyProtocol := true }

/-- `conn_profile_policy_t`. -/
structure ProfilePolicy where
  opts : Connect.Opts
  expectLegacyToken : Bool
  requireD02RequestMarker : Bool
  emitD02ResponseMarker : Bool
  requireOrigin : Bool
  maxOutboundAppError : Nat
  deriving DecidableEq, Repr

/-- `conn_connect_policy`. -/
def connectPolicy : Profile → ProfilePolicy
  | .current => ⟨strictOpts, false, false, false, false, 0xffffffff⟩
  | .d13_14Compat => ⟨compatOpts, true, false, false, false, 0xffffffff⟩
  | .d02Rfc9297Compat => ⟨compatOpts, true, true, true, true, 255⟩

/-! ## Serialized origins -/

/-- `conn_origin_kind_t`. -/
inductive OriginKind where
  | invalid | tuple | null | multi
  deriving DecidableEq, Repr

/-- `WTQ_CONN_ORIGIN_MAX_BYTES`. -/
def originMaxBytes : Nat := 320

def originAlpha (c : UInt8) : Bool := (65 ≤ c && c ≤ 90) || (97 ≤ c && c ≤ 122)

def originDigit (c : UInt8) : Bool := 48 ≤ c && c ≤ 57

def originHex (c : UInt8) : Bool :=
  originDigit c || (65 ≤ c && c ≤ 70) || (97 ≤ c && c ≤ 102)

def originUnreserved (c : UInt8) : Bool :=
  originAlpha c || originDigit c || (ascii "-._~").contains c

def originSubdelim (c : UInt8) : Bool := (ascii "!$&'()*+,;=").contains c

/-- The digit loop of a dotted-quad part: the value and what follows, `none` past
three digits or 255. -/
def ipv4Digits : Bytes → Nat → Nat → Option (Nat × Nat × Bytes)
  | [], v, digits => some (v, digits, [])
  | c :: rest, v, digits =>
    if originDigit c then
      let v := v * 10 + (c.toNat - 48)
      if digits + 1 > 3 ∨ v > 255 then none else ipv4Digits rest v (digits + 1)
    else some (v, digits, c :: rest)

/-- `origin_ipv4`, with `parts` parts still to read. -/
def originIpv4Parts : Nat → Bytes → Bool
  | 0, _ => false
  | parts + 1, s =>
    match ipv4Digits s 0 0 with
    | none => false
    | some (_, digits, rest) =>
      if digits = 0 ∨ (digits > 1 ∧ s.head? = some 48) then false
      else if parts = 0 then rest.isEmpty
      else
        match rest with
        | [] => false
        | c :: rest => if c = 46 then originIpv4Parts parts rest else false

def originIpv4 (s : Bytes) : Bool := originIpv4Parts 4 s

/-- The group loop of `origin_ipv6`; `fuel` bounds the groups left to read. -/
def ipv6Groups : Nat → Bytes → Nat → Bool → Bool
  | 0, _, _, _ => false
  | _, [], groups, compressed => if compressed then groups < 8 else groups == 8
  | fuel + 1, s, groups, compressed =>
    let g := s.takeWhile (· ≠ 58)
    let rest := s.dropWhile (· ≠ 58)
    if g.contains 46 then
      rest.isEmpty && originIpv4 g && groups ≤ 6
        && (if compressed then groups + 2 < 8 else groups + 2 == 8)
    else if g.isEmpty ∨ g.length > 4 ∨ !g.all originHex ∨ groups + 1 > 8 then false
    else
      match rest with
      | [] => if compressed then groups + 1 < 8 else groups + 1 == 8
      | _ :: [] => false
      | _ :: c :: rest =>
        if c = 58 then
          !compressed
            && (if rest.isEmpty then groups + 1 < 8 else ipv6Groups fuel rest (groups + 1) true)
        else ipv6Groups fuel (c :: rest) (groups + 1) compressed

/-- `origin_ipv6`. -/
def originIpv6 (s : Bytes) : Bool :=
  match s with
  | [] => false
  | [c] => c != 58 && ipv6Groups 1 s 0 false
  | a :: b :: rest =>
    if a = 58 then b == 58 && (rest.isEmpty || ipv6Groups (rest.length + 1) rest 0 true)
    else ipv6Groups (s.length + 1) s 0 false

/-- `origin_ip_literal`: an IPvFuture or an IPv6 address. -/
def originIpLiteral (s : Bytes) : Bool :=
  match s with
  | c :: rest =>
    if s.length ≥ 4 ∧ (c = 118 ∨ c = 86) then
      let v := rest.takeWhile originHex
      match rest.dropWhile originHex with
      | dot :: tail =>
        !v.isEmpty && dot == 46 && !tail.isEmpty
          && tail.all fun c => originUnreserved c || originSubdelim c || c == 58
      | [] => false
    else originIpv6 s
  | [] => originIpv6 s

/-- The reg-name loop: the rest from the port colon on, and whether anything was
read; `none` at a byte a host may not contain. -/
def originHost : Nat → Bytes → Bool → Option (Bool × Bytes)
  | 0, _, _ => none
  | _, [], any => some (any, [])
  | fuel + 1, c :: rest, any =>
    if c = 58 then some (any, c :: rest)
    else if c = 37 then
      match rest with
      | a :: b :: rest => if originHex a && originHex b then originHost fuel rest true else none
      | _ => none
    else if originUnreserved c || originSubdelim c then originHost fuel rest true
    else none

/-- The port loop; a port above 65535 is refused before it is computed. -/
def originPort : Bytes → Nat → Option Nat
  | [], port => some port
  | c :: rest, port =>
    if !originDigit c then none
    else
      let digit := c.toNat - 48
      if port > (65535 - digit) / 10 then none else originPort rest (port * 10 + digit)

/-- What may follow the host: nothing, or a colon and a nonzero port. -/
def originAfterHost : Bytes → Bool
  | [] => true
  | c :: rest =>
    c == 58 && !rest.isEmpty
      && match originPort rest 0 with
        | none => false
        | some port => port != 0

def originSchemeRest (c : UInt8) : Bool :=
  originAlpha c || originDigit c || c == 43 || c == 45 || c == 46

/-- `origin_tuple_valid`: `scheme://host[:port]`. -/
def originTupleValid (o : Bytes) : Bool :=
  match o with
  | [] => false
  | c :: rest =>
    originAlpha c
      && match rest.dropWhile originSchemeRest with
        | 58 :: 47 :: 47 :: host =>
          match host with
          | [] => false
          | 91 :: lit =>
            let addr := lit.takeWhile (· ≠ 93)
            match lit.dropWhile (· ≠ 93) with
            | [] => false
            | _ :: tail => originIpLiteral addr && originAfterHost tail
          | _ =>
            match originHost (host.length + 1) host false with
            | none => false
            | some (any, tail) => any && originAfterHost tail
        | _ => false

/-- The serialized origins of a list separated by single spaces. -/
def splitSpaces : Bytes → List Bytes
  | [] => [[]]
  | c :: rest =>
    if c = 32 then [] :: splitSpaces rest
    else
      match splitSpaces rest with
      | [] => [[c]]
      | m :: ms => (c :: m) :: ms

/-- `conn_origin_parse`. -/
def originParse (o : Bytes) : OriginKind :=
  if o.isEmpty ∨ o.length > originMaxBytes then .invalid
  else if o = ascii "null" then .null
  else
    let members := splitSpaces o
    if !members.all originTupleValid then .invalid
    else if members.length = 1 then .tuple
    else .multi

/-- `conn_origin_authorized`. -/
def originAuthorized (p : PathEntry) (origin : Bytes) : Bool :=
  let kind := originParse origin
  if kind ≠ .tuple ∧ kind ≠ .null then false
  else
    match p.originPolicy with
    | .allowAnyNonOpaque => kind == .tuple
    | .allowAnyIncludingNull => true
    | .allowlist => p.origins.contains origin
    | .unset | .other => false

/-! ## Configured values -/

/-- `protocol_check`: can the engine carry `p` as a negotiated subprotocol? -/
def protocolCheck (p : Bytes) : Rc :=
  if p.isEmpty ∨ !Sf.stringValid p then .invalidArg
  else
    match Connect.encodeResponse 200 (some p) settingsCap with
    | .error .buffer => .tooLarge
    | .error _ => .invalidArg
    | .ok sec =>
      match Connect.decodeResponse sec strictOpts settingsCap with
      | .error .buffer => .tooLarge
      | .error _ => .invalidArg
      | .ok resp => if resp.protocol = some p then .ok else .tooLarge

/-- The loop of `wtq_conn_validate_protocols`, after `off` bytes of storage. -/
def validateProtocolsFrom (storage : Nat) : Nat → List Bytes → Rc
  | _, [] => .ok
  | off, p :: ps =>
    let rc := protocolCheck p
    if rc ≠ .ok then rc
    else if off + p.length > storage then .tooLarge
    else validateProtocolsFrom storage (off + p.length) ps

/-- `WTQ_CONN_PATH_PROTO_STORAGE`. -/
def pathProtoStorage : Nat := 256

/-- `wtq_conn_validate_protocols`. -/
def validateProtocols (protocols : List Bytes) : Rc :=
  if protocols.length > maxOffered then .tooLarge
  else validateProtocolsFrom pathProtoStorage 0 protocols

/-- `WTQ_CONN_MAX_ORIGINS`. -/
def maxOrigins : Nat := 8

/-- `WTQ_CONN_PATH_ORIGIN_STORAGE`. -/
def pathOriginStorage : Nat := 512

/-- The loop of `wtq_conn_validate_origin_policy`; `earlier` are the origins before. -/
def validateOriginsFrom : List Bytes → Nat → List Bytes → Rc
  | _, _, [] => .ok
  | earlier, total, o :: os =>
    if o.length > originMaxBytes then .tooLarge
    else
      let kind := originParse o
      if kind ≠ .tuple ∧ kind ≠ .null then .invalidArg
      else if o.length = pathOriginStorage ∨ total > pathOriginStorage - (o.length + 1) then .tooLarge
      else if earlier.contains o then .invalidArg
      else validateOriginsFrom (o :: earlier) (total + (o.length + 1)) os

/-- `wtq_conn_validate_origin_policy`; `origins = none` is the null pointer. -/
def validateOriginPolicy (mode : OriginPolicy) (origins : Option (List Bytes)) : Rc :=
  if mode = .other then .invalidArg
  else if mode ≠ .allowlist then if origins.isSome then .invalidArg else .ok
  else
    match origins with
    | none => .invalidArg
    | some os =>
      if os.isEmpty then .invalidArg
      else if os.length > maxOrigins then .tooLarge
      else validateOriginsFrom [] 0 os

end Wtquic.Engine
