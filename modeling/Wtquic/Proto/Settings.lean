-- SUMMARY: HTTP/3 SETTINGS: decode, encode and WebTransport profile selection.
import Wtquic.Proto.H3Frame

namespace Wtquic

/-! # SETTINGS

The model of `h3_settings.c`. -/

/-- `wtq_h3_wt_profile_t`: the WebTransport-over-HTTP/3 wire profiles. -/
inductive Profile where
  | current
  | d13_14Compat
  | d02Rfc9297Compat
  deriving DecidableEq, Repr

/-- `wtq_h3_wt_profile_set_t`, one flag for each known bit. -/
structure ProfileSet where
  current : Bool := false
  d13_14Compat : Bool := false
  d02Rfc9297Compat : Bool := false
  deriving DecidableEq, Repr

namespace ProfileSet

def mem (s : ProfileSet) : Profile → Bool
  | .current => s.current
  | .d13_14Compat => s.d13_14Compat
  | .d02Rfc9297Compat => s.d02Rfc9297Compat

/-- `wtq_h3_wt_profile_bit`. -/
def bit : Profile → ProfileSet
  | .current => { current := true }
  | .d13_14Compat => { d13_14Compat := true }
  | .d02Rfc9297Compat => { d02Rfc9297Compat := true }

def isEmpty (s : ProfileSet) : Bool := !s.current && !s.d13_14Compat && !s.d02Rfc9297Compat

end ProfileSet

namespace Settings

def idQpackMaxTableCapacity : Nat := 0x01
def idMaxFieldSectionSize : Nat := 0x06
def idQpackBlockedStreams : Nat := 0x07
def idEnableConnectProtocol : Nat := 0x08
def idH3Datagram : Nat := 0x33
def idWtEnabled : Nat := 0x2c7cf000
def idWtMaxSessionsD13 : Nat := 0x14e9cd29
def idWtMaxSessionsD07 : Nat := 0xc671706a
def idEnableWebtransportLeg : Nat := 0x2b603742

/-- `wtq_h3_settings_t`; `none` is an absent setting. -/
structure H3Settings where
  qpackMaxTableCapacity : Option Nat := none
  maxFieldSectionSize : Option Nat := none
  qpackBlockedStreams : Option Nat := none
  enableConnectProtocol : Option Nat := none
  h3Datagram : Option Nat := none
  wtEnabled : Option Nat := none
  wtMaxSessionsD13 : Option Nat := none
  wtMaxSessionsD07 : Option Nat := none
  enableWebtransportLeg : Option Nat := none
  unknownCount : Nat := 0
  deriving DecidableEq, Repr

/-- The failures of a decode. -/
inductive Error where
  | needMore
  | setting
  deriving DecidableEq, Repr

def settingIsH2Reserved (id : Nat) : Bool := 0x02 ≤ id && id ≤ 0x05

/-- Store one pair, or reject a boolean setting above 1. -/
def store (s : H3Settings) (id value : Nat) : Except Error H3Settings :=
  if id = idQpackMaxTableCapacity then .ok { s with qpackMaxTableCapacity := some value }
  else if id = idMaxFieldSectionSize then .ok { s with maxFieldSectionSize := some value }
  else if id = idQpackBlockedStreams then .ok { s with qpackBlockedStreams := some value }
  else if id = idEnableConnectProtocol then
    if value > 1 then .error .setting else .ok { s with enableConnectProtocol := some value }
  else if id = idH3Datagram then
    if value > 1 then .error .setting else .ok { s with h3Datagram := some value }
  else if id = idWtEnabled then
    if value > 1 then .error .setting else .ok { s with wtEnabled := some value }
  else if id = idWtMaxSessionsD13 then .ok { s with wtMaxSessionsD13 := some value }
  else if id = idWtMaxSessionsD07 then .ok { s with wtMaxSessionsD07 := some value }
  else if id = idEnableWebtransportLeg then
    if value > 1 then .error .setting else .ok { s with enableWebtransportLeg := some value }
  else .ok { s with unknownCount := s.unknownCount + 1 }

/-- The loop of `setting_seen_before`: does one of the pairs of `pre` carry `id`? As in the
source the results of the two decodes are not checked: a failed one leaves its output as it
was. -/
def settingSeenBefore : Nat → Bytes → Nat → Bool
  | 0, _, _ => false
  | _ + 1, [], _ => false
  | fuel + 1, pre, id =>
    let (prevId, c) := (Varint.decode pre).getD (0, 0)
    let (_, c') := (Varint.decode (pre.drop c)).getD (0, c)
    prevId = id || settingSeenBefore fuel (pre.drop (c + c')) id

/-- The decode loop at offset `off`. Every round consumes at least one byte, so `fuel = len`
rounds suffice. -/
def decodeLoop (payload : Bytes) : Nat → Nat → H3Settings → Except Error H3Settings
  | fuel, off, s =>
    if off < payload.length then
      match fuel with
      | 0 => .error .needMore
      | fuel + 1 =>
        match Varint.decode (payload.drop off) with
        | none => .error .needMore
        | some (id, c) =>
          match Varint.decode (payload.drop (off + c)) with
          | none => .error .needMore
          | some (value, c') =>
            if settingIsH2Reserved id then .error .setting
            else if settingSeenBefore off (payload.take off) id then .error .setting
            else
              match store s id value with
              | .error e => .error e
              | .ok s => decodeLoop payload fuel (off + c + c') s
    else .ok s

/-- `wtq_h3_settings_decode`. -/
def decode (payload : Bytes) : Except Error H3Settings :=
  decodeLoop payload payload.length 0 {}

/-- The caller's record `*out` after `wtq_h3_settings_decode`: the loop fills a local one, which
is stored behind the loop only. -/
def decodeInto (out : H3Settings) (payload : Bytes) : H3Settings :=
  match decode payload with
  | .ok s => s
  | .error _ => out

/-! ## Outgoing settings -/

/-- `wtq_h3_settings_encode_cfg_t`. -/
structure EncodeCfg where
  enableConnectProtocol : Bool
  wtProfiles : ProfileSet
  deriving DecidableEq, Repr

/-- `build_out_settings`: the pairs to send, in ascending identifier order. -/
def buildOutSettings (cfg : EncodeCfg) : List (Nat × Nat) :=
  let profiles := if cfg.wtProfiles.isEmpty then ProfileSet.bit .current else cfg.wtProfiles
  [(idQpackMaxTableCapacity, 0), (idQpackBlockedStreams, 0)]
    ++ (if cfg.enableConnectProtocol then [(idEnableConnectProtocol, 1)] else [])
    ++ [(idH3Datagram, 1)]
    ++ (if profiles.d13_14Compat then [(idWtMaxSessionsD13, 1)] else [])
    ++ (if profiles.d02Rfc9297Compat then [(idEnableWebtransportLeg, 1)] else [])
    ++ (if profiles.current then [(idWtEnabled, 1)] else [])

def payloadLen (cfg : EncodeCfg) : Nat :=
  ((buildOutSettings cfg).map fun p => Varint.len p.1 + Varint.len p.2).sum

/-- The encode loop; the capacity was checked before it. -/
def encodePairs (cap : Nat) : List (Nat × Nat) → Except Varint.Error Bytes
  | [] => .ok []
  | (id, value) :: rest => do
    let i ← Varint.encode id cap
    let v ← Varint.encode value (cap - i.length)
    let tail ← encodePairs (cap - i.length - v.length) rest
    return i ++ v ++ tail

def encodePayload (cfg : EncodeCfg) (cap : Nat) : Except Varint.Error Bytes :=
  if cap < payloadLen cfg then .error .buffer else encodePairs cap (buildOutSettings cfg)

def encodeFrame (cfg : EncodeCfg) (cap : Nat) : Except Varint.Error Bytes :=
  let n := payloadLen cfg
  if cap < H3Frame.headerLen H3Frame.typeSettings n + n then .error .buffer
  else do
    let h ← H3Frame.encodeHeader H3Frame.typeSettings n cap
    let p ← encodePayload cfg (cap - h.length)
    return h ++ p

/-! ## Profile selection -/

/-- `WT_PRECEDENCE`: newest draft first. -/
def wtPrecedence : List Profile := [.current, .d13_14Compat, .d02Rfc9297Compat]

/-- Does the peer advertise this profile's WebTransport signal? -/
def peerAdvertises (peer : H3Settings) : Profile → Bool
  | .current => peer.wtEnabled == some 1
  | .d13_14Compat => peer.wtMaxSessionsD13.any (· > 0)
  | .d02Rfc9297Compat => peer.enableWebtransportLeg == some 1 && peer.h3Datagram == some 1

/-- The predicate under which `wtq_h3_settings_select_profile` takes a profile. -/
def selectable (peer : H3Settings) (peerIsServer : Bool) (set : ProfileSet) (p : Profile) : Bool :=
  set.mem p
    && (p == .d02Rfc9297Compat
      || (peer.h3Datagram == some 1
        && (!peerIsServer || peer.enableConnectProtocol == some 1)))
    && peerAdvertises peer p

/-- `wtq_h3_settings_select_profile`. -/
def selectProfile (peer : H3Settings) (peerIsServer : Bool) (set : ProfileSet) : Option Profile :=
  wtPrecedence.find? (selectable peer peerIsServer set)

end Settings
end Wtquic
