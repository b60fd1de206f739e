-- SUMMARY: Capsule protocol: CLOSE and DRAIN encoders and the incremental decoder.
import Wtquic.Proto.H3Frame

namespace Wtquic.Capsule

/-! # Capsules

The model of `capsule.c`. A capsule header has the wire shape of an HTTP/3 frame
header, so the encoders and the decoder reuse it. -/

def typeCloseSession : Nat := 0x2843
def typeDrainSession : Nat := 0x78ae

/-- `WTQ_CAPSULE_MAX_REASON`. -/
def maxReason : Nat := 1024

inductive Kind where
  | close
  | drain
  | unknown
  deriving DecidableEq, Repr

/-- `wtq_capsule_t`: a decoded capsule. The code and reason are those of a CLOSE. -/
structure Decoded where
  kind : Kind
  type : Nat
  length : Nat
  headerLen : Nat
  closeCode : UInt32
  reason : Bytes
  deriving DecidableEq, Repr

def encodeDrain (cap : Nat) : Except Varint.Error Bytes :=
  H3Frame.encodeHeader typeDrainSession 0 cap

/-- The four bytes of a close code, network order. -/
def codeBytes (code : UInt32) : Bytes := Varint.bigEndian 4 code.toNat

def encodeClose (code : UInt32) (reason : Bytes) (cap : Nat) : Except Varint.Error Bytes :=
  if reason.length > maxReason then .error .range
  else
    let payloadLen := 4 + reason.length
    if cap < H3Frame.headerLen typeCloseSession payloadLen + payloadLen then .error .buffer
    else do
      let h ← H3Frame.encodeHeader typeCloseSession payloadLen cap
      return h ++ codeBytes code ++ reason

/-! ## Incremental decoder -/

inductive DecState where
  | header
  | payload
  | poisoned
  deriving DecidableEq, Repr

/-- `wtq_capsule_dec_t`. `reason` is `reason[0..reason_len)`. -/
structure Dec where
  hdr : H3Frame.Dec := {}
  state : DecState := .header
  kind : Option Kind := none
  codeHave : Nat := 0
  type : Nat := 0
  payloadLen : Nat := 0
  remaining : Nat := 0
  headerLen : Nat := 0
  codeAcc : UInt32 := 0
  reason : Bytes := []
  deriving DecidableEq, Repr

def decInit : Dec := {}

/-- Classify a completed header, `none` for an invalid shape of a known type. -/
def classify (type payloadLen : Nat) : Option Kind :=
  if type = typeCloseSession then
    if payloadLen < 4 ∨ payloadLen > 4 + maxReason then none else some .close
  else if type = typeDrainSession then
    if payloadLen ≠ 0 then none else some .drain
  else some .unknown

/-- The capsule a decoder reports once its payload is complete. -/
def emit (d : Dec) : Decoded where
  kind := d.kind.getD .unknown
  type := d.type
  length := d.payloadLen
  headerLen := d.headerLen
  closeCode := d.codeAcc
  reason := d.reason

/-- The outcomes of a feed. -/
inductive Result where
  | needMore
  | ok (cap : Decoded)
  | malformed
  deriving DecidableEq, Repr

/-- One payload byte of a CLOSE: first the four code bytes, then the reason. -/
def Dec.closeByte (d : Dec) (b : UInt8) : Dec :=
  if d.codeHave < 4 then
    { d with codeAcc := d.codeAcc * 256 + b.toUInt32, codeHave := d.codeHave + 1 }
  else { d with reason := d.reason ++ [b] }

/-- The payload loop on the `take` bytes that belong to this capsule. -/
def Dec.payload (d : Dec) (bs : Bytes) : Dec :=
  let d' := if d.kind = some .close then bs.foldl Dec.closeByte d else d
  { d' with remaining := d.remaining - bs.length }

/-- The payload half of a feed, after `eaten` bytes of this feed were consumed. -/
def decFeedPayload (d : Dec) (src : Bytes) (eaten : Nat) : Result × Dec × Nat :=
  let bs := src.take d.remaining
  let d' := d.payload bs
  if d'.remaining > 0 then (.needMore, d', eaten + bs.length)
  else (.ok (emit d'), decInit, eaten + bs.length)

/-- `wtq_capsule_dec_feed`. -/
def decFeed (d : Dec) (src : Bytes) : Result × Dec × Nat :=
  match d.state with
  | .poisoned => (.malformed, d, 0)
  | .header =>
    match H3Frame.decFeed d.hdr src with
    | (none, hdr, c) => (.needMore, { d with hdr }, c)
    | (some h, hdr, c) =>
      let d := { d with
        hdr, type := h.type, payloadLen := h.length, remaining := h.length,
        headerLen := h.headerLen, codeHave := 0, codeAcc := 0, reason := [] }
      match classify h.type h.length with
      | none => (.malformed, { d with state := .poisoned }, c)
      | some kind =>
        let d := { d with kind := some kind }
        if d.remaining = 0 then (.ok (emit d), decInit, c)
        else decFeedPayload { d with state := .payload } (src.drop c) c
  | .payload => decFeedPayload d src 0

end Wtquic.Capsule
