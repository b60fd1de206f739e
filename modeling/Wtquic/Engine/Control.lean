-- SUMMARY: Bootstrap, the peer's control stream and the QPACK streams.
import Wtquic.Engine.Request

namespace Wtquic.Engine

/-! # Control streams

Our own critical streams, the peer's control stream with its SETTINGS, GOAWAY and
MAX_PUSH_ID, and the peer's QPACK streams. -/

variable {σ : Type} (E : Ctx σ)

/-! ## Bootstrap -/

/-- Open one local critical stream and send its first bytes. -/
def openLocal (store : Nat → Conn → Conn) (bytes : Bytes) (w : World σ) : Rc × World σ :=
  let (r, w) := w.op E (.openUni none)
  if r.rc ≠ .ok then (r.rc, w)
  else
    let (ds, w) := w.newDetachedDs
    let (r, w) := (w.updConn (store ds)).op E (.send ds bytes false)
    (r.rc, w)

/-- `sizeof(buf) - 1` of `conn_open_locals`. -/
def settingsFrameCap : Nat := 8 + 64

/-- `conn_open_locals`: the control stream with our SETTINGS, then the two QPACK
streams. The attempt is consumed before the first driver operation. -/
def connOpenLocals (w : World σ) : Rc × World σ :=
  let cfg := { enableConnectProtocol := w.conn.ecp, wtProfiles := w.conn.wtProfiles }
  match Settings.encodeFrame cfg settingsFrameCap with
  | .error _ => (.backend, w)
  | .ok frame =>
    let w := w.updConn fun c => { c with localsAttempted := true }
    let (rc, w) := openLocal E (fun ds c => { c with localCtrl := ds }) (0x00 :: frame) w
    if rc ≠ .ok then (rc, w)
    else
      let (rc, w) := openLocal E (fun ds c => { c with localQpkEnc := ds }) [0x02] w
      if rc ≠ .ok then (rc, w)
      else openLocal E (fun ds c => { c with localQpkDec := ds }) [0x03] w

/-- `wtq_conn_start`: a server only latches the attempt. -/
def start (w : World σ) : Rc × World σ :=
  if w.conn.started || w.conn.closed then (.state, w)
  else
    let w := w.updConn fun c => { c with started := true }
    match w.conn.persp with
    | .server => (.ok, w)
    | .client => connOpenLocals E w

/-- `conn_open_locals_if_deferred`. -/
def connOpenLocalsIfDeferred (w : World σ) : Rc × World σ :=
  if w.conn.localsAttempted || !w.conn.started || w.conn.closed then (.ok, w)
  else
    let (rc, w) := connOpenLocals E w
    if rc ≠ .ok then (.closed, connFatal E H3Err.internalError w) else (.ok, w)

/-! ## The control stream -/

/-- `control_frame_forbidden`. -/
def controlFrameForbidden (type : Nat) : Bool :=
  [0x00, 0x01, 0x05, 0x02, 0x06, 0x08, 0x09].contains type

/-- The frame-header half of `control_bytes`. -/
def controlHeader (i : Nat) (h : H3Frame.Header) (w : World σ) : Bool × World σ :=
  let isSettings := h.type == H3Frame.typeSettings
  if !w.conn.settingsReceived && !isSettings then
    (false, connFatal E H3Err.missingSettings w)
  else if w.conn.settingsReceived && isSettings then
    (false, connFatal E H3Err.frameUnexpected w)
  else if !isSettings && controlFrameForbidden h.type then
    (false, connFatal E H3Err.frameUnexpected w)
  else if isSettings then
    if h.length > settingsCap then (false, connFatal E H3Err.excessiveLoad w)
    else (true, w.modEs i fun e => { e with frameKind := .settings })
  else if [H3Frame.typeGoaway, H3Frame.typeCancelPush, H3Frame.typeMaxPushId].contains h.type then
    if h.type = H3Frame.typeMaxPushId ∧ w.conn.persp = .client then
      (false, connFatal E H3Err.frameUnexpected w)
    else if h.length = 0 ∨ h.length > 8 then (false, connFatal E H3Err.frameError w)
    else (true, w.modEs i fun e => { e with frameKind := .oneVarint })
  else (true, w.modEs i fun e => { e with frameKind := .skip })

/-- The payload half of `control_bytes`. -/
def controlPayload (i : Nat) (bs : Bytes) (w : World σ) : Bool × World σ :=
  if (w.es i).frameKind ≠ .skip ∧ !bs.isEmpty then (true, appendSetBuf i bs w) else (true, w)

/-- A MAX_PUSH_ID value; the maximum cannot shrink. -/
def controlMaxPushId (v : Nat) (w : World σ) : World σ :=
  if w.conn.maxPushId.any (v < ·) then connFatal E H3Err.idError w
  else w.updConn fun c => { c with maxPushId := some v }

/-- The CONNECT stream a GOAWAY with id `v` refuses. -/
def goawayRefuses (c : Conn) (v : Nat) : Option Nat :=
  (List.range c.streamCapacity).find? fun i =>
    (c.peer i).kind == .connect && !(c.peer i).nativeIdPending && v ≤ (c.peer i).id

/-- A GOAWAY value; either peer can only lower its limit. -/
def controlGoaway (v : Nat) (w : World σ) : World σ :=
  if (w.conn.persp = .client ∧ v % 4 ≠ 0) ∨ w.conn.goaway.any (· < v) then
    connFatal E H3Err.idError w
  else
    let w := w.updConn fun c => { c with goaway := some v }
    let w :=
      if w.conn.persp = .client ∧ w.conn.sessState = .sent then
        match goawayRefuses w.conn v with
        | some i => clientRefused E i w
        | none => w
      else w
    sessionDraining E w

/-- A complete GOAWAY, CANCEL_PUSH or MAX_PUSH_ID: exactly one varint. -/
def controlOneVarint (i : Nat) (w : World σ) : World σ :=
  let e := w.es i
  match Varint.decode e.setBuf with
  | none => connFatal E H3Err.frameError w
  | some (v, c) =>
    if c ≠ e.setBuf.length then connFatal E H3Err.frameError w
    else if e.frameType = H3Frame.typeCancelPush then connFatal E H3Err.idError w
    else if e.frameType = H3Frame.typeMaxPushId then controlMaxPushId E v w
    else if e.frameType = H3Frame.typeGoaway then controlGoaway E v w
    else w

/-- The FIN that arrived while a request was parked is applied after its decision. -/
def applyDeferredFin (i : Nat) (deferredFin : Bool) (w : World σ) : World σ :=
  if deferredFin && !w.conn.closed && (w.es i).kind != .free then
    estreamRelease E i (forgetSessionEs i (requestStreamFin E i w))
  else w

/-- Copy the parked section back into the stream it came from. -/
def restoreParked (i : Nat) (w : World σ) : World σ :=
  let buf := w.conn.parkedBuf
  let w := (w.auditCopy .parkedBuf 0 buf.length).auditCopy .setBuf 0 buf.length
  (parkedRequestCancel w).modEs i fun e => { e with setBuf := buf }

/-- Release the parked CONNECT: decide it now, then apply its FIN. -/
def releaseParked (tbl : PathTable) (i : Nat) (w : World σ) : World σ :=
  applyDeferredFin E i w.conn.parkedFin (serverRequestDone E tbl i (restoreParked i w))

/-- Record the peer's SETTINGS, select and latch the profile. -/
def latchSettings (s : Settings.H3Settings) (c : Conn) : Conn :=
  match Settings.selectProfile s (c.persp == .client) c.wtProfiles with
  | some sel =>
    { c with
      peerSettings := some s, settingsReceived := true,
      wtProfile := sel, profileLatched := true, wtSupported := true }
  | none => { c with peerSettings := some s, settingsReceived := true, wtSupported := false }

/-- A CONNECT that waited for the SETTINGS: the client's own, or a parked one. -/
def settingsRelease (tbl : PathTable) (w : World σ) : World σ :=
  let w :=
    if w.conn.persp = .client ∧ w.conn.sessState = .pending then
      if w.conn.wtSupported then clientSendConnect E w else sessionFailed E .noWtSupport w
    else w
  match w.conn.persp, w.conn.parkedEs with
  | .server, some i => releaseParked E tbl i w
  | _, _ => w

/-- A complete SETTINGS frame. -/
def controlSettings (tbl : PathTable) (i : Nat) (w : World σ) : World σ :=
  match Settings.decode (w.es i).setBuf with
  | .error .setting => connFatal E H3Err.settingsError w
  | .error .needMore => connFatal E H3Err.frameError w
  | .ok s =>
    let w := w.updConn (latchSettings s)
    settingsRelease E tbl (E.notify (.peerSettings w.conn.wtSupported) w)

/-- A complete frame on the control stream. -/
def controlFrameDone (tbl : PathTable) (i : Nat) (w : World σ) : Bool × World σ :=
  match (w.es i).frameKind with
  | .oneVarint => (true, controlOneVarint E i w)
  | .settings => (true, controlSettings E tbl i w)
  | .skip | .capsule => (true, w)

def controlWalk (tbl : PathTable) (i : Nat) : FrameWalk σ where
  header := controlHeader E i
  payload := controlPayload i
  finish := controlFrameDone E tbl i

/-- `control_bytes`. -/
def controlBytes (tbl : PathTable) (i : Nat) : Bytes → World σ → World σ :=
  frameWalk (controlWalk E tbl i) i

/-! ## QPACK streams -/

/-- `qpack_bytes`. -/
def qpackBytes (i : Nat) : Bytes → World σ → World σ
  | [], w => w
  | b :: rest, w =>
    let e := w.es i
    if e.qpackType = 0x02 then connFatal E H3Err.qpackEncoderStreamError w
    else if (e.setBuf.isEmpty ∧ b.toNat / 64 ≠ 1) ∨ e.setBuf.length = qpackCap then
      connFatal E H3Err.qpackDecoderStreamError w
    else
      let w := (w.auditCopy .qpackBuf e.setBuf.length 1).modEs i
        fun e => { e with setBuf := e.setBuf ++ [b] }
      match Qpack.intDecode (w.es i).setBuf 6 with
      | .ok _ _ => qpackBytes i rest (w.modEs i fun e => { e with setBuf := [] })
      | .needMore => qpackBytes i rest w
      | .malformed => connFatal E H3Err.qpackDecoderStreamError w

end Wtquic.Engine
