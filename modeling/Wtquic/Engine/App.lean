-- SUMMARY: The application surface: connect, paths, session close and drain, WT streams, datagrams.
import Wtquic.Engine.Session

namespace Wtquic.Engine

/-! # Application calls

The functions of `conn.c` that the layer above calls, at top level or from inside a
callback. -/

variable {σ : Type} (E : Ctx σ)

/-! ## Client connect -/

/-- `wtq_client_connect_cfg_t`. -/
structure ClientConnectCfg where
  authority : Bytes
  path : Bytes
  origin : Option Bytes := none
  protocols : List Bytes := []
  requireProtocol : Bool := false
  profile : Profile := .current
  deriving DecidableEq, Repr

/-- `sizeof(offered_buf)`. -/
def offeredStorage : Nat := 512

/-- `sizeof(connect_section)`. -/
def connectSectionCap : Nat := 1024

/-- The Origin half of the preflight. -/
def preflightOrigin (origin : Option Bytes) : Rc :=
  match origin with
  | none => .invalidArg
  | some o =>
    if o.isEmpty then .invalidArg
    else if o.length > originMaxBytes then .tooLarge
    else if originParse o = .tuple ∨ originParse o = .null then .ok
    else .invalidArg

/-- The generated CONNECT section of a configuration. -/
def connectSection (cfg : ClientConnectCfg) : Except Connect.Error Bytes :=
  let pol := connectPolicy cfg.profile
  Connect.encodeRequestD02 cfg.authority cfg.path cfg.origin cfg.protocols
    (if pol.expectLegacyToken then Connect.protocolTokenLegacy else Connect.protocolToken)
    pol.requireD02RequestMarker connectSectionCap

/-- The readback of the generated section through the engine's own decoder. -/
def preflightReadback (cfg : ClientConnectCfg) (sec : Bytes) : Rc :=
  let opts := if (connectPolicy cfg.profile).expectLegacyToken then compatOpts else strictOpts
  match Connect.decodeRequest sec opts maxOffered settingsCap with
  | .error .buffer => .tooLarge
  | .error _ => .invalidArg
  | .ok rq => if rq.protocols = cfg.protocols then .ok else .tooLarge

/-- The preflight of `wtq_conn_client_connect`: every fallible check, and the section
that will be sent. It reads no connection state. -/
def preflight (cfg : ClientConnectCfg) : Except Rc Bytes :=
  let prc := validateProtocolsFrom offeredStorage 0 cfg.protocols
  if prc ≠ .ok then .error prc
  else
    let orc :=
      if (connectPolicy cfg.profile).requireOrigin then preflightOrigin cfg.origin else .ok
    if orc ≠ .ok then .error orc
    else
      match connectSection cfg with
      | .error .buffer => .error .tooLarge
      | .error _ => .error .invalidArg
      | .ok sec =>
        if sec.length > settingsCap then .error .tooLarge
        else
          let rrc := preflightReadback cfg sec
          if rrc ≠ .ok then .error rrc else .ok sec

/-- `wtq_conn_client_connect`. -/
def clientConnect (cfg : ClientConnectCfg) (w : World σ) : Rc × World σ :=
  if cfg.protocols.length > maxOffered then (.invalidArg, w)
  else if w.conn.persp ≠ .client then (.state, w)
  else if w.conn.closed || w.conn.sessState != .idle || w.conn.goaway.isSome then (.state, w)
  else if w.conn.started ∧ cfg.profile ≠ w.conn.wtProfile then (.state, w)
  else
    match preflight cfg with
    | .error rc => (rc, w)
    | .ok sec =>
      let w := w.updConn fun c => { c with
        wtProfile := cfg.profile
        wtProfiles := ProfileSet.bit cfg.profile
        offered := cfg.protocols
        requireProtocol := cfg.requireProtocol
        connectSection := sec
        clientResponseOk := false
        clientSelectedOffer := none }
      let w := w.setSess .pending
      if !w.conn.settingsReceived then (.ok, w)
      else if !w.conn.wtSupported then (.ok, sessionFailed E .noWtSupport w)
      else (.ok, clientSendConnect E w)

/-! ## Served paths -/

/-- `wtq_server_path_cfg_t`; `origins = none` is the null pointer. -/
structure ServerPathCfg where
  path : Bytes
  protocols : List Bytes := []
  requireProtocol : Bool := false
  originPolicy : OriginPolicy := .unset
  origins : Option (List Bytes) := none
  deriving DecidableEq, Repr

/-- `WTQ_CONN_MAX_PATHS`. -/
def maxPaths : Nat := 4

/-- `sizeof(path)`. -/
def pathCap : Nat := 128

/-- `WTQ_CONN_ORIGIN_STORAGE_TOTAL`. -/
def originStorageTotal : Nat := 1024

/-- The aggregate storage check over one path's origins, after `total` bytes. -/
def originStorage : Nat → List Bytes → Option Nat
  | total, [] => some total
  | total, o :: os =>
    if o.length = originStorageTotal ∨ total > originStorageTotal - (o.length + 1) then none
    else originStorage (total + (o.length + 1)) os

/-- The checks of one path. -/
def validatePath (profiles : ProfileSet) (p : ServerPathCfg) : Rc :=
  if p.path.isEmpty ∨ p.path.length > pathCap ∨ p.protocols.length > maxOffered then .tooLarge
  else
    let prc := validateProtocols p.protocols
    if prc ≠ .ok then prc
    else
      let orc := validateOriginPolicy p.originPolicy p.origins
      if orc ≠ .ok then orc
      else if profiles.d02Rfc9297Compat ∧ p.originPolicy = .unset then .invalidArg
      else .ok

/-- The validation loop of `wtq_conn_server_set_paths`, after `total` origin bytes. -/
def validatePaths (profiles : ProfileSet) : Nat → List ServerPathCfg → Rc
  | _, [] => .ok
  | total, p :: ps =>
    let rc := validatePath profiles p
    if rc ≠ .ok then rc
    else
      match originStorage total (p.origins.getD []) with
      | none => .tooLarge
      | some total => validatePaths profiles total ps

/-- One configured path, copied. -/
def ServerPathCfg.entry (p : ServerPathCfg) : PathEntry where
  path := p.path
  protos := p.protocols
  require := p.requireProtocol
  originPolicy := p.originPolicy
  origins := p.origins.getD []

/-- `wtq_conn_server_set_paths`: the status, and the table to use from now on. -/
def serverSetPaths (c : Conn) (tbl : PathTable) (paths : List ServerPathCfg) : Rc × PathTable :=
  if paths.length > maxPaths then (.invalidArg, tbl)
  else if c.persp ≠ .server then (.state, tbl)
  else
    let rc := validatePaths c.wtProfiles 0 paths
    if rc ≠ .ok then (rc, tbl) else (.ok, paths.map ServerPathCfg.entry)

/-! ## Session close and drain -/

/-- `sizeof(unit)` of `session_send_capsule`. -/
def capsuleUnitCap : Nat := 16 + 16 + Capsule.maxReason

/-- `session_send_capsule`: one capsule inside a DATA frame, as one submission. -/
def sessionSendCapsule (es : Nat) (cap : Bytes) (fin : Bool) (w : World σ) : Rc × World σ :=
  match H3Frame.encodeHeader H3Frame.typeData cap.length capsuleUnitCap with
  | .error _ => (.backend, w)
  | .ok hdr =>
    if cap.length > capsuleUnitCap - hdr.length then (.backend, w)
    else
      let (sent, w) := w.send E (w.es es).ds (hdr ++ cap) fin
      if sent then (.ok, w) else (.backend, connFatal E H3Err.internalError w)

/-- `wtq_conn_session_close`. -/
def sessionClose (code : UInt32) (reason : Bytes) (w : World σ) : Rc × World σ :=
  if reason.length > Capsule.maxReason then (.tooLarge, w)
  else if w.conn.closed then (.closed, w)
  else if !sessionActive w then (.state, w)
  else
    match w.conn.sessionEs with
    | none => (.state, w)
    | some es =>
      match Capsule.encodeClose code reason (16 + Capsule.maxReason) with
      | .error _ => (.invalidArg, w)
      | .ok cap =>
        let (rc, w) := sessionSendCapsule E es cap true w
        if rc ≠ .ok then (rc, w) else (.ok, sessionClosed E code reason true w)

/-- `wtq_conn_session_drain`: advisory, the local state does not change. -/
def sessionDrain (w : World σ) : Rc × World σ :=
  if w.conn.closed then (.closed, w)
  else if !sessionActive w then (.state, w)
  else
    match w.conn.sessionEs with
    | none => (.state, w)
    | some es =>
      match Capsule.encodeDrain 8 with
      | .error _ => (.backend, w)
      | .ok cap => sessionSendCapsule E es cap false w

/-! ## WT streams -/

/-- The slots `wt_open` may use. -/
def wtOpenSlots (c : Conn) : Nat × Nat :=
  if c.budgeted then (c.peerCapacity, c.peerCapacity + c.localCapacity)
  else if c.admissionEnabled then
    (match c.persp with | .client => 4 | .server => 10, c.streamCapacity)
  else (0, c.streamCapacity)

/-- A peer stream waits for a slot of the legacy admission pool. -/
def admissionWaiting (c : Conn) : Bool :=
  c.admissionEnabled && !c.budgeted
    && (List.range 15).any fun r => (c.admissionPeers r).any (·.state == .waiting)

/-- The stream `wt_open` leaves in its slot. -/
def Estream.opened (bidi : Bool) (ds id : Nat) (e : Estream) : Estream :=
  { e with
    ds, id, nativeIdPending := id == streamIdUnknown, kind := .wt, wtBidi := bidi,
    wtLocal := true, wtSendOpen := true, wtRecvOpen := bidi }

/-- The second half of `wt_open`: the driver stream exists, send the preamble. -/
def wtOpened (bidi : Bool) (i ds id : Nat) (w : World σ) : Rc × Option Nat × World σ :=
  let w := w.putEs i ((w.es i).opened bidi ds id)
  match Preamble.encode (if bidi then .bidi else .uni) w.conn.sessionId 16 with
  | .error _ => (.backend, none, connFatal E H3Err.internalError (estreamRelease E i w))
  | .ok pre =>
    let (sent, w) := w.send E ds pre false
    if sent then (.ok, some i, w)
    else (.backend, none, connFatal E H3Err.internalError (estreamRelease E i w))

/-- `wt_open`: the status and the slot of the new stream. -/
def wtOpen (bidi : Bool) (w : World σ) : Rc × Option Nat × World σ :=
  if w.conn.closed then (.closed, none, w)
  else if !sessionActive w then (.state, none, w)
  else if admissionWaiting w.conn then (.wouldBlock, none, w)
  else
    match w.findFree (wtOpenSlots w.conn).1 (wtOpenSlots w.conn).2 (!·.resident) with
    | none => (if w.conn.admissionEnabled then .wouldBlock else .streamLimit, none, w)
    | some i =>
      let w := w.claim i
        { id := streamIdUnknown, resident := w.conn.budgeted
          kind := if w.conn.admissionEnabled then .reserved else .free }
      let (r, ds, w) := w.openFor E bidi i
      if r.rc ≠ .ok then
        (r.rc, none, w.putEs i { w.es i with kind := .free, resident := false })
      else if w.conn.admissionEnabled && (w.conn.closed || !sessionActive w) then
        (.closed, none, estreamRelease E i (w.modEs i fun e => { e with ds }))
      else wtOpened E bidi i ds r.id w

/-- `wtq_conn_wt_enable_send_commit`. -/
def wtEnableSendCommit (i : Nat) (w : World σ) : Rc × World σ :=
  let e := w.es i
  if w.conn.closed || !sessionActive w || e.kind != .wt || !e.wtLocal || e.wtBidi
      || !e.wtSendOpen || e.wtApplicationSent then (.state, w)
  else if !w.conn.caps.sendCommitAckFin then (.unsupported, w)
  else (.ok, w.modEs i fun e => { e with wtSendCommit := true })

/-- `WTQ_STREAM_MAX_SPANS`. -/
def streamMaxSpans : Nat := 4096

/-- `wtq_conn_wt_send`. A span is its bytes, so no span is a length without data and
no sum of lengths wraps. -/
def wtSend (i : Nat) (spans : List Bytes) (fin : Bool) (cookie : Nat) (w : World σ) :
    Rc × World σ :=
  let e := w.es i
  if w.conn.closed || w.conn.sessState == .closed then (.closed, w)
  else if e.kind ≠ .wt ∨ !e.wtSendOpen then (.state, w)
  else if !w.conn.caps.hasSendGather then (.state, w)
  else if spans.length > streamMaxSpans then (.invalidArg, w)
  else
    let (r, w) := w.op E (.sendGather e.ds spans fin cookie)
    if r.rc = .ok ∧ (w.es i).generation = e.generation ∧ (w.es i).ds = e.ds
        ∧ (w.es i).kind = .wt then
      let w := w.modEs i fun e => { e with wtApplicationSent := true }
      if fin then
        (r.rc, wtReleaseIfDone E i
          (w.modEs i fun e => { e with wtSendOpen := false, wtFinPending := e.wtSendCommit }))
      else (r.rc, w)
    else (r.rc, w)

/-! ## Shutdown -/

/-- A request on the only half that is left, as a whole-stream request. -/
def Shutdown.whole (req : Shutdown) : Shutdown :=
  let code := if req.abortSend then req.sendErr else req.recvErr
  { req with mode := .wholeStream, sendErr := code, recvErr := code }

/-- An exact-halves request on a bidi stream. -/
def normalizeBidi (e : Estream) (caps : DrvCaps) (req : Shutdown) : Except Rc Shutdown :=
  if req.abortSend && req.abortRecv then
    if req.sendErr ≠ req.recvErr then
      if caps.shutSplitCodes then .ok req else .error .unsupported
    else .ok { req with mode := .wholeStream }
  else if e.wtSendOpen && e.wtRecvOpen then
    if (if req.abortSend then caps.shutBidiSend else caps.shutBidiRecv) then .ok req
    else .error .unsupported
  else .ok req.whole

/-- The validation and normalization half of `wt_shutdown`, which has no effect. -/
def normalizeShutdown (e : Estream) (caps : DrvCaps) (req : Shutdown) : Except Rc Shutdown :=
  let sendLive := e.wtSendOpen || e.wtFinPending
  match req.mode with
  | .other => .error .invalidArg
  | .wholeStream =>
    if req.sendErr ≠ req.recvErr then .error .invalidArg
    else if !sendLive && !e.wtRecvOpen then .error .state
    else .ok { req with abortSend := sendLive, abortRecv := e.wtRecvOpen }
  | .exactHalves =>
    if !req.abortSend && !req.abortRecv then .error .invalidArg
    else if req.abortSend && !sendLive then .error .state
    else if req.abortRecv && !e.wtRecvOpen then .error .state
    else if e.wtBidi then normalizeBidi e caps req
    else .ok req.whole

/-- The state a performed shutdown leaves behind. -/
def Estream.afterShutdown (eff : Shutdown) (e : Estream) : Estream :=
  { e with
    wtSendOpen := e.wtSendOpen && !eff.abortSend
    wtFinPending := e.wtFinPending && !eff.abortSend
    wtRecvOpen := e.wtRecvOpen && !eff.abortRecv
    wtRecvDrain := e.wtRecvDrain || eff.abortRecv }

/-- `wt_shutdown`. -/
def wtShutdownWith (i : Nat) (req : Shutdown) (appIntent : Bool) (w : World σ) :
    Rc × World σ :=
  let e := w.es i
  if w.conn.closed then (.closed, w)
  else if e.kind ≠ .wt then (.state, w)
  else
    match normalizeShutdown e w.conn.caps req with
    | .error rc => (rc, w)
    | .ok eff =>
      let eff := { eff with appSendCancel := appIntent && eff.abortSend }
      let (r, w) := w.op E (.shutdownStream e.ds eff)
      if r.rc = .closed then (.closed, w)
      else if r.rc ≠ .ok then (.backend, connFatal E H3Err.internalError w)
      else if (w.es i).generation ≠ e.generation ∨ (w.es i).ds ≠ e.ds ∨ (w.es i).kind ≠ .wt then
        (.ok, w)
      else (.ok, wtReleaseIfDone E i (w.modEs i (Estream.afterShutdown eff)))

/-- `wtq_conn_wt_shutdown`. -/
def wtShutdown (i : Nat) (req : Shutdown) : World σ → Rc × World σ :=
  wtShutdownWith E i req true

/-- `conn_app_error_to_h3`: `none` past the profile's outbound range. -/
def appErrorToH3 (c : Conn) (appCode : UInt32) : Option Nat :=
  if c.profileLatched ∧ appCode.toNat > (connectPolicy c.wtProfile).maxOutboundAppError then none
  else some (ErrMap.appErrorToH3 appCode)

/-- The common part of the three calls below: convert the code, then shut down. -/
def wtShutdownCode (i : Nat) (appCode : UInt32) (req : Nat → Shutdown) (w : World σ) :
    Rc × World σ :=
  match appErrorToH3 w.conn appCode with
  | none => (.invalidArg, w)
  | some wire => wtShutdown E i (req wire) w

/-- `wtq_conn_wt_reset`. -/
def wtResetSend (i : Nat) (appCode : UInt32) : World σ → Rc × World σ :=
  wtShutdownCode E i appCode fun wire =>
    { mode := .exactHalves, abortSend := true, sendErr := wire }

/-- `wtq_conn_wt_stop`. -/
def wtStop (i : Nat) (appCode : UInt32) : World σ → Rc × World σ :=
  wtShutdownCode E i appCode fun wire =>
    { mode := .exactHalves, abortRecv := true, recvErr := wire }

/-- `wtq_conn_wt_abort`. -/
def wtAbort (i : Nat) (appCode : UInt32) : World σ → Rc × World σ :=
  wtShutdownCode E i appCode fun wire =>
    { mode := .wholeStream, sendErr := wire, recvErr := wire }

/-- `wtq_conn_wt_reject`. -/
def wtReject (i : Nat) (w : World σ) : World σ :=
  if w.conn.closed || (w.es i).kind != .wt then w
  else
    let w := w.modEs i fun e => { e with user := none }
    (wtShutdownWith E i
      { mode := .wholeStream, sendErr := H3Err.wtBufferedStreamRejected,
        recvErr := H3Err.wtBufferedStreamRejected } false w).2

/-- `wtq_conn_wt_recv_enable`. -/
def wtRecvEnable (i : Nat) (enabled : Bool) (w : World σ) : Rc × World σ :=
  let e := w.es i
  if w.conn.closed then (.closed, w)
  else if e.kind ≠ .wt ∨ !e.wtRecvOpen then (.state, w)
  else if !w.conn.caps.hasRecvEnable then (.unsupported, w)
  else
    let w := w.modEs i fun e => { e with recvPaused := !enabled }
    let (r, w) := w.op E (.recvEnable e.ds enabled)
    if r.rc ≠ .ok ∧ (w.es i).generation = e.generation then
      (r.rc, w.modEs i fun k => { k with recvPaused := e.recvPaused })
    else (r.rc, w)

/-- `wtq_estream_set_user`. -/
def setUser (i : Nat) (user : Option Nat) : World σ → World σ :=
  World.modEs i fun e => { e with user }

/-- `wtq_conn_seal_transport_error`. -/
def sealTransportError (w : World σ) : World σ := connLatchError ⟨.none, 0, 0, 0⟩ w

/-! ## Datagrams -/

/-- `WTQ_DGRAM_MAX_SPANS`. -/
def dgramMaxSpans : Nat := 8

/-- `wtq_conn_dgram_send`. -/
def dgramSend (spans : List Bytes) (w : World σ) : Rc × World σ :=
  if spans.length > dgramMaxSpans then (.invalidArg, w)
  else if w.conn.closed || w.conn.sessState == .closed then (.closed, w)
  else if !sessionActive w then (.state, w)
  else if !w.conn.caps.hasDgram then (.dgramDisabled, w)
  else
    let pfx := w.conn.qsidPrefix
    let (m, w) := w.op E .dgramMaxSize
    if m.size < pfx.length then (.dgramDisabled, w)
    else if (spans.map List.length).sum > m.size - pfx.length then (.tooLarge, w)
    else
      let (r, w) := w.op E (.dgramSend (pfx :: spans))
      (r.rc, w)

/-- `wtq_conn_dgram_max_size`. -/
def dgramMaxSize (w : World σ) : Nat × World σ :=
  if w.conn.closed || !sessionActive w || !w.conn.caps.hasDgram then (0, w)
  else
    let (m, w) := w.op E .dgramMaxSize
    (m.size - w.conn.qsidPrefix.length, w)

end Wtquic.Engine
