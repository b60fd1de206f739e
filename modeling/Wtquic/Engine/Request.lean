-- SUMMARY: CONNECT responses, request decisions, capsules, and the request-stream frame walk.
import Wtquic.Engine.Session

namespace Wtquic.Engine

/-! # Requests and responses

The CONNECT stream of a client and the request streams of a server. The path table
of a server is an argument of the functions that read it. -/

variable {σ : Type} (E : Ctx σ)

/-! ## Frame walk

`control_bytes` and `request_stream_bytes` have one skeleton: read frame headers and
pass payload on, resuming wherever the previous delivery stopped. `frameWalk` is that
skeleton; a `FrameWalk` holds what the two do differently. A `false` result of a handler
is a `return` out of the loop. -/

structure FrameWalk (σ : Type) where
  /-- a frame header arrived -/
  header : H3Frame.Header → World σ → Bool × World σ
  /-- the bytes of a delivery that belong to the current frame -/
  payload : Bytes → World σ → Bool × World σ
  /-- the current frame is complete -/
  finish : World σ → Bool × World σ

/-- The state a frame header leaves behind. -/
def Estream.startFrame (h : H3Frame.Header) (dec : H3Frame.Dec) (e : Estream) : Estream :=
  { e with
    frameDec := dec
    frameType := h.type
    frameRemaining := h.length
    frameActive := true
    setBuf := [] }

/-- The first half of a round: make sure that a frame is active. The result is
whether to go on, and the bytes left. -/
def frameHead (W : FrameWalk σ) (i : Nat) (data : Bytes) (w : World σ) :
    Bool × Bytes × World σ :=
  if (w.es i).frameActive then (true, data, w)
  else
    match H3Frame.decFeed (w.es i).frameDec data with
    | (none, dec, c) =>
      let w := (w.auditSub data.length c).hear i (data.take c)
      (false, data.drop c, w.modEs i fun e => { e with frameDec := dec })
    | (some h, dec, c) =>
      let w := (w.auditSub data.length c).hear i (data.take c)
      let (go, w) := W.header h (w.modEs i (Estream.startFrame h dec))
      (go, data.drop c, w)

/-- The active frame takes the bytes `bs`. -/
def frameTake (i : Nat) (bs : Bytes) (w : World σ) : World σ :=
  ((w.hear i bs).auditSub (w.es i).frameRemaining bs.length).modEs i
    fun e => { e with frameRemaining := e.frameRemaining - bs.length }

/-- The active frame is complete. -/
def frameEnd (i : Nat) (w : World σ) : World σ := w.modEs i fun e => { e with frameActive := false }

/-- Count the payload that was handled, and finish the frame when it is complete. -/
def frameAdvance (W : FrameWalk σ) (i : Nat) (slice rest : Bytes) (w : World σ) :
    Bool × Bytes × World σ :=
  let w := frameTake i slice w
  if (w.es i).frameRemaining = 0 ∧ (w.es i).frameActive then
    let (go, w) := W.finish (frameEnd i w)
    (go, rest, w)
  else (true, rest, w)

/-- The second half of a round: take what belongs to the active frame. -/
def frameBody (W : FrameWalk σ) (i : Nat) (data : Bytes) (w : World σ) :
    Bool × Bytes × World σ :=
  let slice := data.take (w.es i).frameRemaining
  let rest := data.drop slice.length
  let (go, w) := W.payload slice w
  if go then frameAdvance W i slice rest w else (false, rest, w)

/-- One round of the loop. -/
def frameRound (W : FrameWalk σ) (i : Nat) (data : Bytes) (w : World σ) :
    Bool × Bytes × World σ :=
  let (go, data, w) := frameHead W i data w
  if go then frameBody W i data w else (false, data, w)

/-- The loop. Only a round that finds a complete frame still active consumes nothing,
and no two rounds in a row do, so twice as many rounds as bytes suffice. -/
def frameLoop (W : FrameWalk σ) (i : Nat) : Nat → Bytes → World σ → World σ
  | 0, _, w => w
  | n + 1, data, w =>
    if data.isEmpty || w.conn.closed then w
    else
      let (go, rest, w) := frameRound W i data w
      if go then frameLoop W i n rest w else w

def frameWalk (W : FrameWalk σ) (i : Nat) (data : Bytes) (w : World σ) : World σ :=
  frameLoop W i (2 * data.length + 1) data w

/-- `memcpy(es->set_buf + es->set_fill, ..)`. -/
def appendSetBuf (i : Nat) (bs : Bytes) (w : World σ) : World σ :=
  (w.auditCopy .setBuf (w.es i).setBuf.length bs.length).modEs i
    fun e => { e with setBuf := e.setBuf ++ bs }

/-! ## Responses -/

/-- `request_frame_forbidden`. -/
def requestFrameForbidden (type : Nat) : Bool :=
  [0x03, 0x04, 0x05, 0x07, 0x0d, 0x02, 0x06, 0x08, 0x09].contains type

/-- Does a response carry the draft-02 marker? -/
def emitMarker (c : Conn) (status : Nat) : Bool :=
  200 ≤ status && status < 300 && c.profileLatched
    && (connectPolicy c.wtProfile).emitD02ResponseMarker

/-- `server_send_response`. -/
def serverSendResponse (ds status : Nat) (selected : Option Bytes) (w : World σ) : World σ :=
  match Connect.encodeResponseEx status selected (emitMarker w.conn status) settingsCap with
  | .error _ => connFatal E H3Err.internalError w
  | .ok sec =>
    let (sent, w) :=
      w.sendBoth E ds (frameHeader H3Frame.typeHeaders sec.length) sec (300 ≤ status)
    if sent then w else connFatal E H3Err.internalError w

/-- A CONNECT the server's GOAWAY refused: fail the session and abort the stream. -/
def clientRefused (i : Nat) (w : World σ) : World σ :=
  let w := w.modEs i fun e => { e with requestDead := true }
  let w := sessionFailed E .connection w
  if w.conn.closed then w
  else shutdownRaw E (w.es i).ds true true H3Err.requestRejected w

/-- `client_maybe_establish`. -/
def clientMaybeEstablish (i : Nat) (w : World σ) : World σ :=
  if w.conn.sessState ≠ .sent ∨ !w.conn.clientResponseOk ∨ (w.es i).nativeIdPending then w
  else if w.conn.goaway.any (· ≤ (w.es i).id) then clientRefused E i w
  else
    let sel := (w.conn.clientSelectedOffer.bind fun k => w.conn.offered[k]?).getD []
    sessionEstablished E i sel w

/-- The index of a response's selection among our offers: `none` for a selection we
never made, `some none` for a response without one. -/
def selectedOffer (offered : List Bytes) : Option Bytes → Option (Option Nat)
  | none => some none
  | some p => (offered.findIdx? (· == p)).map some

/-- The draft-02 response marker is there whenever the latched profile requires it. -/
def responseMarkerOk (c : Conn) (resp : Connect.Response) : Bool :=
  !(c.profileLatched && (connectPolicy c.wtProfile).emitD02ResponseMarker)
    || resp.d02Marker == some (ascii "draft02")

/-- The 2xx half of `client_response_done`. -/
def clientAccept (i : Nat) (resp : Connect.Response) (w : World σ) : World σ :=
  if !responseMarkerOk w.conn resp then sessionFailed E .badResponse w
  else
    match selectedOffer w.conn.offered resp.protocol with
    | none => sessionFailed E .noProtocol w
    | some selected =>
      if w.conn.requireProtocol && selected.isNone then sessionFailed E .noProtocol w
      else
        clientMaybeEstablish E i <|
          w.updConn fun c => { c with
            clientResponseOk := true
            clientSelectedOffer := selected }

/-- `client_response_done`: a complete response HEADERS payload arrived. -/
def clientResponseDone (i : Nat) (w : World σ) : World σ :=
  match Connect.decodeResponse (w.es i).setBuf strictOpts settingsCap with
  | .error e =>
    connFatal E
      (if e = .qpackDecompressionFailed then H3Err.qpackDecompressionFailed
        else H3Err.messageError)
      (sessionFailed E .badResponse w)
  | .ok resp =>
    if resp.status < 200 then
      if resp.status = 101 then
        connFatal E H3Err.messageError (sessionFailed E .badResponse w)
      else w.modEs i fun e => { e with headersDone := false }
    else if !Connect.statusIsSuccess resp.status then
      E.notify (.sessionRejected resp.status) (w.setSess .rejected)
    else clientAccept E i resp w

/-! ## Refusals -/

/-- `request_stream_refuse_err`. -/
def requestStreamRefuseErr (i err : Nat) (w : World σ) : World σ :=
  (shutdownRaw E (w.es i).ds true true err w).modEs i fun e => { e with requestDead := true }

/-- `request_stream_refuse`. -/
def requestStreamRefuse (i : Nat) : World σ → World σ :=
  requestStreamRefuseErr E i H3Err.requestRejected

/-- `parked_request_cancel`. -/
def parkedRequestCancel (w : World σ) : World σ :=
  w.updConn fun c => { c with parkedEs := none, parkedBuf := [], parkedFin := false }

/-- `if (conn->session_es == es) conn->session_es = NULL`. -/
def forgetSessionEs (i : Nat) (w : World σ) : World σ :=
  if w.conn.sessionEs = some i then w.updConn fun c => { c with sessionEs := none } else w

/-- `request_stream_fail`: a stream error, never a connection error. -/
def requestStreamFail (i err : Nat) (w : World σ) : World σ :=
  let w := requestStreamRefuseErr E i err w
  let w := if w.conn.parkedEs = some i then parkedRequestCancel w else w
  if (w.es i).isSessionStream then
    sessionClosed E 0 [] false (estreamRelease E i (forgetSessionEs i w))
  else w

/-! ## The server's decision -/

/-- Answer with a status that is not a success; the stream becomes an absorber. -/
def serverRefuse (i status : Nat) (w : World σ) : World σ :=
  (serverSendResponse E (w.es i).ds status none w).modEs i
    fun e => { e with requestDead := true }

/-- The raw park gate: before the peer's SETTINGS one completed request is kept as
untouched bytes. -/
def serverPark (i : Nat) (w : World σ) : World σ :=
  if w.conn.parkedEs.isSome then requestStreamRefuse E i w
  else
    (w.auditCopy .parkedBuf 0 (w.es i).setBuf.length).updConn fun c => { c with
      parkedEs := some i
      parkedBuf := (c.peer i).setBuf }

/-- Is the version marker of a request what the profile requires? -/
def requestMarkerOk (pol : ProfilePolicy) (req : Connect.Request) : Bool :=
  !pol.requireD02RequestMarker || req.d02Marker == some (ascii "1")

/-- The origin duty of a path under a profile. -/
def originOk (pol : ProfilePolicy) (p : PathEntry) (req : Connect.Request) : Bool :=
  !(pol.requireOrigin || p.originPolicy != .unset)
    || (p.originPolicy != .unset && req.origin.any (originAuthorized p))

/-- The first client-offered protocol the path supports. -/
def chooseProtocol (p : PathEntry) (req : Connect.Request) : Option Bytes :=
  (Connect.selectProtocol req.protocols p.protos).bind fun k => req.protocols[k]?

/-- `sizeof(req_path)`. -/
def reqPathCap : Nat := 256

/-- The last stage: publish the accepted request, answer 200, establish. -/
def serverPublish (i : Nat) (req : Connect.Request) (selected : Option Bytes) (w : World σ) :
    World σ :=
  if req.path.length > reqPathCap ∨ req.authority.length > settingsCap then
    connFatal E H3Err.internalError w
  else
    let w := w.updConn fun c => { c with reqPath := req.path, reqAuth := req.authority }
    let w := serverSendResponse E (w.es i).ds 200 selected w
    if w.conn.closed then w else sessionEstablished E i (selected.getD []) w

/-- The gates behind the path lookup. -/
def serverAdmit (i : Nat) (pol : ProfilePolicy) (p : PathEntry) (req : Connect.Request)
    (w : World σ) : World σ :=
  if !originOk pol p req then serverRefuse E i 403 w
  else
    let selected := chooseProtocol p req
    if p.require && selected.isNone then serverRefuse E i 400 w
    else serverPublish E i req selected w

/-- The gates of a decoded request. -/
def serverGates (tbl : PathTable) (i : Nat) (pol : ProfilePolicy) (req : Connect.Request)
    (w : World σ) : World σ :=
  if req.legacyProtocol ≠ pol.expectLegacyToken then serverRefuse E i 400 w
  else if w.conn.sessionEstablished then requestStreamRefuse E i w
  else if !requestMarkerOk pol req then serverRefuse E i 400 w
  else
    match tbl.find? (·.path == req.path) with
    | none => serverRefuse E i 404 w
    | some p => serverAdmit E i pol p req w

/-- Decode under the latched profile's policy and judge the outcome. -/
def serverDecide (tbl : PathTable) (i : Nat) (w : World σ) : World σ :=
  let pol := connectPolicy w.conn.wtProfile
  match Connect.decodeRequest (w.es i).setBuf pol.opts maxOffered settingsCap with
  | .error .notWebtransport => serverRefuse E i 400 w
  | .error .buffer => requestStreamRefuseErr E i H3Err.excessiveLoad w
  | .error .qpackDecompressionFailed => connFatal E H3Err.qpackDecompressionFailed w
  | .error .malformed => requestStreamRefuseErr E i H3Err.messageError w
  | .ok req => serverGates E tbl i pol req w

/-- `server_request_done`: a complete request HEADERS payload arrived. -/
def serverRequestDone (tbl : PathTable) (i : Nat) (w : World σ) : World σ :=
  if !w.conn.settingsReceived then serverPark E i w
  else if !w.conn.wtSupported || !w.conn.profileLatched then serverRefuse E i 400 w
  else serverDecide E tbl i w

/-! ## Capsules -/

/-- `session_stream_poisoned`. -/
def sessionStreamPoisoned (i : Nat) (w : World σ) : World σ :=
  let w := shutdownRaw E (w.es i).ds true true H3Err.messageError w
  estreamRelease E i (forgetSessionEs i w)

/-- A complete capsule. `terminal` says that the session was over when the feed
began, `more` that the delivery goes on behind the capsule. The result is whether to
go on. -/
def sessionCapsule (i : Nat) (terminal more : Bool) (cap : Capsule.Decoded) (w : World σ) :
    Bool × World σ :=
  match cap.kind with
  | .close =>
    let w := w.updConn fun c => { c with closeCapsuleRx := true }
    let w := if terminal then w else sessionClosed E cap.closeCode cap.reason true w
    if more then (false, sessionStreamPoisoned E i w) else (true, w)
  | .drain => (true, if terminal then w else sessionDraining E w)
  | .unknown => (true, w)

/-- The reason bytes the decoder wrote in a feed. -/
def reasonFill : Capsule.Result → Capsule.Dec → Nat
  | .ok cap, _ => cap.reason.length
  | _, dec => dec.reason.length

/-- The loop of `session_capsule_bytes`. -/
def capsuleLoop (i : Nat) : Nat → Bytes → World σ → World σ
  | 0, _, w => w
  | n + 1, data, w =>
    if data.isEmpty || w.conn.closed then w
    else
      let terminal := w.conn.sessState == .closed
      let (res, dec, c) := Capsule.decFeed w.conn.capsDec data
      let w := (w.auditSub data.length c).auditCopy .reason 0 (reasonFill res dec)
      let w := w.updConn fun k => { k with capsDec := dec }
      let rest := data.drop c
      match res with
      | .needMore => w
      | .malformed =>
        if terminal then requestStreamFail E i H3Err.messageError w
        else connFatal E H3Err.messageError w
      | .ok cap =>
        let (go, w) := sessionCapsule E i terminal (!rest.isEmpty) cap w
        if go then capsuleLoop i n rest w else w

/-- `session_capsule_bytes`: the capsule protocol over DATA payload. -/
def sessionCapsuleBytes (i : Nat) (data : Bytes) (w : World σ) : World σ :=
  if w.conn.closeCapsuleRx then sessionStreamPoisoned E i w
  else capsuleLoop E i (2 * data.length + 1) data w

/-! ## Request streams -/

/-- The legality of a HEADERS frame on a request stream. -/
def requestHeaders (i : Nat) (h : H3Frame.Header) (w : World σ) : Bool × World σ :=
  if (w.es i).trailersDone then (false, connFatal E H3Err.frameUnexpected w)
  else if h.length > settingsCap then
    if (w.es i).kind = .request ∨ (w.es i).headersDone then
      (false, requestStreamFail E i H3Err.excessiveLoad w)
    else (false, connFatal E H3Err.excessiveLoad w)
  else (true, w.modEs i fun e => { e with frameKind := .settings })

/-- The legality of a DATA frame on a request stream. -/
def requestData (i : Nat) (w : World σ) : Bool × World σ :=
  if !(w.es i).headersDone || (w.es i).trailersDone then
    (false, connFatal E H3Err.frameUnexpected w)
  else if w.conn.parkedEs = some i then
    (false, parkedRequestCancel (requestStreamRefuse E i w))
  else
    (true, w.modEs i fun e =>
      { e with frameKind := if e.isSessionStream then .capsule else .skip })

/-- The frame-header half of `request_stream_bytes`. -/
def requestHeader (i : Nat) (h : H3Frame.Header) (w : World σ) : Bool × World σ :=
  if requestFrameForbidden h.type then (false, connFatal E H3Err.frameUnexpected w)
  else if h.type = H3Frame.typeHeaders then requestHeaders E i h w
  else if h.type = H3Frame.typeData then requestData E i w
  else (true, w.modEs i fun e => { e with frameKind := .skip })

/-- The payload half of `request_stream_bytes`. -/
def requestPayload (i : Nat) (bs : Bytes) (w : World σ) : Bool × World σ :=
  if bs.isEmpty then (true, w)
  else
    match (w.es i).frameKind with
    | .settings => (true, appendSetBuf i bs w)
    | .capsule =>
      let w := sessionCapsuleBytes E i bs w
      (!(w.conn.closed || (w.es i).kind == .free), w)
    | .oneVarint | .skip => (true, w)

/-- The one permitted trailing field section: validated, then discarded. -/
def requestTrailers (i : Nat) (w : World σ) : World σ :=
  let sec := (w.es i).setBuf
  let w := w.modEs i fun e => { e with trailersDone := true, setBuf := [] }
  match Connect.validateTrailers sec settingsCap with
  | some .qpackDecompressionFailed => connFatal E H3Err.qpackDecompressionFailed w
  | some .buffer => requestStreamFail E i H3Err.excessiveLoad w
  | some _ => requestStreamFail E i H3Err.messageError w
  | none => w

/-- A complete frame on a request stream. -/
def requestFrameDone (tbl : PathTable) (i : Nat) (w : World σ) : Bool × World σ :=
  if (w.es i).frameType ≠ H3Frame.typeHeaders then (true, w)
  else
    let w :=
      if (w.es i).headersDone then requestTrailers E i w
      else
        let w := w.modEs i fun e => { e with headersDone := true }
        if (w.es i).kind = .connect then clientResponseDone E i w
        else serverRequestDone E tbl i w
    (!(w.conn.closed || (w.es i).kind == .free || (w.es i).requestDead), w)

def requestWalk (tbl : PathTable) (i : Nat) : FrameWalk σ where
  header := requestHeader E i
  payload := requestPayload E i
  finish := requestFrameDone E tbl i

/-- `request_stream_bytes`: the frame walk for CONNECT and request streams. -/
def requestStreamBytes (tbl : PathTable) (i : Nat) (data : Bytes) (w : World σ) : World σ :=
  if (w.es i).requestDead then w else frameWalk (requestWalk E tbl i) i data w

/-- A frame header is mid-parse, or declared payload is outstanding. -/
def Estream.truncated (e : Estream) : Bool := e.frameActive || e.frameDec.hdrBytes > 0

/-- The FIN of the established session's CONNECT stream. -/
def sessionStreamFin (i : Nat) (w : World σ) : World σ :=
  let w := forgetSessionEs i w
  if (w.es i).truncated then connFatal E H3Err.frameError w
  else if w.conn.closeCapsuleRx then w
  else if w.conn.capsDec.state = .payload ∨ w.conn.capsDec.hdr.hdrBytes > 0 then
    if w.conn.sessState = .closed then requestStreamRefuseErr E i H3Err.messageError w
    else connFatal E H3Err.messageError w
  else sessionClosed E 0 [] true w

/-- `request_stream_fin`. -/
def requestStreamFin (i : Nat) (w : World σ) : World σ :=
  let e := w.es i
  if e.requestDead then w
  else if e.isSessionStream then sessionStreamFin E i w
  else
    let connectPending :=
      e.kind == .connect && !w.conn.sessionEstablished && w.conn.sessState == .sent
    if e.truncated then
      connFatal E H3Err.frameError
        (if connectPending then sessionFailed E .badResponse w else w)
    else if e.kind = .request ∧ !e.headersDone then connFatal E H3Err.requestIncomplete w
    else if connectPending then sessionFailed E .badResponse w
    else w

end Wtquic.Engine
