-- SUMMARY: Peer streams: opening, classification, delivery, reset, terminal, native ids.
import Wtquic.Engine.Control

namespace Wtquic.Engine

/-! # Peer streams

The transport inputs of `conn.c`. -/

variable {σ : Type} (E : Ctx σ)

/-! ## Opening and classification -/

/-- `wtq_conn_on_peer_uni_opened` and `wtq_conn_on_peer_bidi_opened`. The driver
stream is new, and is attached to the slot the engine returns. -/
def onPeerOpened (bidi : Bool) (id : Nat) (w : World σ) : Rc × World σ :=
  if w.conn.closed then (.closed, w)
  else
    let (rc, w) := connOpenLocalsIfDeferred E w
    if rc ≠ .ok then (rc, w)
    else
      match w.findFree 0 w.conn.streamCapacity fun _ => true with
      | some i =>
        let (ds, w) := w.newDs i
        (.ok, w.claim i { kind := if bidi then .btype else .type, ds, id })
      | none =>
        let (ds, w) := w.newDetachedDs
        (.streamLimit, shutdownRaw E ds bidi true H3Err.wtBufferedStreamRejected w)

/-- `classify_uni`; `false` when the connection died. -/
def classifyUni (i type : Nat) (w : World σ) : Bool × World σ :=
  if type = 0x00 then
    if w.conn.peerControlSeen then (false, connFatal E H3Err.streamCreationError w)
    else
      let w := w.updConn fun c => { c with peerControlSeen := true }
      (true, w.modEs i fun e => { e with kind := .control, frameDec := H3Frame.decInit })
  else if type = 0x02 ∨ type = 0x03 then
    let seen := if type = 0x02 then w.conn.qpackEncSeen else w.conn.qpackDecSeen
    if seen then (false, connFatal E H3Err.streamCreationError w)
    else
      let w := w.updConn fun c =>
        if type = 0x02 then { c with qpackEncSeen := true } else { c with qpackDecSeen := true }
      (true, w.modEs i fun e => { e with kind := .qpack, qpackType := type })
  else if type = 0x01 then
    (false, connFatal E
      (if w.conn.persp = .server then H3Err.streamCreationError else H3Err.idError) w)
  else (true, w.modEs i fun e => { e with kind := .drain })

/-- Does `sid` name the session that runs now? -/
def sessionMatches (c : Conn) (sid : Nat) : Bool :=
  c.sessionEstablished && c.sessState.active && sid == c.sessionId

/-- The code that rejects a stream for session `sid`. -/
def rejectCode (c : Conn) (sid : Nat) : Nat :=
  if c.sessionEstablished && sid == c.sessionId then H3Err.wtSessionGone
  else H3Err.wtBufferedStreamRejected

/-- `wt_associate`; `false` when the stream did not join the session. -/
def wtAssociate (i sid : Nat) (bidi : Bool) (w : World σ) : Bool × World σ :=
  if sid % 4 ≠ 0 then (false, connFatal E H3Err.idError w)
  else if sessionMatches w.conn sid then
    let w := w.modEs i fun e =>
      { e with kind := .wt, wtBidi := bidi, wtLocal := false, wtRecvOpen := true,
               wtSendOpen := bidi }
    (true, E.notify (.wtStreamOpened i bidi (w.es i).id) w)
  else
    let w := shutdownRaw E (w.es i).ds bidi true (rejectCode w.conn sid) w
    (false, w.modEs i fun e => { e with kind := .drain })

/-- Bytes the classifier consumed are kept for the replay, as far as they fit. -/
def bufferType (i : Nat) (bs : Bytes) (w : World σ) : World σ :=
  let fill := (w.es i).btypeBuf.length
  let kept := bs.take (btypeCap - fill)
  (w.auditCopy .btypeBuf fill kept.length).modEs i
    fun e => { e with btypeBuf := e.btypeBuf ++ kept }

/-- `bidi_classify_bytes`: whether the connection lives, and the bytes left. Its loop
leaves after one round: the decoder consumes everything or reaches a verdict. -/
def bidiClassifyBytes (tbl : PathTable) (i : Nat) (data : Bytes) (w : World σ) :
    Bool × Bytes × World σ :=
  if data.isEmpty then (!w.conn.closed, data, w)
  else
    let (res, pre, c) := Preamble.decFeed (w.es i).pre .bidi data
    let w := (w.auditSub data.length c).modEs i fun e => { e with pre }
    let w := bufferType i (data.take c) w
    let rest := data.drop c
    match res with
    | .needMore => (true, rest, w)
    | .ok sid _ _ =>
      let w := w.modEs i fun e => { e with btypeBuf := [] }
      let (_, w) := wtAssociate E i sid true w
      (!w.conn.closed, rest, w)
    | .unexpected _ =>
      match w.conn.persp with
      | .client => (false, rest, connFatal E H3Err.streamCreationError w)
      | .server =>
        let replay := (w.es i).btypeBuf
        let w := w.modEs i fun e =>
          { e with kind := .request, frameDec := H3Frame.decInit, btypeBuf := [] }
        let w := requestStreamBytes E tbl i replay w
        (!w.conn.closed, rest, w)

/-! ## Delivery -/

/-- `wt_deliver`: payload passthrough for an associated WT stream. -/
def wtDeliver (i : Nat) (data : Bytes) (fin : Bool) (w : World σ) : World σ :=
  let generation := (w.es i).generation
  if (w.es i).wtRecvDrain then
    if fin then wtReleaseIfDone E i (w.modEs i fun e => { e with wtRecvDrain := false }) else w
  else
    let w := if !data.isEmpty || fin then E.notify (.wtStreamData i data fin) w else w
    if fin && (w.es i).generation == generation && (w.es i).kind == .wt then
      wtReleaseIfDone E i (w.modEs i fun e => { e with wtRecvOpen := false, wtRecvDrain := false })
    else w

/-- The result of `stream_bytes`: the status and how many bytes it accounts for. -/
abbrev Delivery (σ : Type) := Rc × Nat × World σ

/-- The chunk loop of accounted input: `data` is what is left of `len` bytes. -/
def wtDeliverAccounted (i : Nat) (generation len : Nat) (fin : Bool) :
    Nat → Bytes → World σ → Delivery σ
  | 0, _, w => (.ok, len, w)
  | n + 1, data, w =>
    let e := w.es i
    if !e.wtRecvOpen && !e.wtRecvDrain then (.ok, len, w)
    else if e.recvPaused && !e.wtRecvDrain then (.wouldBlock, len - data.length, w)
    else
      let chunk := data.take 65535
      let rest := data.drop 65535
      let w := wtDeliver E i chunk (fin && rest.isEmpty) w
      if rest.isEmpty || w.conn.closed || (w.es i).generation != generation
          || (w.es i).kind != .wt then (.ok, len, w)
      else wtDeliverAccounted i generation len fin n rest w

/-- A FIN in the middle of bidi classification. -/
def btypeFinError (persp : Perspective) (pre : Preamble.Dec) : Nat :=
  if pre.state = .session then H3Err.frameError
  else
    match persp with
    | .server => H3Err.requestIncomplete
    | .client => H3Err.streamCreationError

/-- The FIN half of `requestDelivery`. -/
def requestDeliveryFin (i : Nat) (fin : Bool) (w : World σ) : Rc × World σ :=
  if w.conn.closed then (.proto, w)
  else if (w.es i).kind = .free then (.ok, w)
  else if !fin then (.ok, w)
  else if w.conn.parkedEs = some i then
    if (w.es i).truncated then (.proto, connFatal E H3Err.frameError w)
    else (.ok, w.updConn fun c => { c with parkedFin := true })
  else
    let w := estreamRelease E i (forgetSessionEs i (requestStreamFin E i w))
    (if w.conn.closed then .proto else .ok, w)

/-- The CONNECT and request part of `stream_bytes`. -/
def requestDelivery (tbl : PathTable) (i : Nat) (data : Bytes) (fin : Bool) (w : World σ) :
    Rc × World σ :=
  if (w.es i).isSessionStream && w.conn.closeCapsuleRx && !data.isEmpty then
    (.ok, sessionStreamPoisoned E i w)
  else
    requestDeliveryFin E i fin
      (if data.isEmpty then w else requestStreamBytes E tbl i data w)

/-- The uni classification part of `stream_bytes`: whether the connection lives, and
the bytes left. -/
def uniClassifyBytes (i : Nat) (data : Bytes) (w : World σ) : Bool × Bytes × World σ :=
  let (res, pre, c) := Preamble.decFeed (w.es i).pre .uni data
  let w := (w.auditSub data.length c).modEs i fun e => { e with pre }
  let rest := data.drop c
  match res with
  | .needMore => (true, rest, w)
  | .ok sid _ _ => (true, rest, (wtAssociate E i sid false w).2)
  | .unexpected type =>
    let (live, w) := classifyUni E i type w
    (live, rest, w)

/-- The FIN half of `sinkDelivery`. -/
def sinkDeliveryFin (i : Nat) (fin : Bool) (w : World σ) : Rc × World σ :=
  if w.conn.closed then (.proto, w)
  else if !fin then (.ok, w)
  else if (w.es i).kind = .control ∨ (w.es i).kind = .qpack then
    (.proto, connFatal E H3Err.closedCriticalStream w)
  else (.ok, estreamRelease E i w)

/-- QPACK bytes, on a QPACK stream. -/
def sinkQpack (i : Nat) (data : Bytes) (w : World σ) : World σ :=
  if !w.conn.closed && (w.es i).kind == .qpack && !data.isEmpty then qpackBytes E i data w else w

/-- Control bytes, on the control stream. -/
def sinkControl (tbl : PathTable) (i : Nat) (data : Bytes) (w : World σ) : World σ :=
  if !w.conn.closed && (w.es i).kind == .control && !data.isEmpty then controlBytes E tbl i data w
  else w

/-- The last part of `stream_bytes`: control, QPACK and sink bytes, and their FIN. -/
def sinkDelivery (tbl : PathTable) (i : Nat) (data : Bytes) (fin : Bool) (w : World σ) :
    Rc × World σ :=
  sinkDeliveryFin E i fin (sinkQpack E i data (sinkControl E tbl i data w))

/-- `stream_bytes` for a stream that is classified or is a peer uni stream. `len` is
the length of the whole input. -/
def uniDelivery (tbl : PathTable) (accounted : Bool) (i generation len : Nat) (data : Bytes)
    (fin : Bool) (w : World σ) : Delivery σ :=
  let (live, data, w) :=
    if (w.es i).kind = .type ∧ !data.isEmpty then uniClassifyBytes E i data w
    else (true, data, w)
  if !live then (.proto, len, w)
  else if accounted && (w.conn.closed || (w.es i).generation != generation
      || (w.es i).kind == .free) then (.ok, len, w)
  else if (w.es i).kind = .wt then
    if accounted then wtDeliverAccounted E i generation len fin (data.length + 1) data w
    else (.ok, len, wtDeliver E i data fin w)
  else
    let (rc, w) := sinkDelivery E tbl i data fin w
    (rc, len, w)

/-- The classified part of `stream_bytes`. -/
def classifiedDelivery (tbl : PathTable) (accounted : Bool) (i generation len : Nat)
    (data : Bytes) (fin : Bool) (w : World σ) : Delivery σ :=
  if (w.es i).kind = .connect ∨ (w.es i).kind = .request then
    let (rc, w) := requestDelivery E tbl i data fin w
    (rc, len, w)
  else uniDelivery E tbl accounted i generation len data fin w

/-- `stream_bytes` behind bidi classification, which left `data`. -/
def bidiDelivery (tbl : PathTable) (accounted : Bool) (i generation len : Nat) (fin : Bool) :
    Bool × Bytes × World σ → Delivery σ
  | (live, data, w) =>
    if !live then (.proto, len, w)
    else if accounted && ((w.es i).generation != generation || (w.es i).kind == .free) then
      (.ok, len, w)
    else if (w.es i).kind = .btype then
      if fin then
        (.proto, len, connFatal E (btypeFinError w.conn.persp (w.es i).pre) w)
      else (.ok, len, w)
    else classifiedDelivery E tbl accounted i generation len data fin w

/-- `stream_bytes`; `accounted` says that the caller passed `consumed`. -/
def streamBytes (tbl : PathTable) (accounted : Bool) (i : Nat) (data : Bytes) (fin : Bool)
    (w : World σ) : Delivery σ :=
  if w.conn.closed then (.closed, 0, w)
  else if (w.es i).kind = .free then (.invalidArg, 0, w)
  else
    let generation := (w.es i).generation
    if (w.es i).kind = .btype then
      bidiDelivery E tbl accounted i generation data.length fin (bidiClassifyBytes E tbl i data w)
    else classifiedDelivery E tbl accounted i generation data.length data fin w

/-! ## Reset, terminal, STOP_SENDING -/

/-- No half of a WT stream is open. -/
def Estream.closeAll (e : Estream) : Estream :=
  { e with wtRecvDrain := false, wtSendOpen := false, wtFinPending := false, wtRecvOpen := false }

/-- An app-visible half is open. -/
def Estream.wtLive (e : Estream) : Bool := e.wtSendOpen || e.wtFinPending || e.wtRecvOpen

/-- `wtq_conn_on_stream_terminal`. -/
def onStreamTerminal (i : Nat) (w : World σ) : Rc × World σ :=
  let e := w.es i
  match e.kind with
  | .free => (.invalidArg, w)
  | kind =>
    if w.conn.closed then (.closed, w)
    else
      match kind with
      | .drain => (.ok, estreamRelease E i w)
      | .request =>
        if e.requestDead then
          let w := if w.conn.parkedEs = some i then parkedRequestCancel w else w
          (.ok, estreamRelease E i w)
        else (.ok, w)
      | .wt =>
        let w := w.modEs i Estream.closeAll
        let w := if e.wtLive then E.notify (.wtStreamTerminal i) w else w
        (.ok, estreamRelease E i w)
      | _ => (.ok, w)

/-- The WT part of `wtq_conn_on_stream_reset`. -/
def wtReset (i quicErr : Nat) (w : World σ) : World σ :=
  if (w.es i).wtRecvDrain then
    wtReleaseIfDone E i (w.modEs i fun e => { e with wtRecvDrain := false })
  else
    let app := (ErrMap.h3ErrorToApp quicErr).getD 0
    let w := w.modEs i fun e => { e with wtRecvOpen := false }
    wtReleaseIfDone E i (E.notify (.wtStreamReset i app) w)

/-- `wtq_conn_on_stream_reset`. -/
def onStreamReset (i quicErr : Nat) (w : World σ) : Rc × World σ :=
  let e := w.es i
  if w.conn.closed then (.closed, w)
  else if e.kind = .free then (.invalidArg, w)
  else if e.kind = .control ∨ e.kind = .qpack then
    (.ok, connFatal E H3Err.closedCriticalStream w)
  else if e.isSessionStream then
    (.ok, sessionClosed E 0 [] false (estreamRelease E i (forgetSessionEs i w)))
  else if e.kind = .wt then (.ok, wtReset E i quicErr w)
  else
    let w :=
      if e.kind = .connect ∧ w.conn.sessState = .sent ∧ !w.conn.sessionEstablished then
        sessionFailed E .badResponse w
      else w
    let w := if w.conn.parkedEs = some i then parkedRequestCancel w else w
    (.ok, estreamRelease E i w)

/-- `wtq_conn_on_conn_closed`. -/
def onConnClosed (err : Nat) (remote : Bool) (w : World σ) : World σ :=
  if w.conn.closed then w
  else
    let w := connLatchError ⟨if remote then .quicApp else .local, err, 0, 0⟩ w
    let w := w.updConn fun c => { c with closed := true, closeCode := err }
    E.notify (.connError err) (sessionConnLost E w)

/-- `wtq_conn_set_transport_error`: a record without an error kind is ignored. -/
def setTransportError (e : TransportError) (w : World σ) : World σ :=
  if e.kind = .none then w else connLatchError e w

/-- `wtq_conn_on_stop_sending`. -/
def onStopSending (i quicErr : Nat) (w : World σ) : Rc × World σ :=
  if w.conn.closed then (.closed, w)
  else if w.conn.parkedEs = some i then
    let finSeen := w.conn.parkedFin
    let w := parkedRequestCancel (requestStreamRefuse E i w)
    (.ok, if finSeen then estreamRelease E i w else w)
  else if (w.es i).kind = .wt then
    let generation := (w.es i).generation
    let commitMode := (w.es i).wtSendCommit
    let app := (ErrMap.h3ErrorToApp quicErr).getD 0
    let w :=
      if commitMode then w.modEs i fun e => { e with wtSendOpen := false, wtFinPending := false }
      else w
    let w := E.notify (.wtStreamStop i app) w
    (.ok, if commitMode && (w.es i).generation == generation then wtReleaseIfDone E i w else w)
  else (.ok, w)

/-! ## Native ids and completions -/

/-- Is a native-id report for slot `i` one the engine asked for, and valid? -/
def nativeIdOk (c : Conn) (i nativeId : Nat) : Bool :=
  let e := c.peer i
  let bidi := e.kind == .connect || (e.kind == .wt && e.wtBidi)
  (e.kind == .connect || (e.kind == .wt && e.wtLocal))
    && e.nativeIdPending
    && nativeId < 2 ^ 62
    && nativeId % 2 == (if c.persp = .client then 0 else 1)
    && (nativeId / 2 % 2 == 1) != bidi
    && !(c.sessionEstablished && nativeId == c.sessionId)
    && (List.range c.streamCapacity).all fun k =>
      k == i || (c.peer k).kind == .free || (c.peer k).id == streamIdUnknown
        || (c.peer k).id != nativeId

/-- `wtq_conn_on_stream_native_id`. -/
def onStreamNativeId (i nativeId : Nat) (w : World σ) : World σ :=
  if w.conn.closed then w
  else if !nativeIdOk w.conn i nativeId then connFatal E H3Err.internalError w
  else
    let w := w.modEs i fun e => { e with id := nativeId, nativeIdPending := false }
    if (w.es i).kind = .connect ∧ w.conn.persp = .client then clientMaybeEstablish E i w
    else w

/-- `wtq_conn_on_stream_send_shutdown_v1`. -/
def onStreamSendShutdown (i ds generation : Nat) (graceful : Bool) (w : World σ) : World σ :=
  let e := w.es i
  if w.conn.closed || !sessionActive w || ds = 0 || generation = 0 || e.kind != .wt
      || e.ds != ds || e.generation != generation || !e.wtSendCommit || !e.wtLocal
      || e.wtBidi || (graceful && !e.wtFinPending) then w
  else
    let w := w.modEs i fun e => { e with wtFinPending := false, wtSendOpen := false }
    let w :=
      E.notify (if graceful then .wtStreamSendCommitted i else .wtStreamTerminal i) w
    if (w.es i).generation = generation then wtReleaseIfDone E i w else w

/-- `wtq_conn_on_send_complete`: forwarded even after connection teardown. -/
def onSendComplete (cookie : Nat) (canceled : Bool) : World σ → World σ :=
  E.notify (.wtSendComplete cookie canceled)

/-- `wtq_conn_on_stream_writable`. -/
def onStreamWritable (i : Nat) (w : World σ) : World σ :=
  if w.conn.closed || (w.es i).kind != .wt then w else E.notify (.wtStreamWritable i) w

/-- `wtq_conn_on_datagram`. -/
def onDatagram (data : Bytes) (w : World σ) : Rc × World σ :=
  if w.conn.closed then (.closed, w)
  else
    let (rc, w) := connOpenLocalsIfDeferred E w
    if rc ≠ .ok then (.closed, w)
    else if sessionActive w && w.conn.qsidPrefix.isPrefixOf data then
      (.ok, E.notify (.wtDatagram (data.drop w.conn.qsidPrefix.length)) w)
    else
      match Varint.decode data with
      | none => (.proto, connFatal E H3Err.datagramError w)
      | some (qsid, c) =>
        if qsid > 2 ^ 60 - 1 then (.proto, connFatal E H3Err.datagramError w)
        else if sessionActive w && qsid == w.conn.sessionId / 4 then
          (.ok, E.notify (.wtDatagram (data.drop c)) w)
        else (.ok, w.updConn fun c => { c with dgramsDropped := c.dgramsDropped + 1 })

end Wtquic.Engine
