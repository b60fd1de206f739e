-- SUMMARY: Session outcomes, teardown, slot release and connection death.
import Wtquic.Engine.Policy
import Wtquic.Engine.World

namespace Wtquic.Engine

/-! # Session lifecycle

`shutdown_raw` to `conn_fatal` of `conn.c`. -/

variable {σ : Type} (E : Ctx σ)

/-- Is the session in a state where runtime operations are legal? -/
def SessState.active : SessState → Bool
  | .established | .draining => true
  | _ => false

/-- `session_active`. -/
def sessionActive (w : World σ) : Bool := w.conn.sessState.active

/-- `conn_latch_error`: the first causal error wins. -/
def connLatchError (e : TransportError) (w : World σ) : World σ :=
  if w.conn.transportError.isSome then w
  else w.updConn fun c => { c with transportError := some e }

/-- `session_failed`. -/
def sessionFailed (reason : FailReason) (w : World σ) : World σ :=
  E.notify (.sessionFailed reason) (w.setSess .failed)

/-- `session_draining`. -/
def sessionDraining (w : World σ) : World σ :=
  if w.conn.closed || w.conn.drainRx || !sessionActive w then w
  else
    let w := w.updConn fun c => { c with drainRx := true }
    let w := if w.conn.sessState = .established then w.setSess .draining else w
    E.notify .sessionDraining w

/-! ## Slot release -/

/-- An admission record lets go of the slot it was attached to. -/
def Admission.letGo (i : Nat) (p : Admission) : Admission :=
  if p.es = some i then { p with es := none, state := .drain } else p

/-- The loop of `estream_release` over the admission records. -/
def admissionLetGo (i : Nat) (w : World σ) : World σ :=
  if w.conn.admissionEnabled then
    w.updConn fun c => { c with
      admissionPeers := fun r =>
        if r < c.peerCapacity then (c.admissionPeers r).map (Admission.letGo i)
        else c.admissionPeers r }
  else w

/-- Sever the backend linkage of slot `i`. -/
def detachEs (i : Nat) (w : World σ) : World σ :=
  if (w.es i).ds ≠ 0 then (w.op E (.detach (w.es i).ds i)).2 else w

/-- What a release leaves in a slot. -/
def Estream.released (e : Estream) : Estream := { e with kind := .free, nativeIdPending := false }

/-- `estream_release`: sever the backend linkage, then free the slot. -/
def estreamRelease (i : Nat) (w : World σ) : World σ :=
  let w := w.audit ((w.es i).kind ≠ .free) (.doubleRelease i)
  let w := admissionLetGo i (detachEs E i w)
  w.putEs i (w.es i).released

/-- Both directions of a WT stream are done, and nothing is left to absorb. -/
def Estream.wtDone (e : Estream) : Bool :=
  e.kind == .wt && !e.wtSendOpen && !e.wtFinPending && !e.wtRecvOpen && !e.wtRecvDrain

/-- `wt_release_if_done`. -/
def wtReleaseIfDone (i : Nat) (w : World σ) : World σ :=
  if (w.es i).wtDone then estreamRelease E i w else w

/-! ## Teardown

`session_closed` and `conn_fatal` call each other: a driver failure inside the
teardown loop kills the connection, and a dying connection closes its session. The
recursion ends at once because the loop issues no driver operation when the
connection is closed, so `sessionClosedWith` takes the function to call on a failure
and `connFatal` uses it with one that is never called
(`sessionClosedWith_of_closed`). -/

/-- `shutdown_raw`: abort a whole stream; a failure is fatal to the connection. -/
def shutdownRawWith (fatal : Nat → World σ → World σ) (ds : Nat) (abortSend abortRecv : Bool)
    (code : Nat) (w : World σ) : World σ :=
  let (r, w) := w.op E (.shutdownStream ds
    { mode := .wholeStream, abortSend, abortRecv, sendErr := code, recvErr := code })
  if r.rc ≠ .ok ∧ r.rc ≠ .closed then fatal H3Err.internalError w else w

/-- Close both directions of a WT stream, the receive side into its drain. -/
def Estream.closeBoth (e : Estream) : Estream :=
  { e with
    wtSendOpen := false
    wtFinPending := false
    wtRecvDrain := e.wtRecvOpen || e.wtRecvDrain
    wtRecvOpen := false }

/-- One round of the teardown loop of `session_closed`. -/
def teardownSlot (fatal : Nat → World σ → World σ) (w : World σ) (i : Nat) : World σ :=
  let e := w.es i
  if e.kind ≠ .wt then w
  else
    let send := e.wtSendOpen || e.wtFinPending
    let w :=
      if !w.conn.closed && (send || e.wtRecvOpen) then
        shutdownRawWith E fatal e.ds send e.wtRecvOpen H3Err.wtSessionGone w
      else w
    wtReleaseIfDone E i (w.modEs i Estream.closeBoth)

/-- `session_closed`, calling `fatal` when a teardown operation fails. -/
def sessionClosedWith (fatal : Nat → World σ → World σ) (code : UInt32) (reason : Bytes)
    (clean : Bool) (w : World σ) : World σ :=
  if !sessionActive w then w
  else
    let w := w.setSess .closed
    let w := (List.range w.conn.streamCapacity).foldl (teardownSlot E fatal) w
    E.notify (.sessionClosed code reason clean) w

/-- `session_conn_lost`: give the session exactly one outcome, chosen by its state. -/
def sessionConnLost (w : World σ) : World σ :=
  match w.conn.sessState with
  | .established | .draining => sessionClosedWith E (fun _ w => w) 0 [] false w
  | .idle | .pending | .sent => sessionFailed E .connection w
  | .closed | .rejected | .failed => w

/-- `conn_fatal`: close the connection with an H3 error exactly once. -/
def connFatal (err : Nat) (w : World σ) : World σ :=
  if w.conn.closed then w
  else
    let w := connLatchError ⟨.quicApp, err, 0, 0⟩ w
    let w := w.updConn fun c => { c with closed := true, closeCode := err }
    let w := (w.op E (.connClose err)).2
    let w := sessionConnLost E w
    E.notify (.connError err) w

/-- `shutdown_raw`. -/
def shutdownRaw : Nat → Bool → Bool → Nat → World σ → World σ :=
  shutdownRawWith E (connFatal E)

/-- `session_closed`. -/
def sessionClosed : UInt32 → Bytes → Bool → World σ → World σ :=
  sessionClosedWith E (connFatal E)

/-- `session_established`. -/
def sessionEstablished (i : Nat) (sel : Bytes) (w : World σ) : World σ :=
  if sel.length > protocolStorage then connFatal E H3Err.internalError w
  else
    let w := w.updConn fun c => { c with selected := sel }
    let id := (w.es i).id
    if id = streamIdUnknown then connFatal E H3Err.internalError w
    else
      let w := w.updConn fun c => { c with sessionEstablished := true }
      let w := w.setSess .established
      let w := w.updConn fun c => { c with sessionId := id, sessionEs := some i }
      let w := w.modEs i fun e => { e with isSessionStream := true }
      let w := w.updConn fun c => { c with
        capsDec := Capsule.decInit
        qsidPrefix := (Varint.encode (c.sessionId / 4) 8).toOption.getD [] }
      let w := E.notify (.sessionEstablished
        { sessionId := id, profile := w.conn.wtProfile, selected := w.conn.selected,
          reqPath := w.conn.reqPath, reqAuth := w.conn.reqAuth }) w
      if w.conn.goaway.isSome then sessionDraining E w else w

/-! ## Sending the CONNECT -/

/-- The slots `client_send_connect` may use. -/
def connectSlots (c : Conn) : Nat × Nat :=
  let first :=
    if c.budgeted then c.peerCapacity + c.localCapacity
    else if c.admissionEnabled then 3 else 0
  (first, if c.admissionEnabled then first + 1 else c.streamCapacity)

/-- An encoded frame header, empty when the encoder refuses it. -/
def frameHeader (type length : Nat) : Bytes :=
  (H3Frame.encodeHeader type length 16).toOption.getD []

/-- `client_send_connect`: send the encoded CONNECT request on a fresh bidi stream. -/
def clientSendConnect (w : World σ) : World σ :=
  if w.conn.goaway.isSome then sessionFailed E .connection w
  else
    match w.findFree (connectSlots w.conn).1 (connectSlots w.conn).2 fun _ => true with
    | none => connFatal E H3Err.internalError w
    | some i =>
      let w := w.claim i
        { kind := .connect, resident := w.conn.budgeted, id := streamIdUnknown }
      let (r, ds, w) := w.openFor E true i
      if r.rc ≠ .ok then connFatal E H3Err.internalError (estreamRelease E i w)
      else
        let w := w.updConn fun c => { c with connectDs := ds }
        let w := w.modEs i fun e =>
          { e with ds, id := r.id, nativeIdPending := r.id == streamIdUnknown }
        let sec := w.conn.connectSection
        let (sent, w) :=
          w.sendBoth E ds (frameHeader H3Frame.typeHeaders sec.length) sec false
        if sent then w.setSess .sent else connFatal E H3Err.internalError w

end Wtquic.Engine
