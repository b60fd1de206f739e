-- SUMMARY: Engine data: stream slots, the connection record, driver operations, callbacks, the trace.
import Wtquic.Proto.Capsule
import Wtquic.Proto.Connect
import Wtquic.Proto.ErrMap
import Wtquic.Proto.Preamble
import Wtquic.Proto.Settings

namespace Wtquic.Engine

/-! # Engine data

The structures of `conn.c` and the vocabulary of `wt_driver.h`: what the engine
asks of the driver, what it reports to the application, and the record of both
that a run leaves behind. -/

/-- `WTQ_STREAM_ID_UNKNOWN`. -/
def streamIdUnknown : Nat := 2 ^ 64 - 1

/-- `WTQ_CONN_SETTINGS_CAP`, the size of `set_buf` and of `parked_buf`. -/
def settingsCap : Nat := 512

/-- `sizeof(btype_buf)`: a type varint is at most 8 bytes. -/
def btypeCap : Nat := 8

/-- The longest decoder-stream instruction `qpack_bytes` accumulates. -/
def qpackCap : Nat := 11

/-- `sizeof(prefix)` of an admission record. -/
def prefixCap : Nat := 16

/-- `WTQ_CONN_PROTOCOL_STORAGE`. -/
def protocolStorage : Nat := 512

def maxOffered : Nat := 8

/-- `wtq_result_t`. -/
inductive Rc where
  | ok | invalidArg | nomem | state | wouldBlock | tooLarge | streamLimit | closed
  | proto | unsupported | dgramDisabled | notFound | backend
  deriving DecidableEq, Repr

inductive Perspective where
  | client
  | server
  deriving DecidableEq, Repr

/-! ## Stream slots -/

/-- Peer stream classification states, `ES_*`. -/
inductive EsKind where
  | free | type | btype | control | qpack | drain | connect | request | wt | reserved
  deriving DecidableEq, Repr

/-- Frame payload handling classes, `CF_*`. -/
inductive FrameKind where
  | settings | oneVarint | skip | capsule
  deriving DecidableEq, Repr

/-- `struct wtq_estream`. A buffer and its fill counter are one list: `setBuf` is
`set_buf[0..set_fill)` and `btypeBuf` is `btype_buf[0..btype_fill)`. A driver stream
is named by a serial number, `0` for the null pointer. -/
structure Estream where
  resident : Bool := false
  generation : Nat := 0
  recvPaused : Bool := false
  kind : EsKind := .free
  qpackType : Nat := 0
  pre : Preamble.Dec := {}
  btypeBuf : Bytes := []
  frameDec : H3Frame.Dec := {}
  frameActive : Bool := false
  frameKind : FrameKind := .settings
  frameType : Nat := 0
  frameRemaining : Nat := 0
  setBuf : Bytes := []
  headersDone : Bool := false
  trailersDone : Bool := false
  requestDead : Bool := false
  isSessionStream : Bool := false
  wtBidi : Bool := false
  wtLocal : Bool := false
  wtSendOpen : Bool := false
  wtSendCommit : Bool := false
  wtFinPending : Bool := false
  wtApplicationSent : Bool := false
  wtRecvOpen : Bool := false
  wtRecvDrain : Bool := false
  user : Option Nat := none
  ds : Nat := 0
  id : Nat := 0
  nativeIdPending : Bool := false
  deriving DecidableEq, Repr

/-- The states of an admission record: `state` 0 to 3. -/
inductive AdmState where
  | reading | waiting | attached | drain
  deriving DecidableEq, Repr

/-- `wtq_peer_admission_t`, the provider's record of a peer stream that has no
slot yet. `pfx` is `prefix[0..fill)`; `es` is the slot it was attached to. -/
structure Admission where
  decoder : Preamble.Dec := {}
  pfx : Bytes := []
  state : AdmState := .reading
  bidi : Bool
  id : Nat
  sessionId : Nat := 0
  ds : Nat
  es : Option Nat := none
  deriving DecidableEq, Repr

/-! ## Driver operations -/

/-- `wtq_shutdown_mode_t`; `mode` is a raw byte that the engine validates. -/
inductive ShutdownMode where
  | wholeStream
  | exactHalves
  | other
  deriving DecidableEq, Repr

/-- `wtq_shutdown_t`. -/
structure Shutdown where
  mode : ShutdownMode
  abortSend : Bool := false
  abortRecv : Bool := false
  appSendCancel : Bool := false
  sendErr : Nat := 0
  recvErr : Nat := 0
  deriving DecidableEq, Repr

/-- `wtq_driver_ops_t`. `openUni none` is the open of an H3 critical stream, which
gets no engine context. -/
inductive DrvOp where
  | openUni (es : Option Nat)
  | openBidi (es : Nat)
  | send (ds : Nat) (data : Bytes) (fin : Bool)
  | shutdownStream (ds : Nat) (req : Shutdown)
  | connClose (err : Nat)
  | dgramSend (spans : List Bytes)
  | dgramMaxSize
  | sendGather (ds : Nat) (spans : List Bytes) (fin : Bool) (cookie : Nat)
  | recvEnable (ds : Nat) (enabled : Bool)
  | detach (ds es : Nat)
  deriving DecidableEq, Repr

/-- What a driver operation returns: its status, the native id of an open, the
size a `dgram_max_size` reports. -/
structure DrvRes where
  rc : Rc := .ok
  id : Nat := streamIdUnknown
  size : Nat := 0
  deriving DecidableEq, Repr

/-- The capability word, and which optional operations the table has. -/
structure DrvCaps where
  shutBidiSend : Bool := false
  shutBidiRecv : Bool := false
  shutSplitCodes : Bool := false
  recvFlowControlled : Bool := false
  sendCommitAckFin : Bool := false
  hasDgram : Bool := true
  hasSendGather : Bool := true
  hasRecvEnable : Bool := true
  deriving DecidableEq, Repr

/-! ## Callbacks and the trace -/

/-- `WTQ_SESSION_*`. -/
inductive SessState where
  | idle | pending | sent | established | draining | closed | rejected | failed
  deriving DecidableEq, Repr

/-- `wtq_session_fail_reason_t`. -/
inductive FailReason where
  | noWtSupport | noProtocol | badResponse | connection
  deriving DecidableEq, Repr

/-- What `on_session_established` passes, and what the accessors return to it:
the session id, the selected profile and subprotocol, and the accepted request. -/
structure Established where
  sessionId : Nat
  profile : Profile
  selected : Bytes
  reqPath : Bytes
  reqAuth : Bytes
  deriving DecidableEq, Repr

/-- `wtq_conn_callbacks_t`. A stream is named by its slot. -/
inductive Callback where
  | peerSettings (wtSupported : Bool)
  | connError (err : Nat)
  | sessionEstablished (ev : Established)
  | sessionRejected (status : Nat)
  | sessionFailed (reason : FailReason)
  | sessionClosed (code : UInt32) (reason : Bytes) (clean : Bool)
  | sessionDraining
  | wtStreamOpened (es : Nat) (bidi : Bool) (id : Nat)
  | wtStreamData (es : Nat) (data : Bytes) (fin : Bool)
  | wtStreamReset (es : Nat) (appCode : UInt32)
  | wtStreamStop (es : Nat) (appCode : UInt32)
  | wtSendComplete (cookie : Nat) (canceled : Bool)
  | wtDatagram (data : Bytes)
  | wtStreamWritable (es : Nat)
  | wtStreamTerminal (es : Nat)
  | wtStreamSendCommitted (es : Nat)
  deriving DecidableEq, Repr

/-- One entry of a run's trace. `op` and `cb` are what the driver and the
application see, `ret` is the return of the innermost open callback. The others
are history: an assignment of `sess_state`, and a driver stream that got the slot
`es` as its engine context. -/
inductive Out where
  | op (o : DrvOp) (res : DrvRes)
  | cb (c : Callback)
  | ret
  | sess (s : SessState)
  | attach (ds es : Nat)
  deriving DecidableEq, Repr

/-! ## Connection -/

/-- The `WTQ_ERR_KIND_*` of a latched transport error. -/
inductive ErrKind where
  | none | quicTransport | quicApp | local
  deriving DecidableEq, Repr

/-- `wtq_transport_error_t`. -/
structure TransportError where
  kind : ErrKind
  quicCode : Nat
  nativeDomain : Nat
  nativeCode : Int
  deriving DecidableEq, Repr

/-- `WTQ_ORIGIN_POLICY_*`; `other` is a mode above the last one. -/
inductive OriginPolicy where
  | unset | allowAnyNonOpaque | allowlist | allowAnyIncludingNull | other
  deriving DecidableEq, Repr

/-- One served path. -/
structure PathEntry where
  path : Bytes
  protos : List Bytes := []
  require : Bool := false
  originPolicy : OriginPolicy := .unset
  origins : List Bytes := []
  deriving DecidableEq, Repr

/-- `paths[0..path_count)`. It is configuration: no callback and no engine input
writes it, so the functions that read it take it as an argument. -/
abbrev PathTable := List PathEntry

/-- `struct wtq_conn`, less the path table and the pointers to its owner. The slot
pointers `parked_es` and `session_es` are slot numbers. -/
structure Conn where
  streamGeneration : Nat := 0
  admissionEnabled : Bool := false
  budgeted : Bool := false
  streamCapacity : Nat := 16
  peerCapacity : Nat := 15
  peerUni : Nat := 8
  localCapacity : Nat := 0
  admissionPeers : Nat → Option Admission := fun _ => none
  persp : Perspective
  caps : DrvCaps := {}
  ecp : Bool := false
  wtProfiles : ProfileSet
  wtProfile : Profile
  profileLatched : Bool := false
  started : Bool := false
  localsAttempted : Bool := false
  peerControlSeen : Bool := false
  qpackEncSeen : Bool := false
  qpackDecSeen : Bool := false
  settingsReceived : Bool := false
  wtSupported : Bool := false
  maxPushId : Option Nat := none
  goaway : Option Nat := none
  peerSettings : Option Settings.H3Settings := none
  closed : Bool := false
  closeCode : Nat := 0
  transportError : Option TransportError := none
  localCtrl : Nat := 0
  localQpkEnc : Nat := 0
  localQpkDec : Nat := 0
  sessState : SessState := .idle
  connectSection : Bytes := []
  offered : List Bytes := []
  requireProtocol : Bool := false
  connectDs : Nat := 0
  clientResponseOk : Bool := false
  clientSelectedOffer : Option Nat := none
  reqPath : Bytes := []
  reqAuth : Bytes := []
  parkedEs : Option Nat := none
  parkedBuf : Bytes := []
  parkedFin : Bool := false
  sessionEstablished : Bool := false
  selected : Bytes := []
  sessionId : Nat := 0
  sessionEs : Option Nat := none
  capsDec : Capsule.Dec := {}
  closeCapsuleRx : Bool := false
  drainRx : Bool := false
  qsidPrefix : Bytes := []
  dgramsDropped : Nat := 0
  peer : Nat → Estream := fun _ => {}

end Wtquic.Engine
