-- SUMMARY: Creation, inputs, nested application calls, and runs of an engine connection.
import Wtquic.Engine.Admission
import Wtquic.Engine.App

namespace Wtquic.Engine

/-! # Runs

A run is a sequence of backend inputs and top-level application calls. The driver and
the application are functions of the trace, so they may answer and behave in any way;
the application may call back into the engine from inside any callback, to any finite
depth. The backend makes no input from inside a driver operation (`wt_driver.h`), and
services waiting admissions only when no callback is active. -/

/-! ## Creation -/

/-- `wtq_stream_budget_t`, as far as the engine reads it. -/
structure StreamPlan where
  peerUni : Nat
  peerBidi : Nat
  maxLocal : Nat
  deriving DecidableEq, Repr

/-- `wtq_conn_cfg_t`. `profile` is the singular field, `profiles` the authoritative
set when it is not empty. -/
structure ConnCfg where
  persp : Perspective
  enableConnectProtocol : Bool := false
  profile : Profile := .current
  profiles : ProfileSet := {}
  caps : DrvCaps := {}
  plan : Option StreamPlan := none
  admission : Bool := false
  deriving DecidableEq, Repr

/-- The configured capability set. -/
def ConnCfg.profileSet (cfg : ConnCfg) : ProfileSet :=
  if cfg.profiles.isEmpty then .bit cfg.profile else cfg.profiles

/-- The placeholder for `wt_profile` before a selection. -/
def profileSeed (s : ProfileSet) : Profile :=
  if s = .bit .d13_14Compat then .d13_14Compat
  else if s = .bit .d02Rfc9297Compat then .d02Rfc9297Compat
  else .current

/-- The slots of a plan: peers, local streams, and the CONNECT of a client. -/
def StreamPlan.engineCapacity (p : StreamPlan) (persp : Perspective) : Nat :=
  p.peerUni + p.peerBidi + p.maxLocal + (if persp = .client then 1 else 0)

/-- `wtq_conn_create_budget_v2`, and `wtq_conn_enable_admission` on the result. -/
def create (cfg : ConnCfg) : Conn :=
  let base : Conn :=
    { persp := cfg.persp
      caps := cfg.caps
      ecp := cfg.enableConnectProtocol
      wtProfiles := cfg.profileSet
      wtProfile := profileSeed cfg.profileSet }
  match cfg.plan with
  | none => { base with admissionEnabled := cfg.admission }
  | some p =>
    { base with
      admissionEnabled := true
      budgeted := true
      streamCapacity := p.engineCapacity cfg.persp
      peerCapacity := p.peerUni + p.peerBidi
      peerUni := p.peerUni
      localCapacity := p.maxLocal }

/-! ## Calls and inputs -/

/-- What the application may call. -/
inductive AppCall where
  | clientConnect (cfg : ClientConnectCfg)
  | sessionClose (code : UInt32) (reason : Bytes)
  | sessionDrain
  | wtOpen (bidi : Bool)
  | wtEnableSendCommit (es : Nat)
  | wtSend (es : Nat) (spans : List Bytes) (fin : Bool) (cookie : Nat)
  | wtShutdown (es : Nat) (req : Shutdown)
  | wtReset (es : Nat) (appCode : UInt32)
  | wtStop (es : Nat) (appCode : UInt32)
  | wtAbort (es : Nat) (appCode : UInt32)
  | wtReject (es : Nat)
  | wtRecvEnable (es : Nat) (enabled : Bool)
  | setUser (es : Nat) (user : Option Nat)
  | dgramSend (spans : List Bytes)
  | dgramMaxSize
  | sealTransportError
  deriving DecidableEq, Repr

/-- The slot a call names. -/
def AppCall.slot : AppCall → Option Nat
  | .wtEnableSendCommit es | .wtSend es _ _ _ | .wtShutdown es _ | .wtReset es _
  | .wtStop es _ | .wtAbort es _ | .wtReject es | .wtRecvEnable es _ | .setUser es _ => some es
  | _ => none

/-- The handles the engine gives out are pointers to WT streams. -/
def handleOk {σ : Type} (w : World σ) : Option Nat → Bool
  | none => true
  | some i => i < w.conn.streamCapacity && (w.es i).kind == .wt

/-- Make a call. -/
def AppCall.apply {σ : Type} (E : Ctx σ) : AppCall → World σ → World σ
  | .clientConnect cfg, w => (Engine.clientConnect E cfg w).2
  | .sessionClose code reason, w => (Engine.sessionClose E code reason w).2
  | .sessionDrain, w => (Engine.sessionDrain E w).2
  | .wtOpen bidi, w => (Engine.wtOpen E bidi w).2.2
  | .wtEnableSendCommit i, w => (Engine.wtEnableSendCommit i w).2
  | .wtSend i spans fin cookie, w => (Engine.wtSend E i spans fin cookie w).2
  | .wtShutdown i req, w => (Engine.wtShutdown E i req w).2
  | .wtReset i code, w => (Engine.wtResetSend E i code w).2
  | .wtStop i code, w => (Engine.wtStop E i code w).2
  | .wtAbort i code, w => (Engine.wtAbort E i code w).2
  | .wtReject i, w => Engine.wtReject E i w
  | .wtRecvEnable i enabled, w => (Engine.wtRecvEnable E i enabled w).2
  | .setUser i user, w => Engine.setUser i user w
  | .dgramSend spans, w => (Engine.dgramSend E spans w).2
  | .dgramMaxSize, w => (Engine.dgramMaxSize E w).2
  | .sealTransportError, w => Engine.sealTransportError w

/-- Make a call on a handle the application holds. -/
def AppCall.run {σ : Type} (E : Ctx σ) (w : World σ) (a : AppCall) : World σ :=
  if handleOk w a.slot then a.apply E w else w

/-- What the backend feeds in. -/
inductive Input where
  | start
  | setPaths (paths : List ServerPathCfg)
  | peerUniOpened (id : Nat)
  | peerBidiOpened (id : Nat)
  | streamBytes (es : Nat) (data : Bytes) (fin : Bool)
  | streamBytesAccounted (es : Nat) (data : Bytes) (fin : Bool)
  | streamReset (es quicErr : Nat)
  | streamTerminal (es : Nat)
  | stopSending (es quicErr : Nat)
  | nativeId (es nativeId : Nat)
  | sendShutdown (es ds generation : Nat) (graceful : Bool)
  | sendComplete (cookie : Nat) (canceled : Bool)
  | writable (es : Nat)
  | datagram (data : Bytes)
  | connClosed (err : Nat) (remote : Bool)
  | transportError (e : TransportError)
  | admissionInit (reservation : Nat) (bidi : Bool) (id : Nat)
  | admissionBytes (reservation : Nat) (data : Bytes) (fin : Bool)
  | peerAdmit (reservation : Nat)
  | admissionForget (reservation : Nat)
  | streamRetire (es ds : Nat)
  | call (a : AppCall)
  deriving DecidableEq, Repr

/-- Process an input. -/
def Input.apply {σ : Type} (E : Ctx σ) (tbl : PathTable) : Input → World σ → World σ
  | .start, w => (Engine.start E w).2
  | .setPaths _, w => w
  | .peerUniOpened id, w => (onPeerOpened E false id w).2
  | .peerBidiOpened id, w => (onPeerOpened E true id w).2
  | .streamBytes i data fin, w => (Engine.streamBytes E tbl false i data fin w).2.2
  | .streamBytesAccounted i data fin, w => (Engine.streamBytes E tbl true i data fin w).2.2
  | .streamReset i err, w => (onStreamReset E i err w).2
  | .streamTerminal i, w => (onStreamTerminal E i w).2
  | .stopSending i err, w => (onStopSending E i err w).2
  | .nativeId i id, w => onStreamNativeId E i id w
  | .sendShutdown i ds gen graceful, w => onStreamSendShutdown E i ds gen graceful w
  | .sendComplete cookie canceled, w => onSendComplete E cookie canceled w
  | .writable i, w => onStreamWritable E i w
  | .datagram data, w => (onDatagram E data w).2
  | .connClosed err remote, w => onConnClosed E err remote w
  | .transportError e, w => setTransportError e w
  | .admissionInit r bidi id, w => (Engine.admissionInit E r bidi id w).2
  | .admissionBytes r data fin, w => (peerAdmissionBytes E tbl r data fin w).2.2
  | .peerAdmit r, w => (Engine.peerAdmit E r w).2
  | .admissionForget r, w => Engine.admissionForget r w
  | .streamRetire i ds, w => Engine.streamRetire i ds w
  | .call a, w => a.run E w

/-- The slot an input names. -/
def Input.slot : Input → Option Nat
  | .streamBytes es _ _ | .streamBytesAccounted es _ _ | .streamReset es _
  | .streamTerminal es | .stopSending es _ | .nativeId es _ | .sendShutdown es _ _ _
  | .writable es => some es
  | _ => none

/-- The inputs the driver contract allows. A stream is one of this connection; and a
driver reports peer streams in one of two ways, through admission records when they are
enabled and directly when they are not. -/
def Input.allowed (c : Conn) : Input → Bool
  | .peerUniOpened _ | .peerBidiOpened _ => !c.admissionEnabled
  | inp => inp.slot.all (· < c.streamCapacity)

/-! ## Environments -/

/-- A driver and an application, as functions of everything that happened before. -/
structure Env where
  drv : List Out → DrvOp → DrvRes
  app : List Out → Callback → List AppCall

/-- Report a callback: the application makes its calls, and returns. -/
def report {σ : Type} (app : List Out → Callback → List AppCall) (E : Ctx σ) (c : Callback)
    (w : World σ) : World σ :=
  let w := w.log (.cb c)
  ((app w.trace c).foldl (AppCall.run E) w).log .ret

/-- The context an environment provides. `depth` bounds the nesting of callbacks; past
it the application makes no calls. -/
def Env.ctx {σ : Type} (env : Env) : Nat → Ctx σ
  | 0 => ⟨env.drv, fun c w => (w.log (.cb c)).log .ret⟩
  | depth + 1 => ⟨env.drv, report env.app (env.ctx depth)⟩

/-- A driver whose operations all succeed, and an application that makes no calls. -/
def Env.plain : Env where
  drv := fun _ _ => {}
  app := fun _ _ => []

/-! ## Runs -/

/-- A connection and its path table, between inputs. -/
structure State where
  world : World Unit
  paths : PathTable := []

/-- One input. -/
def step (env : Env) (depth : Nat) (s : State) (inp : Input) : State :=
  match inp with
  | .setPaths paths => { s with paths := (serverSetPaths s.world.conn s.paths paths).2 }
  | inp =>
    if inp.allowed s.world.conn then
      { s with world := inp.apply (env.ctx depth) s.paths s.world }
    else s

def run (env : Env) (depth : Nat) (s : State) (inputs : List Input) : State :=
  inputs.foldl (step env depth) s

/-- A new connection. -/
def init (cfg : ConnCfg) : State := { world := { conn := create cfg, ext := () } }

/-- The states of a run from a new connection. -/
def Reachable (env : Env) (depth : Nat) (cfg : ConnCfg) (s : State) : Prop :=
  ∃ inputs, s = run env depth (init cfg) inputs

end Wtquic.Engine
