-- SUMMARY: The acts engine functions are made of, and the coherence of a connection that they keep.
import Mathlib.Logic.Relation
import Wtquic.Engine.CallFrame

namespace Wtquic.Engine

/-! # Acts

Every engine function is a sequence of acts: writes to an occupied slot, births and
releases of slots, driver operations, callbacks, and the steps of the session's life.
An act says what it needs. What all acts keep is proved once for each act. -/

variable {σ : Type} {E : Ctx σ}

/-! ## Coherence -/

def SessState.over : SessState → Bool
  | .closed | .rejected | .failed => true
  | _ => false

/-- The session has no outcome yet, and is not established. -/
def SessState.early : SessState → Bool
  | .idle | .pending | .sent => true
  | _ => false

/-- The slots whose streams the input in progress is about to end. -/
abbrev Doomed := EsKind → Nat → Prop

def Doomed.none : Doomed := fun _ _ => False

/-- The stream of kind `k` in slot `i`. -/
def Doomed.slot (k : EsKind) (i : Nat) : Doomed := fun k' j => k' = k ∧ j = i

/-- The bytes kept for the replay are those the preamble decoder has read, up to the type, and
no frame has begun. -/
def Estream.typed (e : Estream) : Prop :=
  e.frameActive = false ∧
  (e.pre.state = .type → Preamble.decFeed Preamble.decInit .bidi e.btypeBuf
    = (.needMore, e.pre, e.btypeBuf.length)) ∧
  (e.pre.state = .poisoned → Preamble.decFeed Preamble.decInit .bidi e.btypeBuf
    = (.unexpected e.pre.wireType, e.pre, e.btypeBuf.length))

/-- The halves a stream may have: a local uni stream only sends, a peer's uni stream only
receives, and only a local uni stream is in send-commit mode, in which a FIN may be pending. -/
structure Estream.Shaped (e : Estream) : Prop where
  commit : e.wtSendCommit → e.wtBidi = false ∧ e.wtLocal
  pending : e.wtFinPending → e.wtSendCommit
  sending : e.wtBidi = false → e.wtLocal → e.wtRecvOpen = false
  receiving : e.wtBidi = false → e.wtLocal = false → e.wtSendOpen = false

/-- What holds of the stream in slot `i` of a connection. -/
structure SlotOk (D : Doomed) (c : Conn) (i : Nat) (e : Estream) : Prop where
  linked : e.ds ≠ 0
  bound : i < c.streamCapacity
  shaped : e.Shaped
  foreign : e.kind ≠ .wt → e.wtLocal = false
  owes : e.kind = .connect ∨ e.wtLocal → e.nativeIdPending = (e.id == streamIdUnknown)
  resident : c.budgeted → e.resident
  alive : e.kind = .wt → e.wtDone = false ∨ D .wt i
  quiet : e.kind = .wt → c.sessState.active = false → e.wtLive = false
  asked : e.kind = .connect →
    e.headersDone ∨ e.requestDead ∨ D .connect i ∨ c.closed ∨ c.sessState = .sent
  answered : e.kind = .connect → c.clientResponseOk → e.headersDone
  capsule : e.frameKind = .capsule → e.isSessionStream
  served : e.kind = .request → c.persp = .server
  opened : e.kind = .request → e.isSessionStream → e.headersDone
  unread : e.kind = .type ∨ e.kind = .btype → e.isSessionStream = false
  typed : e.kind = .btype → e.typed

/-- A CONNECT stream whose response has been judged, or need not be. -/
def Estream.judged (D : Doomed) (i : Nat) (e : Estream) : Prop :=
  e.kind = .connect → e.headersDone ∨ e.requestDead ∨ D .connect i

/-- A slot whose completed request may wait for the SETTINGS. -/
def Estream.parkable (e : Estream) : Prop :=
  e.kind = .request ∧ e.isSessionStream = false ∧ e.headersDone

/-- A record that waits for a slot belongs to the session, and one that has a slot does not
wait any more. -/
def Admission.coherent (c : Conn) (p : Admission) : Prop :=
  (p.state = .waiting →
    p.sessionId % 4 = 0 ∧ c.sessionEstablished ∧ p.sessionId = c.sessionId) ∧
  (p.es.isSome → p.state = .attached ∨ p.state = .drain) ∧ (p.state = .attached → p.es.isSome)

/-- What every act keeps. -/
structure Coherent (D : Doomed) (w : World σ) : Prop where
  slots : ∀ i, (w.es i).kind ≠ .free → SlotOk D w.conn i (w.es i)
  shut : w.conn.closed → w.conn.sessState.over
  undialed : w.conn.sessState = .idle ∨ w.conn.sessState = .pending →
    w.conn.clientResponseOk = false ∧ ∀ i, (w.es i).kind ≠ .connect
  single : ∀ i j, (w.es i).kind = .connect → (w.es j).kind = .connect → i = j
  client : ∀ i, (w.es i).kind = .connect → w.conn.persp = .client
  parked : ∀ i, w.conn.parkedEs = some i → (w.es i).parkable
  server : w.conn.persp = .server → w.conn.sessionEstablished = false → w.conn.closed = false →
    w.conn.sessState = .idle
  early : w.conn.sessState.early → w.conn.sessionEstablished = false
  records : ∀ r p, w.conn.admissionPeers r = some p →
    p.ds ≠ 0 ∧ r < w.conn.peerCapacity ∧ p.coherent w.conn
  quarter : w.conn.sessionEstablished →
    w.conn.qsidPrefix = (Varint.encode (w.conn.sessionId / 4) 8).toOption.getD []
  named : w.nextDs ≠ 0
  capacity : w.conn.peerCapacity + w.conn.localCapacity
    + (if w.conn.persp = .client then 1 else 0) ≤ w.conn.streamCapacity
  legacy : w.conn.budgeted = false → w.conn.peerCapacity = 15 ∧ w.conn.streamCapacity = 16
  admitted : w.conn.budgeted → w.conn.admissionEnabled

theorem SessState.over_of_not_early {s : SessState} (h : s.early = false) (ha : s.active = false) :
    s.over := by
  cases s <;> simp_all [SessState.early, SessState.active, SessState.over]

theorem Coherent.open_of_active {D : Doomed} {w : World σ} (h : Coherent D w)
    (ha : w.conn.sessState.active) : w.conn.closed = false := by
  by_contra hc
  have ho := h.shut (by simpa using hc)
  revert ha ho
  cases w.conn.sessState <;> simp [SessState.active, SessState.over]

theorem Coherent.open_of_early {D : Doomed} {w : World σ} (h : Coherent D w)
    (he : w.conn.sessState.early) : w.conn.closed = false := by
  by_contra hc
  have ho := h.shut (by simpa using hc)
  revert he ho
  cases w.conn.sessState <;> simp [SessState.early, SessState.over]

/-! ## The acts -/

def DrvOp.isDetach : DrvOp → Bool
  | .detach _ _ => true
  | _ => false

/-- A report about streams, datagrams or settings: it is no part of the session's life. -/
def Callback.plain : Callback → Bool
  | .connError _ | .sessionEstablished _ | .sessionRejected _ | .sessionFailed _
  | .sessionClosed _ _ _ => false
  | _ => true

/-- A report about streams, datagrams or settings, but for that of a draining session. -/
def Callback.casual (c : Callback) : Bool := c.plain && c != .sessionDraining

theorem Callback.plain_of_casual {c : Callback} (h : c.casual) : c.plain := by
  simp only [Callback.casual, Bool.and_eq_true] at h
  exact h.1

def Callback.isSendComplete : Callback → Bool
  | .wtSendComplete _ _ => true
  | _ => false

/-- The fields of a connection that the invariants read, apart from the slots, the records
and the death flag. -/
structure Core where
  persp : Perspective
  budgeted : Bool
  admissionEnabled : Bool
  streamCapacity : Nat
  peerCapacity : Nat
  localCapacity : Nat
  sessState : SessState
  sessionEstablished : Bool
  sessionId : Nat
  qsidPrefix : Bytes
  connectDs : Nat
  goaway : Option Nat
  streamGeneration : Nat
  drainRx : Bool

def Conn.core (c : Conn) : Core where
  persp := c.persp
  budgeted := c.budgeted
  admissionEnabled := c.admissionEnabled
  streamCapacity := c.streamCapacity
  peerCapacity := c.peerCapacity
  localCapacity := c.localCapacity
  sessState := c.sessState
  sessionEstablished := c.sessionEstablished
  sessionId := c.sessionId
  qsidPrefix := c.qsidPrefix
  connectDs := c.connectDs
  goaway := c.goaway
  streamGeneration := c.streamGeneration
  drainRx := c.drainRx

/-- The kinds a stream in a slot may pass through. -/
inductive KindStep : EsKind → EsKind → Prop
  | same (k : EsKind) : KindStep k k
  | classified {k k' : EsKind} (h : k = .type ∨ k = .btype) (hf : k' ≠ .free)
      (hc : k' ≠ .connect) : KindStep k k'
  | refused : KindStep .wt .drain

/-- A write to the stream in slot `i`. -/
structure WriteOk (D : Doomed) (w : World σ) (i : Nat) (e : Estream) : Prop where
  occupied : (w.es i).kind ≠ .free
  kind : KindStep (w.es i).kind e.kind
  ok : SlotOk D w.conn i e
  ds : e.ds = (w.es i).ds
  generation : e.generation = (w.es i).generation
  parked : w.conn.parkedEs = some i → e.parkable
  id : e.id = (w.es i).id
  session : e.isSessionStream = (w.es i).isSessionStream
  opener : e.wtLocal = (w.es i).wtLocal
  bidi : (w.es i).wtLocal → e.wtBidi = (w.es i).wtBidi

/-- A record that has not been given a slot yet. -/
def Admission.waits (p : Admission) : Bool :=
  p.es.isNone && (p.state == .reading || p.state == .waiting)

/-- A write to a record that keeps its stream. -/
structure RecordOk (w : World σ) (r : Nat) (q : Admission) : Prop where
  old : ∃ p, w.conn.admissionPeers r = some p ∧ q.ds = p.ds ∧ q.id = p.id ∧
    (q.waits → p.waits)
  coherent : q.coherent w.conn

/-- The CONNECT stream `e` exists in slot `i` since an open that returned `res`, and some
bytes may have been sent on it. -/
structure Dialed (w : World σ) (i : Nat) (e : Estream) (res : DrvRes) (u : World σ) : Prop where
  free : (w.es i).kind = .free
  bound : i < w.conn.streamCapacity
  silent : w.conn.goaway = none
  opened : res.rc = .ok
  stream : e = { resident        := w.conn.budgeted
                 generation      := w.conn.streamGeneration + 1
                 kind            := .connect
                 ds              := w.nextDs
                 id              := res.id
                 nativeIdPending := res.id == streamIdUnknown }
  conn : u.conn = { w.conn with
    streamGeneration := w.conn.streamGeneration + 1
    connectDs := w.nextDs
    peer := Function.update w.conn.peer i e }
  trace : ∃ sends, (∀ o ∈ sends, ∃ ds data fin r, o = Out.op (.send ds data fin) r) ∧
    u.trace = sends ++ .attach w.nextDs i :: .op (.openBidi i) res :: w.trace
  nextDs : u.nextDs = w.nextDs + 1
  faults : u.faults = w.faults
  ext : u.ext = w.ext

/-- The world right before `on_session_established`. -/
def establish (i id : Nat) (w : World σ) : World σ :=
  let w := w.updConn fun c => { c with sessionEstablished := true }
  let w := w.setSess .established
  let w := w.updConn fun c => { c with sessionId := id, sessionEs := some i }
  let w := w.modEs i fun e => { e with isSessionStream := true }
  w.updConn fun c => { c with
    capsDec := Capsule.decInit
    qsidPrefix := (Varint.encode (c.sessionId / 4) 8).toOption.getD [] }

/-- The world right before `on_session_draining`. -/
def beginDrain (w : World σ) : World σ :=
  let w := w.updConn fun c => { c with drainRx := true }
  if w.conn.sessState = .established then w.setSess .draining else w

/-- A session that begins under a GOAWAY is reported draining. -/
def drainUnderGoaway (E : Ctx σ) (w : World σ) : World σ :=
  if w.conn.goaway.isSome then sessionDraining E w else w

/-! ## Native ids -/

/-- The peer may open a stream with the native id `id`: it is one of the peer's, and no
stream, no record that waits and no session has it. -/
structure Conn.PeerId (c : Conn) (id : Nat) : Prop where
  valid : id < 2 ^ 62
  side : id % 2 = if c.persp = .client then 1 else 0
  slots : ∀ i, (c.peer i).kind ≠ .free → (c.peer i).id ≠ id
  session : c.sessionEstablished → c.sessionId ≠ id
  records : ∀ r p, c.admissionPeers r = some p → p.waits → p.id ≠ id

/-- What the input in progress tells the connection. -/
structure News where
  /-- the native ids it reports -/
  named : Nat → Prop
  /-- the streams that the peer opens have valid ids that are not in use -/
  fresh : Prop
  /-- it names no CONNECT that the peer's GOAWAY refused, unless its response waits -/
  heeded : Prop

/-- A call tells nothing. -/
def News.call : News := ⟨fun _ => False, True, True⟩

/-- The CONNECT in slot `i`, which has the native id `id`, is given up under the GOAWAY `go`. -/
def giveUp (i id : Nat) (go : Option Nat) (w : World σ) : World σ :=
  (w.updConn fun c => { c with goaway := go }).putEs i
    { w.es i with id, nativeIdPending := false, requestDead := true }

/-- One act of the engine in context `E`. -/
inductive Act (E : Ctx σ) (N : News) (D : Doomed) : World σ → World σ → Prop
  | fault {w} (f : Fault) (hf : f.isMemory) : Act E N D w { w with faults := f :: w.faults }
  | hear {w} (i : Nat) (bs : Bytes) : Act E N D w (w.hear i bs)
  | op {w} (o : DrvOp) (ho : o.isDetach = false) : Act E N D w (w.op E o).2
  | detached {w} : Act E N D w w.newDetachedDs.2
  | conn {w} (f : Conn → Conn) (hcore : (f w.conn).core = w.conn.core)
      (hpeer : (f w.conn).peer = w.conn.peer)
      (hrec : (f w.conn).admissionPeers = w.conn.admissionPeers)
      (hclosed : (f w.conn).closed = w.conn.closed)
      (hanswered : (f w.conn).clientResponseOk → w.conn.clientResponseOk ∨
        (w.conn.sessState = .sent ∧ ∀ i, (w.es i).kind = .connect → (w.es i).headersDone))
      (hparked : ∀ i, (f w.conn).parkedEs = some i →
        w.conn.parkedEs = some i ∨ (w.es i).parkable) :
      Act E N D w (w.updConn f)
  | aged {w} :
      Act E N D w (w.updConn fun c => { c with streamGeneration := c.streamGeneration + 1 })
  | letGo {w} (i : Nat) : Act E N D w (admissionLetGo i w)
  | forget {w} (r : Nat) : Act E N D w (w.setAdmission r none)
  | record {w} (r : Nat) (q : Admission) (h : RecordOk w r q) :
      Act E N D w (w.setAdmission r (some q))
  | enroll {w} (r : Nat) (q : Admission) (hold : w.conn.admissionPeers r = none)
      (hr : r < w.conn.peerCapacity) (hds : q.ds = w.nextDs) (hq : q.state = .reading)
      (hes : q.es = none) (hn : N.fresh → w.conn.PeerId q.id) :
      Act E N D w (w.newDetachedDs.2.setAdmission r (some q))
  | write {w} (i : Nat) (e : Estream) (h : WriteOk D w i e) : Act E N D w (w.putEs i e)
  | spoil {w} (i : Nat) (e : Estream) (hold : (w.es i).kind = .free) (he : e.kind = .free) :
      Act E N D w (w.putEs i e)
  | born {w} (i : Nat) (e : Estream) (hold : (w.es i).kind = .free) (he : e.kind ≠ .free)
      (hc : e.kind ≠ .connect) (hds : e.ds = w.nextDs) (h : SlotOk D w.conn i e)
      (hl : e.wtLocal = false) (hn : N.fresh → w.conn.PeerId e.id) :
      Act E N D w ((w.newDs i).2.claim i e)
  | opened {w} (i : Nat) (bidi : Bool) (e : Estream) (hold : (w.es i).kind = .free)
      (he : e.kind = .wt) (hds : e.ds = w.nextDs) (h : SlotOk D w.conn i e)
      (hr : (E.drv w.trace (World.openOp bidi i)).rc = .ok)
      (hid : e.id = (E.drv w.trace (World.openOp bidi i)).id) (hl : e.wtLocal)
      (hb : e.wtBidi = bidi) :
      Act E N D w (((w.op E (World.openOp bidi i)).2.newDs i).2.claim i e)
  | entry {w} (r i : Nat) (p : Admission) (e : Estream)
      (hp : w.conn.admissionPeers r = some p) (hw : p.waits)
      (hold : (w.es i).kind = .free) (he : e.kind ≠ .free) (hc : e.kind ≠ .connect)
      (hds : e.ds = p.ds) (hid : e.id = p.id) (hl : e.wtLocal = false)
      (h : SlotOk D w.conn i e) :
      Act E N D w (((w.claim i e).log (.attach p.ds i)).setAdmission r
        (some { p with es := some i, state := .attached }))
  | release {w} (i : Nat) (e : Estream) (hold : (w.es i).kind ≠ .free)
      (hcritical : (w.es i).kind ≠ .control ∧ (w.es i).kind ≠ .qpack)
      (hparked : w.conn.parkedEs ≠ some i) (he : e.kind = .free) :
      Act E N D w ((admissionLetGo i (detachEs E i w)).putEs i e)
  | named {w} (i id : Nat) (hok : nativeIdOk w.conn i id) (hn : N.named id)
      (hh : N.heeded → (w.es i).kind = .connect → w.conn.sessState = .sent →
        ∀ g, w.conn.goaway = some g → id < g) :
      Act E N D w (w.putEs i { w.es i with id, nativeIdPending := false })
  | goaway {w} (v : Nat) (hv : ∀ g, w.conn.goaway = some g → v ≤ g)
      (hj : w.conn.sessState = .sent → ∀ i, (w.es i).kind = .connect →
        (w.es i).id ≠ streamIdUnknown → (w.es i).id < v) :
      Act E N D w (sessionDraining E (w.updConn fun c => { c with goaway := some v }))
  | givenUp {w} (i id : Nat) (go : Option Nat) (hs : w.conn.sessState = .sent)
      (hk : (w.es i).kind = .connect)
      (hgo : ∀ g, w.conn.goaway = some g → ∃ g', go = some g' ∧ g' ≤ g)
      (hid : (id = (w.es i).id ∧ id ≠ streamIdUnknown) ∨
        (nativeIdOk w.conn i id ∧ N.named id)) :
      Act E N D w (sessionFailed E .connection (giveUp i id go w))
  | pending {w} (hs : w.conn.sessState = .idle) (hp : w.conn.persp = .client) :
      Act E N D w (w.setSess .pending)
  | dialed {w u} (i : Nat) (e : Estream) (hs : w.conn.sessState = .pending)
      (hp : w.conn.persp = .client) (h : Dialed w i e (E.drv w.trace (.openBidi i)) u) :
      Act E N D w (u.setSess .sent)
  | undialed {w u} (i err : Nat) (e : Estream) (hs : w.conn.sessState = .pending)
      (hp : w.conn.persp = .client) (h : Dialed w i e (E.drv w.trace (.openBidi i)) u) :
      Act E N D w (connFatal E err u)
  | notify {w} (c : Callback) (hc : c.casual)
      (h : w.conn.closed = false ∨ c.isSendComplete) : Act E N D w (E.notify c w)
  | failed {w} (r : FailReason) (hs : w.conn.sessState.early) (hp : w.conn.persp = .client)
      (hj : ∀ i, (w.es i).judged D i) : Act E N D w (sessionFailed E r w)
  | rejected {w} (status : Nat) (hs : w.conn.sessState = .sent)
      (hj : ∀ i, (w.es i).judged D i) :
      Act E N D w (E.notify (.sessionRejected status) (w.setSess .rejected))
  | established {w} (i : Nat) (ev : Established) (hs : w.conn.sessState.early)
      (hk : ((w.es i).kind = .request ∧ (w.es i).headersDone) ∨ (w.es i).kind = .connect)
      (hparked : w.conn.parkedEs ≠ some i) (hj : ∀ j, (w.es j).judged D j)
      (hid : (w.es i).id ≠ streamIdUnknown)
      (hgo : (w.es i).kind = .connect → ∀ g, w.conn.goaway = some g → (w.es i).id < g) :
      Act E N D w (drainUnderGoaway E
        (E.notify (.sessionEstablished ev) (establish i (w.es i).id w)))
  | drained {w} : Act E N D w (sessionDraining E w)
  | ended {w} (code : UInt32) (reason : Bytes) (clean : Bool)
      (hs : w.conn.sessState.active) : Act E N D w (sessionClosed E code reason clean w)
  | died {w} (err : Nat) (hc : w.conn.closed = false) : Act E N D w (connFatal E err w)
  | lost {w} (err : Nat) (remote : Bool) (hc : w.conn.closed = false) :
      Act E N D w (onConnClosed E err remote w)

/-- An act in a coherent world. -/
def Move (E : Ctx σ) (N : News) (w w' : World σ) : Prop := ∃ D, Coherent D w ∧ Act E N D w w'

/-- A sequence of acts. -/
def Acts (E : Ctx σ) (N : News) : World σ → World σ → Prop :=
  Relation.ReflTransGen (Move E N)

end Wtquic.Engine
