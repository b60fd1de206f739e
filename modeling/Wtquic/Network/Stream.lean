-- SUMMARY: One stream of the Network.framework backend: its send chain, its receive loop, its end.
import Mathlib.Logic.Function.Basic
import Wtquic.Engine.Types

namespace Wtquic.Network

open Engine (Rc)

/-! # Streams of `nw_conn.c`

All of this runs on the serial domain queue. A callback of the transport starts a chain of calls
into the engine. During each of them the application may operate on the stream again, so what the
backend does behind such a call is a frame, and its return an event of its own. -/

/-- `WTQ_NW_SEND_RECORDS`. -/
def sendRecords : Nat := 16

/-- `WTQ_NW_SEND_BYTES_MAX`. -/
def sendBytesMax : Nat := 2 ^ 20

/-- The values of a `size_t`. -/
def sizeMod : Nat := 2 ^ 64

/-- A place in `ds->recs`. -/
abbrev Slot := Fin sendRecords

/-- `struct wtq_nw_send_rec`; `send` numbers the sends, for the history only. -/
structure SendRec where
  inUse : Bool := false
  appDone : Bool := false
  transportDone : Bool := false
  cookie : Nat := 0
  bytes : Nat := 0
  send : Nat := 0
  deriving DecidableEq, Repr

/-- `struct wtq_nw_pending_send`. The batch memory that an entry brings along is no data. -/
structure PendingSend where
  d : Option Bytes
  fin : Bool
  record : Option Slot
  send : Nat
  deriving DecidableEq, Repr

/-- `struct wtq_nw_send_batch`, and which of its two phases the transport has run. -/
structure Batch where
  id : Nat
  recs : List Slot
  phasesDone : Nat := 0
  completed : Bool := false
  retired : Bool := false
  deriving DecidableEq, Repr

/-- What follows a sweep over the records. -/
inductive AfterSweep where
  | failed
  | cancelled
  | groupTerminal
  deriving DecidableEq, Repr

/-- The loop that a record is completed in, with the records behind it. -/
inductive Completing where
  | batch (id : Nat) (canceled : Bool) (rest : List Slot)
  | sweep (rest : List Slot) (after : AfterSweep)
  deriving DecidableEq, Repr

def Completing.rest : Completing → List Slot
  | .batch _ _ rest => rest
  | .sweep rest _ => rest

def Completing.withRest (rest : List Slot) : Completing → Completing
  | .batch id canceled _ => .batch id canceled rest
  | .sweep _ after => .sweep rest after

/-- Whether the loop completes this record. -/
def Completing.takes (k : Completing) (e : SendRec) : Bool :=
  match k with
  | .batch _ _ _ => !e.appDone
  | .sweep _ _ => e.inUse && !e.appDone

def Completing.canceled : Completing → Bool
  | .batch _ canceled _ => canceled
  | .sweep _ _ => true

/-- The state of the block that `dispatch_data_apply` runs, at the region it has reached. -/
structure Delivery where
  key : Nat
  fin : Bool
  total : Nat
  rearm : Bool
  off : Nat
  skip : Nat
  buf : Bytes
  rest : List Bytes
  deriving DecidableEq, Repr

/-- A call into the engine, and what the backend does when it returns. -/
inductive Stream.Frame where
  | bytes (d : Delivery)
  | bareFin (rearm : Bool)
  | reset (after : AfterSweep)
  | streamTerminal
  | nativeId
  | peerOpened
  | sendComplete (r : Slot) (edge : Bool) (k : Completing)
  | writable (r : Slot) (k : Completing)
  | retireWritable
  /-- `group_handle_terminal` is at another stream. -/
  | otherStreams
  | connClosed
  deriving DecidableEq, Repr

/-- The allocations of a gather send. -/
inductive Alloc where
  | ok
  | noData
  | noEntry
  deriving DecidableEq, Repr

/-- What happens to a stream from outside. -/
inductive Stream.Event where
  -- The transport and the domain queue.
  | ready (id : Option Nat)
  | recheck (id : Option Nat)
  | failed
  | cancelled
  | groupTerminal
  | received (content : Option (List Bytes)) (fin errored : Bool)
  | batchCompleted (b : Batch) (canceled : Bool)
  | batchRetired (b : Batch)
  | pump
  | reap
  /-- The session ends in a bracket of another stream. -/
  | sessionGone
  -- The engine.
  | send (data : Bytes) (fin alloc : Bool)
  | sendGather (spans : List Bytes) (fin : Bool) (cookie : Nat) (alloc : Alloc)
  | shutdown
  | recvEnable (enabled : Bool)
  | detach (es : Nat)
  | connClose
  | returned
  deriving DecidableEq, Repr

/-- What happened at the two ends of the backend. -/
inductive Stream.Fact where
  -- The receive side.
  | armed
  | completed (content : Bytes) (fin errored : Bool)
  | flushed
  | enabled (b : Bool)
  | offered (buf : Bytes) (fin : Bool)
  | taken (buf : Bytes) (fin : Bool)
  | refusedInput
  | dropped
  | overflow
  -- The send side.
  | accepted (send : Nat) (d : Bytes) (fin : Bool) (cookie : Option Nat)
  | refused (cookie : Nat) (rc : Rc)
  | issued (id : Nat) (d : Bytes) (fin : Bool)
  | transportCompleted (id : Nat)
  | sendComplete (send cookie : Nat) (canceled : Bool)
  | writable
  -- The stream.
  | shutdown
  | cancelIssued
  | failed
  | reset
  | terminal
  | detached
  | sessionGone
  deriving DecidableEq, Repr

/-- The life of a stream in `struct wtq_dstream`, and of its driver `session`, `shutdown_started` and
`group_terminal`. `conn` says that the pointer is not null. -/
structure Life where
  session : Bool := true
  shutdownStarted : Bool := false
  groupTerminal : Bool := false
  conn : Bool := true
  ectx : Option Nat
  isLocal : Bool
  isBidi : Bool
  readySeen : Bool := false
  readyProcessed : Bool := false
  readyRecheckPending : Bool := false
  failedSeen : Bool := false
  terminal : Bool := false
  cancelIssued : Bool := false
  cancelDeferred : Bool := false
  hidden : Bool := false
  deriving DecidableEq, Repr

/-- The receive side of `struct wtq_dstream`. -/
structure RecvHalf where
  recvEnabled : Bool := true
  recvPending : Bool := false
  recvEnded : Bool := false
  recvDeferred : Bool := false
  recvDelivering : Bool := false
  recvDeferredOffset : Nat := 0
  recvDeferredFin : Bool := false
  recvDeferredErrored : Bool := false
  /-- The regions of the retained buffer. -/
  recvDeferredData : Option (List Bytes) := none
  finDelivered : Bool := false
  resetDelivered : Bool := false
  deriving DecidableEq, Repr

/-- The send side of `struct wtq_dstream`, and its live batches. -/
structure SendHalf where
  sendBlocked : Bool := false
  pendingSends : List PendingSend := []
  sendInflight : Bool := false
  recs : Slot → SendRec := fun _ => {}
  inflightBytes : Nat := 0
  recsUnretired : Nat := 0
  batchesLive : Nat := 0
  recsAppPending : Nat := 0
  batches : List Batch := []
  nextSend : Nat := 0
  nextBatch : Nat := 0

/-- A stream, the calls into the engine that it is inside of, the innermost first, and its history,
the newest first. -/
structure Stream extends Life, RecvHalf, SendHalf where
  frames : List Stream.Frame := []
  log : List Stream.Fact := []

/-- What `nw_leave_and_poll` comes upon. -/
inductive Poll where
  | keep
  | destroyed
  | close
  deriving DecidableEq, Repr

/-- What the engine, the allocator and the driver answer during one step. -/
structure Oracle where
  rc : Rc := .ok
  consumed : Nat := 0
  /-- The stream context that a peer stream gets. -/
  ctx : Option Nat := none
  poll : Poll := .keep
  /-- The concatenation of the pump that fails. -/
  oom : Option Nat := none
  /-- `conn_poll_deferred_shutdown` finds nothing owed any more. -/
  flushed : Bool := false
  deriving DecidableEq, Repr

namespace Stream

variable (o : Oracle)

def note (f : Fact) (s : Stream) : Stream := { s with log := f :: s.log }

def push (f : Frame) (s : Stream) : Stream := { s with frames := f :: s.frames }

/-! ## The connection -/

/-- `nw_connection_cancel`, behind `cancel_issued = true`. -/
def cancel (s : Stream) : Stream := { s with cancelIssued := true }.note .cancelIssued

/-- `op_conn_close`, at this stream. -/
def opConnClose (s : Stream) : Stream :=
  if s.shutdownStarted then s
  else
    let s := { s with shutdownStarted := true }
    if s.conn && !s.terminal && !s.cancelIssued then s.cancel else s

/-- `nw_leave_and_poll`; only the outermost leave destroys the session. -/
def leaveAndPoll (s : Stream) : Stream :=
  if !s.session then s
  else
    match o.poll with
    | .keep => s
    | .destroyed => if s.frames = [] then { s with session := false }.note .sessionGone else s
    | .close => s.opConnClose

/-! ## The receive loop -/

/-- What is held and was not taken yet. -/
def held (s : Stream) : Bytes :=
  if s.recvDeferred then (s.recvDeferredData.getD []).flatten.drop s.recvDeferredOffset else []

/-- A FIN is held. -/
def heldFin (s : Stream) : Bool := s.recvDeferred && s.recvDeferredFin && !s.finDelivered

/-- `ds_drop_deferred`. -/
def dropDeferred (s : Stream) : Stream :=
  let s := if s.held ≠ [] ∨ s.heldFin then s.note .dropped else s
  { s with
    recvDeferredData := none, recvDeferred := false, recvDeferredOffset := 0,
    recvDeferredFin := false, recvDeferredErrored := false }

/-- `ds_arm_receive`. -/
def armReceive (s : Stream) : Stream :=
  if s.recvPending || s.recvDeferred || s.recvDelivering || s.terminal || !s.conn ||
      !s.recvEnabled || s.finDelivered || s.recvEnded || s.cancelIssued || s.cancelDeferred ||
      s.failedSeen then s
  else { s with recvPending := true }.note .armed

/-- What the callers of `ds_deliver_bytes` do behind it. -/
def rearmReceive (rearm : Bool) (s : Stream) : Stream := if rearm then s.armReceive else s

/-- The end of `ds_deliver_bytes`. -/
def deliverEnd (blocked rearm : Bool) (s : Stream) : Stream :=
  let s := if blocked then s else s.dropDeferred
  ({ s with recvDelivering := false }.leaveAndPoll o).rearmReceive rearm

/-- The block of `ds_deliver_bytes` over the regions from `off` on, up to the next call. -/
def deliverRegions (key : Nat) (fin : Bool) (total : Nat) (rearm : Bool) :
    Nat → List Bytes → Stream → Stream
  | _, [], s => s.deliverEnd o false rearm
  | off, buf :: rest, s =>
    if !s.recvDeferred || s.ectx ≠ some key || s.terminal || s.cancelIssued || s.cancelDeferred ||
        s.failedSeen then s.deliverEnd o false rearm
    else if !s.recvEnabled then s.deliverEnd o true rearm
    else if off + buf.length ≤ s.recvDeferredOffset then
      deliverRegions key fin total rearm (off + buf.length) rest s
    else
      let skip := s.recvDeferredOffset - off
      let last := off + buf.length == total
      (s.note (.offered (buf.drop skip) (fin && last))).push
        (.bytes { key, fin, total, rearm, off, skip, buf, rest })

/-- `ds_deliver_bytes`, with the arming of its caller. -/
def deliverBytes (rearm : Bool) (s : Stream) : Stream :=
  if s.recvDelivering || !s.recvDeferred then s.rearmReceive rearm
  else
    match s.session, s.ectx with
    | true, some key =>
      let s := { s with recvDelivering := true }
      let content := s.recvDeferredData.getD []
      let fin := s.recvDeferredFin
      if content.flatten.length > s.recvDeferredOffset then
        s.deliverRegions o key fin content.flatten.length rearm 0 content
      else if fin && !s.finDelivered then (s.note (.offered [] true)).push (.bareFin rearm)
      else s.deliverEnd o false rearm
    | _, _ => s.dropDeferred.rearmReceive rearm

/-- The answer of the engine to an offer. -/
def engineTook (buf : Bytes) (fin : Bool) (s : Stream) : Stream :=
  let s := s.note (.taken (buf.take o.consumed) (fin && o.rc == Rc.ok))
  if o.rc ≠ .ok ∧ o.rc ≠ .wouldBlock then s.note .refusedInput else s

/-- A region was offered. -/
def bytesTook (d : Delivery) (s : Stream) : Stream :=
  let last := d.off + d.buf.length == d.total
  let s := s.engineTook o (d.buf.drop d.skip) (d.fin && last)
  let s :=
    if s.recvDeferred && s.ectx = some d.key then
      { s with recvDeferredOffset := d.off + d.skip + o.consumed }
    else s
  if last && d.fin && o.rc == Rc.ok then { s with finDelivered := true } else s

/-- Behind `wtq_conn_on_stream_bytes_accounted` for a region. -/
def bytesReturned (d : Delivery) (s : Stream) : Stream :=
  if o.rc = .ok then
    (s.bytesTook o d).deliverRegions o d.key d.fin d.total d.rearm (d.off + d.buf.length) d.rest
  else (s.bytesTook o d).deliverEnd o (o.rc == Rc.wouldBlock) d.rearm

/-- Behind `wtq_conn_on_stream_bytes_accounted` for a FIN alone. -/
def bareFinReturned (rearm : Bool) (s : Stream) : Stream :=
  let s := s.engineTook o [] true
  { s with finDelivered := o.rc == Rc.ok }.deliverEnd o (o.rc == Rc.wouldBlock) rearm

/-- `ds_receive_completed`, with `cancelled` as `ds_arm_receive` passes it. -/
def receiveCompleted (content : Option (List Bytes)) (fin errored : Bool) (s : Stream) : Stream :=
  let s := { s with recvPending := false }
  if s.cancelIssued then s.note .flushed
  else
    let s := s.note (.completed (content.getD []).flatten fin errored)
    let s := if fin || errored then { s with recvEnded := true } else s
    if content.isSome || fin then
      if s.recvDeferred then (s.note .overflow).opConnClose
      else
        let s := { s with
          recvDeferred := true, recvDeferredFin := fin, recvDeferredErrored := errored,
          recvDeferredData := if content.isSome then content else s.recvDeferredData }
        if !s.recvEnabled then s else s.deliverBytes o (!errored && !fin)
    else s.rearmReceive (!errored && !fin)

/-- `op_recv_enable`. -/
def opRecvEnable (enabled : Bool) (s : Stream) : Rc × Stream :=
  if s.terminal || s.failedSeen || s.cancelIssued || s.cancelDeferred || !s.conn then (.closed, s)
  else if s.recvEnded && (!s.recvDeferred || enabled && s.recvDelivering) then (.state, s)
  else
    let s := { s with recvEnabled := enabled }.note (.enabled enabled)
    if !enabled || s.recvDelivering then (.ok, s)
    else if s.recvDeferred then
      let rearm := !(s.recvDeferredErrored || s.recvDeferredFin)
      if !s.terminal && s.ectx.isSome then (.ok, s.deliverBytes o rearm)
      else (.ok, s.rearmReceive rearm)
    else (.ok, s.armReceive)

/-! ## The send chain -/

/-- `ds_drop_pending_sends`. -/
def dropPendingSends (s : Stream) : Stream := { s with pendingSends := [] }

/-- The loop of `ds_pump_sends`. -/
structure Pumped where
  recs : List Slot := []
  all : Bytes := []
  fin : Bool := false
  /-- How many concatenations were tried. -/
  tried : Nat := 0
  concatFailed : Bool := false
  deriving DecidableEq, Repr

/-- One entry of the queue joins the batch. -/
def Pumped.add (b : Pumped) (p : PendingSend) : Pumped :=
  let b :=
    match p.d with
    | some d =>
      if b.concatFailed then b
      else if o.oom = some b.tried then { b with tried := b.tried + 1, concatFailed := true }
      else { b with tried := b.tried + 1, all := b.all ++ d }
    | none => b
  let b := if p.fin then { b with fin := true } else b
  match p.record with
  | some r => if b.concatFailed then b else { b with recs := b.recs ++ [r] }
  | none => b

def pumpLoop : List PendingSend → Pumped → Pumped × List PendingSend
  | [], b => (b, [])
  | p :: ps, b => if b.recs.length < sendRecords then pumpLoop ps (b.add o p) else (b, p :: ps)

/-- Write the records of a batch. -/
def modRecs (rs : List Slot) (f : SendRec → SendRec) (s : Stream) : Stream :=
  { s with recs := fun r => if r ∈ rs then f (s.recs r) else s.recs r }

def modRec (r : Slot) (f : SendRec → SendRec) (s : Stream) : Stream :=
  { s with recs := Function.update s.recs r (f (s.recs r)) }

/-- The transport takes the records of a batch. -/
def holdRecs (rs : List Slot) (s : Stream) : Stream :=
  { s.modRecs rs (fun e => { e with transportDone := false }) with
    recsUnretired := s.recsUnretired + rs.length }

/-- The transport gives the records of a batch back. -/
def retireRecs (rs : List Slot) (s : Stream) : Stream :=
  { s.modRecs rs (fun e => { e with transportDone := true }) with
    recsUnretired := s.recsUnretired - rs.length }

/-- `ds_pump_sends`. -/
def pumpSends (s : Stream) : Stream :=
  if s.sendInflight || !s.readyProcessed || s.terminal || s.cancelIssued || !s.conn then s
  else if s.pendingSends = [] then s
  else
    let b := (pumpLoop o s.pendingSends {}).1
    let s := { s.holdRecs b.recs with pendingSends := (pumpLoop o s.pendingSends {}).2 }
    if b.concatFailed then (s.retireRecs b.recs).dropPendingSends.opConnClose
    else
      { s with
        sendInflight := true, batchesLive := s.batchesLive + 1,
        batches := s.batches ++ [({ id := s.nextBatch, recs := b.recs } : Batch)],
        nextBatch := s.nextBatch + 1 }.note (.issued s.nextBatch b.all b.fin)

/-- `ds_enqueue_send` behind its allocations. -/
def enqueueSend (d : Option Bytes) (fin : Bool) (record : Option Slot) (s : Stream) : Stream :=
  { s with
    pendingSends := s.pendingSends ++ [{ d, fin, record, send := s.nextSend }]
    nextSend := s.nextSend + 1 }

/-- `op_send`. -/
def opSend (data : Bytes) (fin alloc : Bool) (s : Stream) : Rc × Stream :=
  if s.terminal || s.cancelIssued || !s.conn then (.closed, s)
  else if !alloc then (.nomem, s)
  else
    let d := if data ≠ [] then some data else none
    (.ok, ((s.note (.accepted s.nextSend data fin none)).enqueueSend d fin none).pumpSends o)

/-- The first record that is not in use. -/
def freeSlot (s : Stream) : Option Slot := (List.finRange sendRecords).find? fun r => !(s.recs r).inUse

/-- `size_t` addition and subtraction. -/
def sizeAdd (a b : Nat) : Nat := (a + b) % sizeMod

def sizeSub (a b : Nat) : Nat := (a + sizeMod - b) % sizeMod

/-- A record is filled for a gather send. -/
def reserve (r : Slot) (cookie bytes : Nat) (s : Stream) : Stream :=
  { s.modRec r (fun _ =>
      { inUse := true, appDone := false, transportDone := true, cookie, bytes,
        send := s.nextSend }) with
    inflightBytes := sizeAdd s.inflightBytes bytes
    recsAppPending := s.recsAppPending + 1 }

/-- A gather send was not accepted after all. -/
def unreserve (r : Slot) (bytes : Nat) (s : Stream) : Stream :=
  { s.modRec r (fun e => { e with inUse := false }) with
    inflightBytes := sizeSub s.inflightBytes bytes
    recsAppPending := s.recsAppPending - 1 }

/-- A gather send goes without a record or over the window. -/
def block (cookie : Nat) (s : Stream) : Stream :=
  { s with sendBlocked := true }.note (.refused cookie .wouldBlock)

/-- The bytes of a gather send, as `op_send_gather` adds them up. -/
def gatherBytes (spans : List Bytes) : Nat := (spans.map List.length).sum % sizeMod

/-- `op_send_gather` behind its window check. -/
def gatherAt (r : Slot) (spans : List Bytes) (fin : Bool) (cookie : Nat) (alloc : Alloc)
    (s : Stream) : Rc × Stream :=
  match alloc with
  | .noData => (.nomem, s.note (.refused cookie .nomem))
  | .noEntry =>
    (.nomem, ((s.reserve r cookie (gatherBytes spans)).unreserve r (gatherBytes spans)).note
      (.refused cookie .nomem))
  | .ok =>
    let s := s.reserve r cookie (gatherBytes spans)
    (.ok, ((s.note (.accepted s.nextSend spans.flatten fin (some cookie))).enqueueSend
      (some spans.flatten) fin (some r)).pumpSends o)

/-- `op_send_gather`. -/
def opSendGather (spans : List Bytes) (fin : Bool) (cookie : Nat) (alloc : Alloc) (s : Stream) :
    Rc × Stream :=
  if s.terminal || s.cancelIssued || !s.conn then (.closed, s.note (.refused cookie .closed))
  else
    match s.freeSlot with
    | none => (.wouldBlock, s.block cookie)
    | some r =>
      if sizeAdd s.inflightBytes (gatherBytes spans) > sendBytesMax then
        (.wouldBlock, s.block cookie)
      else s.gatherAt o r spans fin cookie alloc

/-! ## Completions -/

/-- A record that both references dropped is free. -/
def freeIfDone (r : Slot) (s : Stream) : Stream :=
  if (s.recs r).transportDone && (s.recs r).appDone then s.modRec r fun e => { e with inUse := false }
  else s

/-- `edge` in `rec_app_complete`. -/
def edge (s : Stream) : Bool := s.sendBlocked && !s.terminal && !s.cancelIssued

/-- The application is done with a record. -/
def settle (r : Slot) (s : Stream) : Stream :=
  { s.modRec r (fun e => { e with appDone := true }) with
    recsAppPending := s.recsAppPending - 1
    inflightBytes := sizeSub s.inflightBytes (s.recs r).bytes }

/-- `rec_app_complete` up to the engine. -/
def appComplete (r : Slot) (s : Stream) : Stream :=
  if s.edge then { s.settle r with sendBlocked := false } else s.settle r

/-- The live batches, with a phase of one of them done. -/
def phased (id : Nat) (f : Batch → Batch) (s : Stream) : List Batch :=
  s.batches.map fun b : Batch =>
    if b.id = id then { f b with phasesDone := b.phasesDone + 1 } else b

/-- A batch is through one of its phases; behind both it is freed. -/
def phaseDone (id : Nat) (f : Batch → Batch) (s : Stream) : Stream :=
  if (s.phased id f).any fun b : Batch => b.id == id && b.phasesDone == 2 then
    { s with batches := (s.phased id f).filter (·.id ≠ id), batchesLive := s.batchesLive - 1 }
  else { s with batches := s.phased id f }

/-- The end of `batch_on_complete`. -/
def batchCompleteEnd (id : Nat) (s : Stream) : Stream :=
  let s := (s.phaseDone id fun b => { b with completed := true }).pumpSends o
  if o.flushed then s.opConnClose else s

/-- What follows a sweep. -/
def sweepEnd (after : AfterSweep) (s : Stream) : Stream :=
  match after with
  | .failed => if s.cancelIssued then s else s.cancel
  | .cancelled =>
    let s := { s with terminal := true }.note .terminal
    if s.ectx.isSome && s.session then s.push .streamTerminal else s
  | .groupTerminal => s.push .otherStreams

def completingEnd (k : Completing) (s : Stream) : Stream :=
  match k with
  | .batch id _ _ => s.batchCompleteEnd o id
  | .sweep _ after => s.sweepEnd after

/-- The loops of `batch_on_complete` and `ds_synthesize_completions`, up to the next call. -/
def completeRecs (k : Completing) : List Slot → Stream → Stream
  | [], s => s.completingEnd o k
  | r :: rest, s =>
    if k.takes (s.recs r) then
      let edge := s.edge
      let s := s.appComplete r
      if s.session then
        (s.note (.sendComplete (s.recs r).send (s.recs r).cookie k.canceled)).push
          (.sendComplete r edge (k.withRest rest))
      else completeRecs k rest (s.freeIfDone r)
    else completeRecs k rest (s.freeIfDone r)

/-- `ds_synthesize_completions`. -/
def synthesize (after : AfterSweep) (s : Stream) : Stream :=
  s.completeRecs o (.sweep [] after) (List.finRange sendRecords)

/-- The rest of a loop behind a record. -/
def recReturned (r : Slot) (k : Completing) (s : Stream) : Stream :=
  ((s.leaveAndPoll o).freeIfDone r).completeRecs o k k.rest

/-- Behind `wtq_conn_on_send_complete`. -/
def sendCompleteReturned (r : Slot) (edge : Bool) (k : Completing) (s : Stream) : Stream :=
  if edge && s.ectx.isSome then (s.note .writable).push (.writable r k) else s.recReturned o r k

/-- `batch_on_complete`. -/
def batchOnComplete (b : Batch) (canceled : Bool) (s : Stream) : Stream :=
  ({ s with sendInflight := false }.note (.transportCompleted b.id)).completeRecs o
    (.batch b.id canceled []) b.recs

/-- The records that only the transport still held. -/
def appDoneRecs (rs : List Slot) (s : Stream) : List Slot := rs.filter fun r => (s.recs r).appDone

/-- `batch_on_retire` up to the engine. -/
def batchRetired (b : Batch) (s : Stream) : Stream :=
  ((s.retireRecs b.recs).modRecs (s.appDoneRecs b.recs) fun e => { e with inUse := false }).phaseDone
    b.id fun c => { c with retired := true }

/-- `batch_on_retire`. -/
def batchOnRetire (b : Batch) (s : Stream) : Stream :=
  if s.appDoneRecs b.recs ≠ [] && s.edge && s.ectx.isSome && s.session then
    ({ s.batchRetired b with sendBlocked := false }.note .writable).push .retireWritable
  else s.batchRetired b

/-! ## The end of a stream -/

/-- `ds_handle_failure` behind its report. -/
def failureReported (after : AfterSweep) (s : Stream) : Stream :=
  s.dropPendingSends.synthesize o after

/-- `ds_handle_failure`. -/
def handleFailure (after : AfterSweep) (s : Stream) : Stream :=
  let s := s.dropDeferred
  if s.ectx.isSome && s.session && !s.resetDelivered && !s.finDelivered && !s.cancelIssued then
    ({ s with resetDelivered := true }.note .reset).push (.reset after)
  else s.failureReported o after

/-- The state `failed`. -/
def stateFailed (s : Stream) : Stream :=
  if s.failedSeen then s else ({ s with failedSeen := true }.note .failed).handleFailure o .failed

/-- The state `cancelled`. -/
def stateCancelled (s : Stream) : Stream :=
  if s.failedSeen then s.sweepEnd .cancelled
  else ({ s with failedSeen := true }.note .failed).handleFailure o .cancelled

/-- `group_handle_terminal`, at this stream. -/
def groupHandleTerminal (s : Stream) : Stream :=
  if s.groupTerminal then s
  else
    let s := { s with groupTerminal := true }
    let s := if s.conn && !s.terminal && !s.cancelIssued then s.cancel else s
    s.synthesize o .groupTerminal

/-- `op_shutdown_stream`. -/
def opShutdownStream (s : Stream) : Rc × Stream :=
  if s.terminal || !s.conn then (.closed, s)
  else if s.cancelIssued || s.cancelDeferred then (.ok, s)
  else
    let s := (s.note .shutdown).dropDeferred
    if !s.readyProcessed then (.ok, { s with cancelDeferred := true }) else (.ok, s.cancel)

/-- `op_detach`. -/
def opDetach (es : Nat) (s : Stream) : Stream :=
  if s.ectx = some es then { s with ectx := none }.note .detached else s

/-! ## The start of a stream -/

/-- `ds_ready_process`. -/
def readyProcess (id : Nat) (s : Stream) : Stream :=
  let s := { s with readyProcessed := true }
  if s.cancelDeferred && !s.cancelIssued then
    { s with cancelDeferred := false }.dropPendingSends.cancel
  else if s.isLocal then
    if s.ectx.isSome && s.session then s.push .nativeId else s.rearmReceive s.isBidi
  else if id % 2 = 0 then { s with hidden := true }
  else
    let s := { s with isBidi := id / 2 % 2 = 0 }
    if !s.session then s else s.push .peerOpened

/-- Behind `wtq_conn_on_stream_native_id`. -/
def nativeIdReturned (s : Stream) : Stream := (s.leaveAndPoll o).rearmReceive s.isBidi

/-- Behind `wtq_conn_on_peer_bidi_opened` or `wtq_conn_on_peer_uni_opened`. -/
def peerOpenedReturned (s : Stream) : Stream :=
  let s :=
    match o.ctx with
    | some es => { s with ectx := some es }
    | none => if !s.cancelIssued && !s.terminal && s.conn then s.cancel else s
  let s := s.leaveAndPoll o
  s.rearmReceive s.ectx.isSome

/-- The state `ready`, with the native id if the metadata is there. -/
def stateReady (id : Option Nat) (s : Stream) : Stream :=
  if s.readySeen then s
  else
    let s := { s with readySeen := true }
    match id with
    | some id => s.readyProcess id
    | none => { s with readyRecheckPending := true }

/-- `ds_ready_recheck`. -/
def readyRecheck (id : Option Nat) (s : Stream) : Stream :=
  let s := { s with readyRecheckPending := false }
  if s.terminal || s.failedSeen || s.cancelIssued || !s.conn then s
  else
    match id with
    | some id => s.readyProcess id
    | none => s.opConnClose

/-- `ds_reap_eligible`. -/
def reapEligible (s : Stream) : Bool :=
  s.terminal && !s.recvPending && !s.readyRecheckPending && s.recsUnretired == 0 &&
    s.recsAppPending == 0 && s.batchesLive == 0

/-- `ds_reap_phase2`, while the structure stays. -/
def reapPhase2 (s : Stream) : Stream := { s.dropDeferred with conn := false }

/-! ## Streams -/

/-- A stream of `op_open_uni`; the engine's own streams have no context. -/
def openUni (ectx : Option Nat) : Stream where
  ectx := ectx
  isLocal := true
  isBidi := false

/-- A stream of `op_open_bidi`. -/
def openBidi (ectx : Nat) : Stream where
  ectx := some ectx
  isLocal := true
  isBidi := true

/-- A stream of `adopt_inbound`. -/
def adopt (shutdownStarted rundown : Bool) : Stream :=
  let s : Stream := { shutdownStarted, ectx := none, isLocal := false, isBidi := false }
  if shutdownStarted || rundown then s.cancel else s

/-- What the backend does when a call into the engine returns. -/
def frameReturned (f : Frame) (s : Stream) : Stream :=
  match f with
  | .bytes d => s.bytesReturned o d
  | .bareFin rearm => s.bareFinReturned o rearm
  | .reset after => (s.leaveAndPoll o).failureReported o after
  | .streamTerminal => s.leaveAndPoll o
  | .nativeId => s.nativeIdReturned o
  | .peerOpened => s.peerOpenedReturned o
  | .sendComplete r edge k => s.sendCompleteReturned o r edge k
  | .writable r k => s.recReturned o r k
  | .retireWritable => s.leaveAndPoll o
  | .otherStreams => if s.session then s.push .connClosed else s
  | .connClosed => { s with session := false }.note .sessionGone

def apply (e : Event) (s : Stream) : Stream :=
  match e with
  | .ready id => s.stateReady id
  | .recheck id => s.readyRecheck id
  | .failed => s.stateFailed o
  | .cancelled => s.stateCancelled o
  | .groupTerminal => s.groupHandleTerminal o
  | .received content fin errored => s.receiveCompleted o content fin errored
  | .batchCompleted b canceled => s.batchOnComplete o b canceled
  | .batchRetired b => s.batchOnRetire b
  | .pump => s.pumpSends o
  | .reap => s.reapPhase2
  | .sessionGone => { s with session := false }.note .sessionGone
  | .send data fin alloc => (s.opSend o data fin alloc).2
  | .sendGather spans fin cookie alloc => (s.opSendGather o spans fin cookie alloc).2
  | .shutdown => s.opShutdownStream.2
  | .recvEnable enabled => (s.opRecvEnable o enabled).2
  | .detach es => s.opDetach es
  | .connClose => s.opConnClose
  | .returned =>
    match s.frames with
    | f :: frames => { s with frames }.frameReturned o f
    | [] => s

/-- The input of the engine that a frame stands for: what it was offered. -/
def Frame.offer : Frame → Option Bytes
  | .bytes d => some (d.buf.drop d.skip)
  | .bareFin _ => some []
  | _ => none

/-- How `wtq_conn_on_stream_bytes_accounted` may answer: `OK` takes all, and an error comes after
the connection was closed or the stream was detached. -/
def Answers (buf : Bytes) (s : Stream) : Prop :=
  o.consumed ≤ buf.length ∧ (o.rc = .ok → o.consumed = buf.length) ∧
    (o.rc ≠ .ok → o.rc ≠ .wouldBlock → s.shutdownStarted ∨ s.ectx = none)

/-- When an event can occur. The domain runs one callback of the transport at a time. -/
def Allowed (e : Event) (s : Stream) : Prop :=
  match e with
  | .ready _ | .failed | .cancelled => s.frames = [] ∧ s.terminal = false
  | .recheck _ => s.frames = [] ∧ s.readyRecheckPending = true
  -- Behind `cancelled` only the flush of a local cancel can come. Before its ready processing a
  -- stream has sent nothing that a peer could answer.
  | .received content fin _ =>
    s.frames = [] ∧ s.recvPending = true ∧ (s.terminal → s.cancelIssued) ∧
      (s.readyProcessed = false → content = none ∧ fin = false)
  | .batchCompleted b _ => s.frames = [] ∧ b ∈ s.batches ∧ b.completed = false
  | .batchRetired b => s.frames = [] ∧ b ∈ s.batches ∧ b.retired = false
  | .groupTerminal | .pump => s.frames = []
  | .reap => s.frames = [] ∧ s.reapEligible = true
  | .sessionGone => s.frames = [] ∧ s.session = true
  | .send _ _ _ | .sendGather _ _ _ _ | .shutdown | .detach _ => s.session = true
  | .recvEnable _ => s.session = true ∧ s.ectx.isSome
  | .connClose => True
  | .returned => ∃ f, s.frames.head? = some f ∧ ∀ buf ∈ f.offer, s.Answers o buf

end Stream

end Wtquic.Network
