-- SUMMARY: MsQuic backend: the send side of streams, its flush bookkeeping, and the local flush probe.
import Mathlib.Logic.Function.Basic
import Wtquic.Engine.Types

namespace Wtquic.Msquic

open Engine (Rc Shutdown)

/-! # Local flush

The send half of `msq_stream.c` and `msq_conn.c`, with the flush functions of
`msq_internal.h`. MsQuic may call back from inside `StreamSend` and `StreamShutdown`, so a
function that goes on after such a call is an event that starts it, and a frame that waits
for the event of its return. -/

/-- `UINT64_MAX` and `SIZE_MAX`. -/
def wordMax : Nat := 2 ^ 64 - 1

/-- The decrement of a `size_t`. -/
def sizeDec (n : Nat) : Nat := if n = 0 then wordMax else n - 1

/-- `WTQ_MSQ_SEND_BUDGET_MIN`. -/
def sendBudgetMin : Nat := 1024 * 1024

/-! ## Data -/

/-- A send record while MsQuic borrows it: `struct wtq_msq_send_hdr` and, of a gather
record, its byte count and cookie. `id` names the record. -/
structure SendRec where
  id : Nat
  ds : Nat
  gather : Bool
  flushBytes : Bool
  flushFin : Bool
  flushEpoch : Nat
  bytes : Nat := 0
  cookie : Nat := 0
  deriving DecidableEq, Repr

/-- `struct wtq_msq_flush_decision`, less the link to the previous one. -/
structure Decision where
  loss : Bool := false
  shutdownComplete : Bool := false
  deriving DecidableEq, Repr

/-- The send half of `struct wtq_dstream`. `stream` and `ectx` say that the pointer is not
null; `flushDecision` is the chain of decisions, the innermost first. -/
structure Dstream where
  stream : Bool := true
  ectx : Bool := true
  localCritical : Bool := false
  isLocal : Bool := false
  isBidi : Bool := false
  pooled : Bool := true
  collected : Bool := false
  sendRefs : Nat := 0
  flushSends : Nat := 0
  flushFin : Bool := false
  flushRequiredSends : Nat := 0
  flushEpoch : Nat := 0
  flushWtData : Bool := false
  flushSettling : Bool := false
  flushAbortComplete : Bool := false
  flushShutdownPending : Bool := false
  flushShutdownGraceful : Bool := false
  flushOutputCanceled : Bool := false
  flushDecision : List Decision := []
  shutdownComplete : Bool := false
  inflightBytes : Nat := 0
  idealSend : Nat := 0
  sendBlocked : Bool := false
  deriving DecidableEq, Repr

/-- What is left to do when a call into MsQuic or the engine returns. -/
inductive Frame where
  /-- `op_shutdown_stream` behind its `StreamShutdown` -/
  | shutdown (ds : Nat) (req : Shutdown) (intent : Bool)
  /-- `op_send_gather` behind its `StreamSend` -/
  | sent (ds : Nat)
  /-- a completed gather send behind `wtq_conn_on_send_complete` -/
  | writable (ds : Nat)
  /-- a completed send behind all of its reports -/
  | flushed
  deriving DecidableEq, Repr

/-- How an application cancellation ended. -/
inductive Outcome where
  | accepted | refused | partialShutdown
  deriving DecidableEq, Repr

/-- One entry of the history: what MsQuic accepted, returned and reported, and which
cancellations were begun and decided. -/
inductive Fact where
  | sent (r : SendRec)
  | fin (ds : Nat)
  | returned (r : SendRec) (canceled : Bool)
  | began (ds : Nat)
  | decided (ds : Nat) (o : Outcome)
  | aborted (ds : Nat)
  | stopped (ds : Nat) (wt : Bool)
  | sendDone (ds : Nat) (graceful : Bool)
  | gone (ds : Nat)
  deriving DecidableEq, Repr

/-- What the backend feeds into the engine. -/
inductive Report where
  | sendComplete (cookie : Nat) (canceled : Bool)
  | writable (ds : Nat)
  | stopSending (ds : Nat)
  | sendShutdown (ds : Nat) (graceful : Bool)
  deriving DecidableEq, Repr

/-- The send half of `struct wtq_driver`. A stream is named by a serial number; `borrowed`
are the records MsQuic holds, `frames` the calls in progress, the innermost first. No
function reads `log` or `reports`. -/
structure Driver where
  stream : Nat → Dstream := fun _ => {}
  nextDs : Nat := 0
  nextRec : Nat := 0
  borrowed : List SendRec := []
  frames : List Frame := []
  session : Bool := true
  localFlushFailed : Bool := false
  pendingSends : Nat := 0
  flushSends : Nat := 0
  flushFins : Nat := 0
  flushSettlements : Nat := 0
  flushDecisions : Nat := 0
  flushFailed : Bool := false
  shutdownStarted : Bool := false
  shutdownWhenFlushed : Bool := false
  log : List Fact := []
  reports : List Report := []

namespace Driver

/-- Write fields of stream `s`. -/
def modDs (s : Nat) (f : Dstream → Dstream) (d : Driver) : Driver :=
  { d with stream := Function.update d.stream s (f (d.stream s)) }

def record (f : Fact) (d : Driver) : Driver := { d with log := f :: d.log }

def push (f : Frame) (d : Driver) : Driver := { d with frames := f :: d.frames }

/-- Feed the engine, when a session is there. -/
def report (r : Report) (d : Driver) : Driver :=
  if d.session then { d with reports := r :: d.reports } else d

/-- Feed the engine for a stream that is still attached. -/
def reportFor (s : Nat) (r : Report) (d : Driver) : Driver :=
  if (d.stream s).ectx then d.report r else d

/-! ## Flush bookkeeping -/

/-- `wtq_msq_flush_begin`. -/
def flushBegin (s : Nat) (bytes fin : Bool) (d : Driver) : Bool × Driver :=
  let d :=
    if bytes then
      { d.modDs s fun e => { e with
          flushSends := e.flushSends + 1, flushRequiredSends := e.flushRequiredSends + 1 }
        with flushSends := d.flushSends + 1 }
    else d
  if fin && !(d.stream s).flushFin then
    (true, { d.modDs s fun e => { e with flushFin := true } with flushFins := d.flushFins + 1 })
  else (false, d)

/-- `ds->flush_fin = false; ds->drv->flush_fins--`, when a FIN is there. -/
def dropFin (s : Nat) (d : Driver) : Driver :=
  if (d.stream s).flushFin then
    { d.modDs s fun e => { e with flushFin := false } with flushFins := sizeDec d.flushFins }
  else d

/-- `wtq_msq_flush_rollback`. -/
def flushRollback (s : Nat) (bytes newFin : Bool) (d : Driver) : Driver :=
  let d :=
    if bytes then
      { d.modDs s fun e => { e with
          flushSends := sizeDec e.flushSends
          flushRequiredSends := sizeDec e.flushRequiredSends }
        with flushSends := sizeDec d.flushSends }
    else d
  if newFin then
    { d.modDs s fun e => { e with flushFin := false } with flushFins := sizeDec d.flushFins }
  else d

/-- `wtq_msq_flush_fail`. -/
def flushFail (d : Driver) : Driver :=
  { d with flushFailed := true, localFlushFailed := d.localFlushFailed || d.session }

/-- `wtq_msq_flush_pending`. -/
def flushPending (d : Driver) : Bool :=
  d.flushSends != 0 || d.flushFins != 0 || d.flushSettlements != 0 || d.flushDecisions != 0

/-- `if (wtq_msq_flush_pending(drv)) wtq_msq_flush_fail(drv)`. -/
def failPending (d : Driver) : Driver := if d.flushPending then d.flushFail else d

/-- `wtq_msq_flush_discard`. -/
def flushDiscard (s : Nat) (d : Driver) : Driver :=
  let e := d.stream s
  let d :=
    if e.flushRequiredSends ≠ 0 ∨ e.flushFin ∨ e.flushSettling ∨ e.flushDecision ≠ [] then
      d.flushFail
    else d
  d.dropFin s

/-- `wtq_msq_flush_is_wt`; `answer` is what `wtq_estream_is_wt_data_v1` says. -/
def flushIsWt (e : Dstream) (answer : Bool) : Bool :=
  !e.localCritical && (e.isLocal || e.isBidi) && (e.flushWtData || answer)

/-- `wtq_msq_flush_settle`. -/
def flushSettle (s : Nat) (d : Driver) : Driver :=
  let e := d.stream s
  if e.flushSettling ∧ e.flushAbortComplete ∧ e.sendRefs = 0 ∧ e.flushDecision = [] then
    { d.modDs s fun e => { e with flushSettling := false }
      with flushSettlements := sizeDec d.flushSettlements }
  else d

/-- `if (!ds->flush_settling) ..` of `wtq_msq_flush_withdraw`. -/
def startSettling (s : Nat) (d : Driver) : Driver :=
  if (d.stream s).flushSettling then d
  else
    { d.modDs s fun e => { e with flushSettling := true }
      with flushSettlements := d.flushSettlements + 1 }

/-- `wtq_msq_flush_withdraw`. -/
def flushWithdraw (s : Nat) (d : Driver) : Driver :=
  if (d.stream s).flushEpoch = wordMax then d.flushFail
  else
    let d := d.modDs s fun e => { e with flushEpoch := e.flushEpoch + 1, flushRequiredSends := 0 }
    ((d.dropFin s).startSettling s).flushSettle s

/-- `wtq_msq_flush_cancel_loss`. -/
def flushCancelLoss (s : Nat) (d : Driver) : Driver :=
  match (d.stream s).flushDecision with
  | [] => d.flushFail
  | p :: ps => d.modDs s fun e => { e with flushDecision := { p with loss := true } :: ps }

/-- The byte half of `wtq_msq_flush_complete`. -/
def completeBytes (r : SendRec) (required : Bool) (d : Driver) : Driver :=
  if r.flushBytes then
    { d.modDs r.ds fun e => { e with
        flushSends := sizeDec e.flushSends
        flushRequiredSends :=
          if required then sizeDec e.flushRequiredSends else e.flushRequiredSends }
      with flushSends := sizeDec d.flushSends }
  else d

/-- `wtq_msq_flush_complete`. -/
def flushComplete (r : SendRec) (canceled : Bool) (d : Driver) : Driver :=
  let output := r.flushBytes || r.flushFin
  let d :=
    if canceled && output then d.modDs r.ds fun e => { e with flushOutputCanceled := true } else d
  let required := r.flushEpoch == (d.stream r.ds).flushEpoch
  let d :=
    if canceled && required && output then
      let d := d.flushCancelLoss r.ds
      if r.flushFin then d.dropFin r.ds else d
    else d
  d.completeBytes r required

/-- `local_flush_probe`. -/
def localFlushProbe (d : Driver) : Rc :=
  if d.flushFailed then .backend
  else if d.shutdownStarted then .closed
  else if d.flushPending then .wouldBlock
  else .ok

/-! ## Driver operations -/

/-- The submission shared by the two sends: the record is published first, and withdrawn
again when MsQuic refuses it. -/
def submit (r : SendRec) (accepted : Bool) (d : Driver) : Driver :=
  let s := r.ds
  let d := { d.modDs s fun e => { e with sendRefs := e.sendRefs + 1 }
    with pendingSends := d.pendingSends + 1 }
  let (newFin, d) := d.flushBegin s r.flushBytes r.flushFin
  if accepted then { d with nextRec := d.nextRec + 1, borrowed := r :: d.borrowed }.record (.sent r)
  else
    { d.modDs s fun e => { e with sendRefs := sizeDec e.sendRefs }
      with pendingSends := sizeDec d.pendingSends }.flushRollback s r.flushBytes newFin

/-- `op_send`; `alloc` and `accepted` are the answers of the allocator and of MsQuic. -/
def opSend (s len : Nat) (fin alloc accepted : Bool) (d : Driver) : Rc × Driver :=
  if d.shutdownStarted || !(d.stream s).stream then (.closed, d)
  else if len = 0 ∧ !fin then (.ok, d)
  else if len = 0 then
    let (newFin, d) := d.flushBegin s false true
    if accepted then (.ok, d.record (.fin s)) else (.backend, d.flushRollback s false newFin)
  else if !alloc then (.nomem, d)
  else
    let r : SendRec :=
      { id := d.nextRec, ds := s, gather := false, flushBytes := true, flushFin := fin
        flushEpoch := (d.stream s).flushEpoch }
    (if accepted then .ok else .backend, d.submit r accepted)

/-- `op_send_gather`, up to the return of an accepted `StreamSend`. -/
def opSendGather (s : Nat) (spans : List Nat) (fin : Bool) (cookie : Nat)
    (alloc accepted : Bool) (d : Driver) : Rc × Driver :=
  let e := d.stream s
  if d.shutdownStarted || !e.stream then (.closed, d)
  else if spans.length > 2 ^ 32 - 1 ∨ spans.any (· > 2 ^ 32 - 1) then (.tooLarge, d)
  else
    let total := spans.sum
    let ceiling := max e.idealSend sendBudgetMin
    if total ≠ 0 ∧ e.inflightBytes ≠ 0
        ∧ (e.inflightBytes ≥ ceiling ∨ total > ceiling - e.inflightBytes) then
      (.wouldBlock, d.modDs s fun e => { e with sendBlocked := true })
    else if !alloc then (.nomem, d)
    else
      let r : SendRec :=
        { id := d.nextRec, ds := s, gather := true, flushBytes := total != 0, flushFin := fin
          flushEpoch := e.flushEpoch, bytes := total, cookie }
      if accepted then
        (.ok, ((d.modDs s fun e => { e with inflightBytes := e.inflightBytes + total }).submit r
          true).push (.sent s))
      else (.backend, d.submit r false)

/-- `op_shutdown_stream` up to its `StreamShutdown`; `answer` as in `flushIsWt`. -/
def opShutdownStream (s : Nat) (req : Shutdown) (answer : Bool) (d : Driver) : Rc × Driver :=
  if d.shutdownStarted || !(d.stream s).stream then (.closed, d)
  else
    let intent := req.abortSend && req.appSendCancel && flushIsWt (d.stream s) answer
    let d :=
      if intent then
        { d.modDs s fun e => { e with flushDecision := {} :: e.flushDecision }
          with flushDecisions := d.flushDecisions + 1 }.record (.began s)
      else d
    (.ok, d.push (.shutdown s req intent))

/-- The statuses of the one or two `StreamShutdown` calls as a result, and whether the send
half was accepted. -/
def shutdownResult (req : Shutdown) (first second : Bool) : Bool × Bool :=
  if req.abortSend ∧ req.abortRecv ∧ req.sendErr ≠ req.recvErr then
    if !first then (false, false) else (second, true)
  else if first then (true, req.abortSend) else (false, false)

/-- The decision of `op_shutdown_stream` on an application cancellation. -/
def decide (s : Nat) (ok sendAccepted : Bool) (d : Driver) : Driver :=
  match (d.stream s).flushDecision with
  | [] => d
  | decision :: previous =>
    let d := { d.modDs s fun e => { e with flushDecision := previous }
      with flushDecisions := sizeDec d.flushDecisions }
    if ok then
      let d :=
        if decision.shutdownComplete then d.modDs s fun e => { e with flushAbortComplete := true }
        else d
      (d.flushWithdraw s).record (.decided s .accepted)
    else if sendAccepted then d.flushFail.record (.decided s .partialShutdown)
    else (if decision.loss then d.flushCancelLoss s else d).record (.decided s .refused)

/-- `resolve:` of `op_shutdown_stream`. -/
def resolve (s : Nat) (intent ok sendAccepted : Bool) (d : Driver) : Driver :=
  let d :=
    if intent then d.decide s ok sendAccepted
    else if sendAccepted then (d.flushDiscard s).record (.aborted s)
    else d
  d.flushSettle s

/-! ## Stream events -/

/-- `wtq_msq_stream_writable_check`. -/
def writableCheck (s : Nat) (d : Driver) : Driver :=
  let e := d.stream s
  if !e.sendBlocked || !d.session || !e.ectx || !e.stream then d
  else (d.modDs s fun e => { e with sendBlocked := false }).report (.writable s)

/-- `PEER_RECEIVE_ABORTED`. -/
def peerReceiveAborted (s : Nat) (answer : Bool) (d : Driver) : Driver :=
  let wt := flushIsWt (d.stream s) answer
  let d := (if wt then d.flushWithdraw s else d.flushDiscard s).record (.stopped s wt)
  if (d.stream s).localCritical && !d.shutdownStarted then d
  else d.reportFor s (.stopSending s)

/-- The first half of `SEND_SHUTDOWN_COMPLETE`: is a FIN met, or output lost? -/
def sendShutdownObligations (s : Nat) (graceful : Bool) (d : Driver) : Driver :=
  let e := d.stream s
  if graceful then d.dropFin s
  else if e.flushRequiredSends ≠ 0 ∨ e.flushFin then (d.flushCancelLoss s).dropFin s
  else d

/-- The evidence `SEND_SHUTDOWN_COMPLETE` gives to the decisions in progress, and to a
withdrawal that is being settled. -/
def sendShutdownEvidence (s : Nat) (d : Driver) : Driver :=
  let d := d.modDs s fun e => { e with
    flushDecision := e.flushDecision.map fun p => { p with shutdownComplete := true } }
  if (d.stream s).flushSettling then
    (d.modDs s fun e => { e with flushAbortComplete := true }).flushSettle s
  else d

/-- Does a graceful shutdown prove that all output was committed? -/
def committed (e : Dstream) (graceful : Bool) : Bool :=
  graceful && e.flushEpoch == 0 && !e.flushOutputCanceled

/-- `SEND_SHUTDOWN_COMPLETE`. -/
def sendShutdownComplete (s : Nat) (graceful : Bool) (d : Driver) : Driver :=
  let d := ((d.sendShutdownObligations s graceful).sendShutdownEvidence s).record
    (.sendDone s graceful)
  if (d.stream s).flushDecision ≠ [] then
    d.modDs s fun e => { e with flushShutdownPending := true, flushShutdownGraceful := graceful }
  else d.reportFor s (.sendShutdown s (committed (d.stream s) graceful))

/-- `SEND_COMPLETE` up to the report of a gather send. -/
def sendComplete (r : SendRec) (canceled : Bool) (d : Driver) : Driver :=
  let s := r.ds
  let d := (d.flushComplete r canceled).modDs s fun e => { e with sendRefs := sizeDec e.sendRefs }
  let d := { d.flushSettle s with
    borrowed := d.borrowed.erase r
    pendingSends := sizeDec d.pendingSends }.record (.returned r canceled)
  if r.gather then
    (((d.modDs s fun e => { e with inflightBytes := e.inflightBytes - r.bytes }).push .flushed).push
      (.writable s)).report (.sendComplete r.cookie canceled)
  else d.push .flushed

/-- `SHUTDOWN_COMPLETE`. -/
def streamShutdownComplete (s : Nat) (appClose : Bool) (d : Driver) : Driver :=
  let d := ((d.flushDiscard s).modDs s fun e => { e with
    shutdownComplete := true
    stream := e.stream && e.pooled && !appClose }).record (.gone s)
  if (d.stream s).isLocal && !(d.stream s).isBidi then
    d.reportFor s (.sendShutdown s false)
  else d

/-- The send-shutdown half of `stream_complete_terminals` for stream `s`. -/
def completeTerminal (s : Nat) (d : Driver) : Driver :=
  let e := d.stream s
  if e.flushShutdownPending ∧ e.flushDecision = [] then
    (d.modDs s fun e => { e with flushShutdownPending := false }).reportFor s
      (.sendShutdown s (committed e e.flushShutdownGraceful))
  else d

/-- May `stream_collect` retire stream `s`, as far as its send half goes? -/
def collectable (e : Dstream) : Bool :=
  e.shutdownComplete && !e.ectx && e.sendRefs == 0 && e.flushDecision == []
    && !e.flushShutdownPending

/-- The body of the loop of `stream_collect`. -/
def collect (s : Nat) (d : Driver) : Driver :=
  if collectable (d.stream s) then
    let d :=
      if (d.stream s).flushSettling then
        { d.flushFail.modDs s fun e => { e with flushSettling := false }
          with flushSettlements := sizeDec d.flushSettlements }
      else d
    d.modDs s fun e => { e with stream := false, collected := true }
  else d

/-- The last check of `SEND_COMPLETE`. -/
def flushedCheck (d : Driver) : Driver :=
  if d.pendingSends = 0 ∧ d.shutdownWhenFlushed ∧ !d.shutdownStarted then
    { d with shutdownStarted := true }
  else d

/-- `conn_shutdown`. -/
def connShutdown (d : Driver) : Driver :=
  if d.shutdownStarted then d else { d.failPending with shutdownStarted := true }

/-- `stream_initialize`, with the fields `op_open` sets. -/
def openStream (isLocal isBidi critical pooled attached : Bool) (d : Driver) : Driver :=
  { d with
    nextDs := d.nextDs + 1
    stream := Function.update d.stream d.nextDs
      { isLocal, isBidi, pooled, localCritical := critical, ectx := attached } }

/-- A peer stream gets its engine context. -/
def attach (s : Nat) : Driver → Driver := modDs s fun e => { e with ectx := true }

/-- `op_detach`. -/
def opDetach (s : Nat) (answer : Bool) (d : Driver) : Driver :=
  if (d.stream s).ectx then d.modDs s fun e => { e with flushWtData := answer, ectx := false } else d

/-! ## Events -/

/-- The return of the innermost call. -/
def resume (d : Driver) : Frame → Driver
  | .shutdown _ _ _ => d
  | .sent s => d.modDs s fun e => { e with sendBlocked := false }
  | .writable s => d.writableCheck s
  | .flushed => d.flushedCheck

end Driver

/-- What can happen to the send half of a connection. -/
inductive Event where
  | opened (isLocal isBidi critical pooled attached : Bool)
  | attached (ds : Nat)
  | detached (ds : Nat) (answer : Bool)
  | send (ds len : Nat) (fin alloc accepted : Bool)
  | sendGather (ds : Nat) (spans : List Nat) (fin : Bool) (cookie : Nat) (alloc accepted : Bool)
  | shutdown (ds : Nat) (req : Shutdown) (answer : Bool)
  | shutdownReturned (first second : Bool)
  | returned
  | startFailed (ds : Nat)
  | peerReceiveAborted (ds : Nat) (answer : Bool)
  | sendShutdownComplete (ds : Nat) (graceful : Bool)
  | sendComplete (r : SendRec) (canceled : Bool)
  | idealSend (ds n : Nat)
  | shutdownComplete (ds : Nat) (appClose : Bool)
  | completeTerminal (ds : Nat)
  | collect (ds : Nat)
  | connShutdown
  | connLost
  | shutdownWhenFlushed
  | sessionDropped

namespace Driver

/-- Process an event. -/
def apply : Event → Driver → Driver
  | .opened isLocal isBidi critical pooled attached, d =>
    d.openStream isLocal isBidi critical pooled attached
  | .attached s, d => d.attach s
  | .detached s answer, d => d.opDetach s answer
  | .send s len fin alloc accepted, d => (d.opSend s len fin alloc accepted).2
  | .sendGather s spans fin cookie alloc accepted, d =>
    (d.opSendGather s spans fin cookie alloc accepted).2
  | .shutdown s req answer, d => (d.opShutdownStream s req answer).2
  | .shutdownReturned first second, d =>
    match d.frames with
    | .shutdown s req intent :: frames =>
      let (ok, sendAccepted) := shutdownResult req first second
      { d with frames }.resolve s intent ok sendAccepted
    | _ => d
  | .returned, d =>
    match d.frames with
    | [] | .shutdown _ _ _ :: _ => d
    | f :: frames => { d with frames }.resume f
  | .startFailed s, d => (d.flushDiscard s).record (.gone s)
  | .peerReceiveAborted s answer, d => d.peerReceiveAborted s answer
  | .sendShutdownComplete s graceful, d => d.sendShutdownComplete s graceful
  | .sendComplete r canceled, d => d.sendComplete r canceled
  | .idealSend s n, d =>
    let grew := n > (d.stream s).idealSend
    let d := d.modDs s fun e => { e with idealSend := n }
    if grew then d.writableCheck s else d
  | .shutdownComplete s appClose, d => d.streamShutdownComplete s appClose
  | .completeTerminal s, d => d.completeTerminal s
  | .collect s, d => d.collect s
  | .connShutdown, d => d.connShutdown
  | .connLost, d => d.failPending
  | .shutdownWhenFlushed, d => { d with shutdownWhenFlushed := true }
  | .sessionDropped, d => { d with session := false }

end Driver

/-- The stream an event is about. -/
def Event.ds : Event → Option Nat
  | .attached s | .detached s _ | .send s _ _ _ _ | .sendGather s _ _ _ _ _ | .shutdown s _ _ | .startFailed s
  | .peerReceiveAborted s _ | .sendShutdownComplete s _ | .idealSend s _ | .shutdownComplete s _
  | .completeTerminal s | .collect s => some s
  | _ => none

/-- What MsQuic and the engine may do: an event is about a stream that exists, every accepted
send is completed once, and no stream is retired from inside a call. -/
def Event.allowed (d : Driver) : Event → Bool
  | .sendComplete r _ => d.borrowed.contains r
  | .collect s => d.frames.isEmpty && s < d.nextDs && !(d.stream s).collected
  | ev => ev.ds.all fun s => s < d.nextDs && !(d.stream s).collected

/-- The states of a connection. -/
inductive Reachable : Driver → Prop
  | init : Reachable {}
  | step {d : Driver} (ev : Event) (h : Reachable d) (ha : ev.allowed d) : Reachable (d.apply ev)

/-- The states that may come after `d`. -/
inductive Later (d : Driver) : Driver → Prop
  | refl : Later d d
  | step {d' : Driver} (ev : Event) (h : Later d d') (ha : ev.allowed d') : Later d (d'.apply ev)

end Wtquic.Msquic
