-- SUMMARY: What the receive side of a stream promises, and the invariant of its held completion.
import Wtquic.Network.Stream

namespace Wtquic.Network

/-- A sweep of a failure, which ends with a cancel or with the stream. -/
def AfterSweep.fails : AfterSweep → Bool
  | .failed | .cancelled => true
  | .groupTerminal => false

def Completing.fails : Completing → Bool
  | .batch _ _ _ => false
  | .sweep _ after => after.fails

namespace Stream

/-! # The history of the receive side -/

abbrev History := List Fact

/-- The bytes of the completions, the flush of a cancel apart. -/
def receivedBytes : History → Bytes
  | [] => []
  | .completed content _ _ :: l => receivedBytes l ++ content
  | _ :: l => receivedBytes l

/-- The bytes that the engine took. -/
def takenBytes : History → Bytes
  | [] => []
  | .taken buf _ :: l => takenBytes l ++ buf
  | _ :: l => takenBytes l

def finReceived : History → Bool
  | [] => false
  | .completed _ fin _ :: l => fin || finReceived l
  | _ :: l => finReceived l

def finTaken : History → Bool
  | [] => false
  | .taken _ fin :: l => fin || finTaken l
  | _ :: l => finTaken l

/-- A FIN or an error ended the receive side. -/
def ended : History → Bool
  | [] => false
  | .completed _ fin errored :: l => fin || errored || ended l
  | _ :: l => ended l

/-- A receive is outstanding. -/
def armedNow : History → Bool
  | [] => false
  | .armed :: _ => true
  | .completed _ _ _ :: _ | .flushed :: _ => false
  | _ :: l => armedNow l

/-- The offer that the engine has not answered yet. -/
def offering : History → Option (Bytes × Bool)
  | [] => none
  | .offered buf fin :: _ => some (buf, fin)
  | .taken _ _ :: _ => none
  | _ :: l => offering l

/-- The stream is not paused. -/
def enabledNow : History → Bool
  | [] => true
  | .enabled b :: _ => b
  | _ :: l => enabledNow l

/-- Nobody cancelled the stream, and it did not fail. -/
def Alive (l : History) : Prop :=
  .shutdown ∉ l ∧ .cancelIssued ∉ l ∧ .failed ∉ l ∧ .terminal ∉ l

/-- What discards a held completion. -/
def Discards (l : History) : Prop := ¬Alive l ∨ .detached ∈ l ∨ .sessionGone ∈ l

/-- What the history before a fact of the receive side must look like. -/
def Fact.Receives (l : History) : Fact → Prop
  | .armed =>
    armedNow l = false ∧ enabledNow l = true ∧ ended l = false ∧ Alive l ∧
      (.dropped ∉ l → .detached ∉ l → takenBytes l = receivedBytes l)
  | .completed _ _ _ => armedNow l = true ∧ ended l = false
  | .flushed => armedNow l = true
  | .offered buf fin =>
    offering l = none ∧ enabledNow l = true ∧ Alive l ∧ .reset ∉ l ∧ takenBytes l ++ buf <+: receivedBytes l ∧
      (fin = true → finReceived l = true ∧ finTaken l = false ∧ takenBytes l ++ buf = receivedBytes l)
  | .taken buf fin =>
    (∃ offer : Bytes × Bool, offering l = some offer ∧ buf <+: offer.1 ∧
        (fin = true → offer.2 = true ∧ buf = offer.1)) ∧
      takenBytes l ++ buf <+: receivedBytes l ∧
      (fin = true → finReceived l = true ∧ finTaken l = false ∧ takenBytes l ++ buf = receivedBytes l)
  | .dropped => Discards l
  | .overflow => False
  | _ => True

def Received : History → Prop
  | [] => True
  | f :: l => f.Receives l ∧ Received l

/-! # The state of the receive side -/

/-- What the flags and the history say of each other. -/
structure Tracks (s : Stream) : Prop where
  armed : armedNow s.log = s.recvPending
  enabled : enabledNow s.log = s.recvEnabled
  ended : Stream.ended s.log = s.recvEnded
  finTaken : Stream.finTaken s.log = s.finDelivered
  cancelIssued : .cancelIssued ∈ s.log ↔ s.cancelIssued = true
  failed : .failed ∈ s.log ↔ s.failedSeen = true
  terminal : .terminal ∈ s.log ↔ s.terminal = true
  sessionGone : .sessionGone ∈ s.log ↔ s.session = false
  reset : .reset ∈ s.log → s.resetDelivered = true ∧ s.failedSeen = true
  shutdown : .shutdown ∈ s.log → s.cancelDeferred = true ∨ s.cancelIssued = true
  cancelDeferred : s.cancelDeferred = true → .shutdown ∈ s.log
  detached : .detached ∈ s.log → s.ectx = none

/-- The stream has a context, or had one. -/
def Attached (s : Stream) : Prop := s.ectx.isSome = true ∨ .detached ∈ s.log

/-- What is received, taken and held. -/
structure Holds (s : Stream) : Prop where
  whole : .dropped ∉ s.log → .detached ∉ s.log → receivedBytes s.log = takenBytes s.log ++ s.held
  wholeFin : .dropped ∉ s.log → .detached ∉ s.log → finReceived s.log = true →
    s.finDelivered = true ∨ s.heldFin = true
  part : takenBytes s.log <+: receivedBytes s.log
  partFin : s.finDelivered = true → finReceived s.log = true ∧ takenBytes s.log = receivedBytes s.log
  lost : .dropped ∈ s.log → Discards s.log
  heldFin : s.recvDeferredFin = true → s.recvDeferred = true ∧ finReceived s.log = true
  finEnded : finReceived s.log = true → s.recvEnded = true
  offset : s.recvDeferred = true →
    s.recvDeferredOffset ≤ (s.recvDeferredData.getD []).flatten.length
  empty : s.recvDeferred = false → s.recvDeferredOffset = 0 ∧ s.recvDeferredData = none
  pending : s.recvPending = true → s.recvDeferred = false ∧ s.recvEnded = false
  attached : s.recvPending = true ∨ s.recvDeferred = true → s.Attached

/-- How far the start of the stream is. -/
structure Starts (s : Stream) : Prop where
  ready : s.readySeen = false → s.readyProcessed = false ∧ s.readyRecheckPending = false
  recheck : s.readyRecheckPending = true → s.readyProcessed = false
  peer : s.isLocal = false → s.readyProcessed = false → s.ectx = none ∧ .detached ∉ s.log
  bidi : s.isLocal = true → s.isBidi = true → s.Attached

/-- How the stream ends. -/
structure Ends (s : Stream) : Prop where
  closing : s.shutdownStarted = true → s.cancelIssued = true ∨ s.terminal = true
  gone : s.conn = false → s.terminal = true

/-- The calls into the engine apart, what holds of the receive side. -/
structure Core (s : Stream) : Prop where
  tracks : Tracks s
  holds : Holds s
  starts : Starts s
  ends : Ends s
  received : Received s.log

/-! # The calls into the engine -/

/-- Frames of the receive loop. -/
def Frame.recv : Frame → Bool
  | .bytes _ | .bareFin _ => true
  | _ => false

/-- Frames of a failure that has not cancelled the stream yet. -/
def Frame.fails : Frame → Bool
  | .reset after => after.fails
  | .sendComplete _ _ k | .writable _ k => k.fails
  | _ => false

/-- The engine is offered what comes next. -/
structure Offers (buf : Bytes) (fin : Bool) (s : Stream) : Prop where
  part : takenBytes s.log ++ buf <+: receivedBytes s.log
  whole : fin = true → finReceived s.log = true ∧ finTaken s.log = false ∧
    takenBytes s.log ++ buf = receivedBytes s.log

/-- The regions from `off` on are those of the held completion. -/
structure Regions (fin : Bool) (total off : Nat) (regions : List Bytes) (s : Stream) : Prop where
  total : (s.recvDeferredData.getD []).flatten.length = total
  rest : (s.recvDeferredData.getD []).flatten.drop off = regions.flatten
  off : off ≤ s.recvDeferredOffset
  fin : s.recvDeferredFin = fin

/-- What holds inside a call of the receive loop. -/
def Frame.Good (s : Stream) : Frame → Prop
  | .bytes d =>
    offering s.log = some (d.buf.drop d.skip, d.fin && d.off + d.buf.length == d.total) ∧
      Offers (d.buf.drop d.skip) (d.fin && d.off + d.buf.length == d.total) s ∧
      (s.ectx = some d.key ∨ .detached ∈ s.log) ∧
      (s.recvDeferred = true → Regions d.fin d.total d.off (d.buf :: d.rest) s ∧
        s.recvDeferredOffset = d.off + d.skip ∧ d.skip < d.buf.length)
  | .bareFin _ =>
    offering s.log = some ([], true) ∧ Offers [] true s ∧
      (s.recvDeferred = true → s.recvDeferredOffset = (s.recvDeferredData.getD []).flatten.length)
  | _ => offering s.log = none

/-- The calls into the engine that a stream is inside of. -/
def Stacked (s : Stream) : List Frame → Prop
  | [] => s.recvDelivering = false ∧ offering s.log = none
  | f :: fs =>
    s.recvDelivering = f.recv ∧ f.Good s ∧ (∀ g ∈ fs, g.recv = false) ∧
      (f.recv = true → s.session = true ∧ s.Attached)

/-- A failed stream is cancelled or terminal, or a call away from it. -/
def Failing (s : Stream) : Prop :=
  s.cancelIssued = true ∨ s.terminal = true ∨ ∃ f ∈ s.frames, f.fails = true

/-- Ready processing, and its calls. -/
structure Starting (s : Stream) : Prop where
  deferred : s.readyProcessed = true → s.cancelDeferred = true → s.cancelIssued = true
  native : .nativeId ∈ s.frames → s.Attached
  opened : .peerOpened ∈ s.frames →
    s.ectx = none ∧ .detached ∉ s.log ∧ s.readyProcessed = true ∧ s.frames.count .peerOpened = 1

/-- The invariant of a stream, as far as its receive side goes. -/
structure Reads (s : Stream) : Prop where
  core : Core s
  stacked : s.Stacked s.frames
  failing : s.failedSeen = true → s.Failing
  starting : s.Starting

end Stream

end Wtquic.Network
