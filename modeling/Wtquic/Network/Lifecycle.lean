-- SUMMARY: The managed connection handle of the Network.framework backend and the threads around it.
import Mathlib.Algebra.GroupWithZero.Nat
import Mathlib.Data.List.Nodup
import Mathlib.Tactic.Common

namespace Wtquic.Network

/-! # The handle, the domain and the threads

Every mutex section, and every block of the serial domain queue between two application callbacks,
is one step. What a thread still has to do behind a mutex section is part of the state. -/

inductive StartState where
  | queued
  | starting
  | started
  deriving DecidableEq, Repr

/-- How far the start of the group is: inside `nw_conn_build` for a creator on the main thread, in
`nw_main_start_tramp` for any other. -/
inductive Starter where
  /-- The handle is not published yet, its one reference is the creator's. -/
  | built
  | creating
  /-- The trampoline waits on the main queue. -/
  | scheduled
  | starting
  | startReturned
  /-- `STARTED` is written; the flag is `enqueue_stop`. -/
  | latched (enqueueStop : Bool)
  | releasing
  | done
  deriving DecidableEq, Repr

/-- A block on the domain queue. A post is known by its number. -/
inductive Block where
  | post (n : Nat)
  | stopWorker
  | finishWorker
  deriving DecidableEq, Repr

/-- The block that the domain is inside of. -/
inductive Running where
  | post (n : Nat)
  | terminal
  | doorbell
  /-- The doorbell is torn down, `on_stopped` may run. -/
  | finish
  /-- Behind the last mutex section; the flag is `free_handle`. -/
  | finishTail (freeHandle : Bool)
  deriving DecidableEq, Repr

/-- What the application and the transport can see, and which block ran. -/
inductive Fact where
  | groupStarted
  /-- The stop worker cancelled the group. -/
  | groupCancelled
  | accepted (n : Nat)
  | rejected (n : Nat)
  | ran (n : Nat)
  | stopQueued
  | stopRan
  | groupTerminal
  | stopped
  | doorbell
  | lifecycleOver
  | joined
  | handleFreed
  | driverFreed
  deriving DecidableEq, Repr

/-- The facts so far, the newest first. -/
abbrev Log := List Fact

/-- `struct wtq_nw_conn`, the lifecycle fields of its driver, the domain and the threads. -/
structure Conn where
  onStopped : Bool
  onDoorbell : Bool
  refs : Nat := 1
  closed : Bool := false
  stopStarted : Bool := false
  startState : StartState := .queued
  stopEnqueued : Bool := false
  stoppedDone : Bool := false
  lifecycleOver : Bool := false
  drv : Bool := true
  doorbellSrc : Bool
  doorbellTimerSrc : Bool
  doorbellTimerArmed : Bool := false
  doorbellTimerDeadlineUs : Nat := 0
  /-- `drv->stop_started`, with `drv->rundown`. -/
  drvStopStarted : Bool := false
  groupTerminal : Bool := false
  terminalDone : Bool := false
  finishScheduled : Bool := false
  shutdownStarted : Bool := false
  /-- The lifecycle pin and those of the shells. -/
  pins : Nat := 1
  lifecyclePinDropped : Bool := false
  queue : List Block := []
  running : Option Running := none
  /-- The immediate doorbell has data that was not delivered yet. -/
  doorbellData : Bool := false
  starter : Starter := .built
  /-- Releases that are about to begin the implicit stop. -/
  implicitStops : Nat := 0
  /-- Stops that are about to enqueue the stop worker. -/
  stopEnqueues : Nat := 0
  /-- Releases that are about to free the handle. -/
  handleFrees : Nat := 0
  /-- The references of the application. -/
  owned : Nat := 0
  nextPost : Nat := 0
  log : Log := []
  deriving DecidableEq, Repr

namespace Conn

/-- The handle as `nw_conn_build` leaves it, before it is published. -/
def build (onStopped onDoorbell : Bool) : Conn where
  onStopped := onStopped
  onDoorbell := onDoorbell
  doorbellSrc := onDoorbell
  doorbellTimerSrc := onDoorbell

def note (f : Fact) (c : Conn) : Conn := { c with log := f :: c.log }

def dispatch (b : Block) (c : Conn) : Conn := { c with queue := c.queue ++ [b] }

/-! # The mutex sections -/

/-- The section of `wtq_nw_conn_release`. -/
def release (c : Conn) : Conn :=
  if c.refs = 0 then c
  else
    let c := { c with refs := c.refs - 1 }
    if c.refs ≠ 0 then c
    else if !c.stopStarted then { c with implicitStops := c.implicitStops + 1 }
    else if c.lifecycleOver then { c with handleFrees := c.handleFrees + 1 }
    else c

/-- The section of `wtq_nw_conn_post`, behind the allocation of its node. -/
def post (c : Conn) : Conn :=
  let n := c.nextPost
  let c := { c with nextPost := n + 1 }
  if c.closed then c.note (.rejected n)
  else ({ c with refs := c.refs + 1 }.dispatch (.post n)).note (.accepted n)

/-- No memory for the node of `wtq_nw_conn_post`. -/
def postNoMemory (c : Conn) : Conn :=
  { c with nextPost := c.nextPost + 1 }.note (.rejected c.nextPost)

/-- The section of `wtq_nw_conn_stop_begin`. -/
def stopBegin (c : Conn) : Conn :=
  if c.stopStarted then c
  else
    let c := { c with stopStarted := true, closed := true }
    if c.startState = .started ∧ !c.stopEnqueued then
      { c with stopEnqueued := true, stopEnqueues := c.stopEnqueues + 1 }
    else c

/-- The section behind `nw_connection_group_start`. -/
def started (c : Conn) : Conn :=
  let c := { c with startState := .started }
  if c.stopStarted ∧ !c.stopEnqueued then
    { c with stopEnqueued := true, starter := .latched true }
  else { c with starter := .latched false }

def doorbellRing (c : Conn) : Conn :=
  if !c.closed && c.doorbellSrc then { c with doorbellData := true } else c

def uint64Max : Nat := 2 ^ 64 - 1

/-- `NW_DOORBELL_MAX_DELAY_US`. -/
def doorbellMaxDelayUs : Nat := (2 ^ 63 - 1) / 1000

def doorbellEffectiveDelayUs (delayUs : Nat) : Nat :=
  if delayUs > doorbellMaxDelayUs then doorbellMaxDelayUs else delayUs

def doorbellDeadlineUs (nowUs effUs : Nat) : Nat :=
  if effUs > uint64Max - nowUs then uint64Max else nowUs + effUs

def doorbellRingAfter (delayUs nowUs : Nat) (c : Conn) : Conn :=
  if c.closed then c
  else if !c.onDoorbell then c
  else if delayUs = 0 then
    { c with doorbellTimerArmed := false, doorbellTimerDeadlineUs := 0, doorbellData := true }
  else
    { c with
      doorbellTimerDeadlineUs := doorbellDeadlineUs nowUs (doorbellEffectiveDelayUs delayUs),
      doorbellTimerArmed := true }

def doorbellCancelAfter (c : Conn) : Conn :=
  if c.doorbellTimerSrc then
    { c with doorbellTimerArmed := false, doorbellTimerDeadlineUs := 0 }
  else c

/-! # The blocks of the domain -/

def doorbellTimerFire (nowUs : Nat) (c : Conn) : Conn :=
  if !c.doorbellTimerArmed || c.closed || !c.doorbellTimerSrc || !c.doorbellSrc then c
  else if nowUs < c.doorbellTimerDeadlineUs then c
  else
    { c with doorbellTimerArmed := false, doorbellTimerDeadlineUs := 0, doorbellData := true }

/-- Behind the cancellation of both sources no handler of theirs runs. -/
def doorbellTeardown (c : Conn) : Conn :=
  { c with
    doorbellTimerArmed := false, doorbellTimerDeadlineUs := 0, doorbellTimerSrc := false,
    doorbellSrc := false, doorbellData := false }

/-- `op_conn_close`, without the streams. -/
def connClose (c : Conn) : Conn := { c with shutdownStarted := true }

def maybeScheduleFinish (c : Conn) : Conn :=
  if c.finishScheduled || !c.terminalDone || !c.drvStopStarted then c
  else { c with finishScheduled := true }.dispatch .finishWorker

def stopWorker (c : Conn) : Conn :=
  let c := { c with drvStopStarted := true }.note .stopRan
  let c := if c.shutdownStarted then c else c.connClose.note .groupCancelled
  c.maybeScheduleFinish

/-- `group_handle_terminal` up to the application's callbacks. -/
def groupHandleTerminal (c : Conn) : Conn :=
  if c.groupTerminal then c
  else { c with groupTerminal := true, running := some .terminal }.note .groupTerminal

/-- The rest of `group_handle_terminal`. -/
def groupTerminalDone (c : Conn) : Conn :=
  { c with terminalDone := true, running := none }.maybeScheduleFinish

/-- `nw_finish_worker` up to `on_stopped`. -/
def finishWorker (c : Conn) : Conn :=
  let c := { c.doorbellTeardown with running := some .finish }
  if c.onStopped then c.note .stopped else c

/-- The section of `nw_finish_worker`. -/
def finishSection (c : Conn) : Conn :=
  { c with
    drv := false, stoppedDone := true, lifecycleOver := true,
    running := some (.finishTail (c.refs = 0)) }.note .lifecycleOver

def drvFreeIfDone (c : Conn) : Conn := if c.pins ≠ 0 then c else c.note .driverFreed

/-- The end of `nw_finish_worker`. -/
def finishTail (freeHandle : Bool) (c : Conn) : Conn :=
  let c := if freeHandle then c.note .handleFreed else c
  { c with running := none, lifecyclePinDropped := true, pins := c.pins - 1 }.drvFreeIfDone

/-- Take the next block off the queue. -/
def runBlock (b : Block) (c : Conn) : Conn :=
  match b with
  | .post n => { c with running := some (.post n) }.note (.ran n)
  | .stopWorker => c.stopWorker
  | .finishWorker => c.finishWorker

end Conn

/-! # The steps -/

inductive Event where
  -- The threads of the application.
  | retain
  | release
  | post (alloc : Bool)
  | stopBegin
  | join
  | doorbellRing
  | doorbellRingAfter (delayUs nowUs : Nat)
  | doorbellCancelAfter
  -- The thread of `wtq_nw_conn_create` and the main queue.
  | publish (main : Bool)
  | beginStart
  | groupStart
  | started
  | enqueueLatchedStop
  | releaseConstruction
  -- What a thread does behind a section.
  | implicitStop
  | enqueueStop
  | freeHandle
  -- The domain.
  | dequeue
  | postReturn
  | groupTerminal
  | groupTerminalReturn
  | doorbellFire
  | doorbellReturn
  | doorbellTimerFire (nowUs : Nat)
  | stoppedReturn
  | finishReturn
  | connClose
  | pinShell
  | unpinShell
  deriving DecidableEq, Repr

namespace Conn

/-- The application sees the handle, and somebody holds a reference. -/
def usable (c : Conn) : Bool := c.starter ≠ .built && c.refs ≠ 0

def groupStarted (c : Conn) : Bool :=
  match c.starter with
  | .startReturned | .latched _ | .releasing | .done => true
  | _ => false

/-- The driver is there. -/
def drvLive (c : Conn) : Bool := .driverFreed ∉ c.log

/-- One step, if it can be taken. -/
def step (c : Conn) : Event → Option Conn
  | .retain => if c.usable then some { c with refs := c.refs + 1, owned := c.owned + 1 } else none
  | .release =>
    if c.usable ∧ c.owned ≠ 0 then some { c with owned := c.owned - 1 }.release else none
  | .post alloc =>
    if !c.usable then none
    else if alloc then some c.post
    else some c.postNoMemory
  | .stopBegin => if c.usable then some c.stopBegin else none
  | .join => if c.usable ∧ c.stoppedDone then some (c.note .joined) else none
  | .doorbellRing => if c.usable then some c.doorbellRing else none
  | .doorbellRingAfter delayUs nowUs =>
    if c.usable then some (c.doorbellRingAfter delayUs nowUs) else none
  | .doorbellCancelAfter => if c.usable then some c.doorbellCancelAfter else none
  | .publish main =>
    if c.starter = .built then
      some
        { c with
          refs := c.refs + 1, owned := c.owned + 1,
          starter := if main then .creating else .scheduled }
    else none
  | .beginStart =>
    if c.starter = .creating ∨ c.starter = .scheduled then
      some { c with startState := .starting, starter := .starting }
    else none
  | .groupStart =>
    if c.starter = .starting then some ({ c with starter := .startReturned }.note .groupStarted)
    else none
  | .started => if c.starter = .startReturned then some c.started else none
  | .enqueueLatchedStop =>
    match c.starter with
    | .latched true =>
      some (({ c with starter := .releasing }.dispatch .stopWorker).note .stopQueued)
    | .latched false => some { c with starter := .releasing }
    | _ => none
  | .releaseConstruction =>
    if c.starter = .releasing then some { c with starter := .done }.release else none
  | .implicitStop =>
    if c.implicitStops ≠ 0 then some { c with implicitStops := c.implicitStops - 1 }.stopBegin
    else none
  | .enqueueStop =>
    if c.stopEnqueues ≠ 0 then
      some (({ c with stopEnqueues := c.stopEnqueues - 1 }.dispatch .stopWorker).note .stopQueued)
    else none
  | .freeHandle =>
    if c.handleFrees ≠ 0 then
      some ({ c with handleFrees := c.handleFrees - 1 }.note .handleFreed)
    else none
  | .dequeue =>
    match c.running, c.queue with
    | none, b :: bs => some ({ c with queue := bs }.runBlock b)
    | _, _ => none
  | .postReturn =>
    match c.running with
    | some (.post _) => some { c with running := none }.release
    | _ => none
  | .groupTerminal =>
    if c.running = none ∧ c.groupStarted then some c.groupHandleTerminal else none
  | .groupTerminalReturn =>
    if c.running = some .terminal then some c.groupTerminalDone else none
  | .doorbellFire =>
    if c.running = none ∧ c.doorbellSrc ∧ c.doorbellData then
      some ({ c with doorbellData := false, running := some .doorbell }.note .doorbell)
    else none
  | .doorbellReturn =>
    if c.running = some .doorbell then some { c with running := none } else none
  | .doorbellTimerFire nowUs =>
    if c.running = none ∧ c.doorbellTimerSrc then some (c.doorbellTimerFire nowUs) else none
  | .stoppedReturn => if c.running = some .finish then some c.finishSection else none
  | .finishReturn =>
    match c.running with
    | some (.finishTail freeHandle) => some (c.finishTail freeHandle)
    | _ => none
  | .connClose => if c.drvLive then some c.connClose else none
  | .pinShell => if c.drvLive then some { c with pins := c.pins + 1 } else none
  | .unpinShell =>
    -- The lifecycle pin is not a shell's to give back.
    if c.drvLive ∧ (if c.lifecyclePinDropped then 0 else 1) < c.pins then
      some { c with pins := c.pins - 1 }.drvFreeIfDone
    else none

/-- A run of steps. -/
def run (c : Conn) : List Event → Option Conn
  | [] => some c
  | e :: es => (c.step e).bind (run · es)

end Conn

end Wtquic.Network
