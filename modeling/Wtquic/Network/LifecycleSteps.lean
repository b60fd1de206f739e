-- SUMMARY: What one step of the managed lifecycle can do.
import Wtquic.Network.Lifecycle

namespace Wtquic.Network

/-- The construction reference, or before it the creator's own one. -/
def Starter.refs : Starter → Nat
  | .done => 0
  | _ => 1

def Starter.startState : Starter → StartState
  | .built | .creating | .scheduled => .queued
  | .starting | .startReturned => .starting
  | .latched _ | .releasing | .done => .started

def Block.isPost : Block → Bool
  | .post _ => true
  | _ => false

/-- No post waits behind the stop worker. -/
def Block.Before (a b : Block) : Prop := a = .stopWorker → b.isPost = false

/-- The reference that an accepted post holds while it runs. -/
def Running.refs : Option Running → Nat
  | some (.post _) => 1
  | _ => 0

namespace Conn

/-- The finish worker has begun. -/
def finishing (c : Conn) : Prop := c.running = some .finish ∨ c.lifecycleOver = true

/-- The start, the references and the stop. -/
structure Stops (c : Conn) : Prop where
  state : c.startState = c.starter.startState
  started : .groupStarted ∈ c.log ↔ c.groupStarted = true
  refs : c.refs =
    c.owned + c.starter.refs + c.queue.countP Block.isPost + Running.refs c.running
  implicit : c.implicitStops = if c.refs = 0 ∧ c.stopStarted = false then 1 else 0
  closed : c.closed = c.stopStarted
  enqueued : c.stopEnqueued = true ↔ c.stopStarted = true ∧ c.startState = .started
  /-- Where the stop worker is. -/
  place : (c.stopEnqueues + if c.starter = .latched true then 1 else 0) +
      c.queue.count .stopWorker + (if c.drvStopStarted then 1 else 0) =
    if c.stopEnqueued then 1 else 0
  queued : .stopQueued ∈ c.log ↔ .stopWorker ∈ c.queue ∨ c.drvStopStarted = true
  ran : .stopRan ∈ c.log ↔ c.drvStopStarted = true

/-- The posts and their order. -/
structure Posts (c : Conn) : Prop where
  nodup : c.queue.Nodup
  order : c.queue.Pairwise Block.Before
  afterStop : c.drvStopStarted = true → ∀ b ∈ c.queue, b.isPost = false
  waiting : ∀ n, .post n ∈ c.queue → .accepted n ∈ c.log ∧ .ran n ∉ c.log
  accepted : ∀ n, .accepted n ∈ c.log → .ran n ∈ c.log ∨ .post n ∈ c.queue
  ran : ∀ n, .ran n ∈ c.log → .accepted n ∈ c.log
  rejected : ∀ n, .rejected n ∈ c.log → .accepted n ∉ c.log
  next : ∀ n, .accepted n ∈ c.log ∨ .rejected n ∈ c.log → n < c.nextPost

/-- The end of the lifecycle. -/
structure Finishes (c : Conn) : Prop where
  terminalFact : .groupTerminal ∈ c.log ↔ c.groupTerminal = true
  terminalStarted : c.groupTerminal = true → c.groupStarted = true
  terminal : c.groupTerminal = true ↔ c.terminalDone = true ∨ c.running = some .terminal
  terminalRuns : c.running = some .terminal → c.terminalDone = false
  scheduled : c.finishScheduled = (c.terminalDone && c.drvStopStarted)
  place : (c.queue.count .finishWorker + if c.running = some .finish then 1 else 0) +
      (if c.lifecycleOver then 1 else 0) =
    if c.finishScheduled then 1 else 0
  overFact : .lifecycleOver ∈ c.log ↔ c.lifecycleOver = true
  stoppedDone : c.stoppedDone = c.lifecycleOver
  drv : c.drv = !c.lifecycleOver
  stopped : .stopped ∈ c.log ↔ c.onStopped = true ∧ c.finishing
  doorbellSrc : c.doorbellSrc = true ↔ c.onDoorbell = true ∧ ¬c.finishing
  doorbellTimerSrc : c.doorbellTimerSrc = c.doorbellSrc
  doorbellData : c.doorbellData = true → c.doorbellSrc = true
  doorbellRuns : c.running = some .doorbell → c.lifecycleOver = false
  cancelled : .groupCancelled ∈ c.log → c.drvStopStarted = true

/-- The memory of the handle and of the driver. -/
structure Frees (c : Conn) : Prop where
  place : (c.handleFrees + if c.running = some (.finishTail true) then 1 else 0) +
      (if .handleFreed ∈ c.log then 1 else 0) =
    if c.refs = 0 ∧ c.lifecycleOver = true then 1 else 0
  tail : ∀ b, c.running = some (.finishTail b) → c.lifecycleOver = true ∧
    c.lifecyclePinDropped = false
  dropped : c.lifecyclePinDropped = true → c.lifecycleOver = true
  pinned : c.lifecyclePinDropped = false → c.pins ≠ 0
  driver : .driverFreed ∈ c.log ↔ c.pins = 0

structure Inv (c : Conn) : Prop where
  stops : c.Stops
  posts : c.Posts
  finishes : c.Finishes
  frees : c.Frees

variable {c c' : Conn}

/-- What `nw_maybe_schedule_finish` appends to the domain queue. -/
def finishBlocks (c : Conn) : List Block :=
  if c.finishScheduled || !c.terminalDone || !c.drvStopStarted then [] else [.finishWorker]

theorem maybeScheduleFinish_eq (c : Conn) :
    c.maybeScheduleFinish =
      { c with
        finishScheduled := c.finishScheduled || (c.terminalDone && c.drvStopStarted),
        queue := c.queue ++ c.finishBlocks } := by
  unfold maybeScheduleFinish finishBlocks
  split
  · rename_i h
    have hf : (c.finishScheduled || (c.terminalDone && c.drvStopStarted)) = c.finishScheduled := by
      grind
    rw [hf, List.append_nil]
  · rename_i h
    have hf : (c.finishScheduled || (c.terminalDone && c.drvStopStarted)) = true := by grind
    rw [hf]
    rfl

/-- Whether a release begins the implicit stop. -/
def releaseStops (c : Conn) : Nat := if c.refs = 1 ∧ c.stopStarted = false then 1 else 0

/-- Whether a release frees the handle. -/
def releaseFrees (c : Conn) : Nat :=
  if c.refs = 1 ∧ c.stopStarted = true ∧ c.lifecycleOver = true then 1 else 0

theorem release_eq (h : c.refs ≠ 0) :
    c.release =
      { c with
        refs := c.refs - 1, implicitStops := c.implicitStops + c.releaseStops,
        handleFrees := c.handleFrees + c.releaseFrees } := by
  unfold release releaseStops releaseFrees
  rw [if_neg h]
  by_cases h1 : c.refs = 1
  · cases hs : c.stopStarted <;> cases ho : c.lifecycleOver <;> simp [h1]
  · have : c.refs - 1 ≠ 0 := by omega
    simp [h1, this]

theorem finishWorker_eq (c : Conn) :
    c.finishWorker =
      { c with
        doorbellTimerArmed := false, doorbellTimerDeadlineUs := 0, doorbellTimerSrc := false,
        doorbellSrc := false, doorbellData := false, running := some .finish,
        log := (if c.onStopped then [.stopped] else []) ++ c.log } := by
  unfold finishWorker doorbellTeardown
  cases c.onStopped <;> simp [note]

theorem drvFreeIfDone_eq (c : Conn) :
    c.drvFreeIfDone =
      { c with log := (if c.pins = 0 then [.driverFreed] else []) ++ c.log } := by
  unfold drvFreeIfDone
  by_cases h : c.pins = 0 <;> simp [note, h]

theorem finishTail_eq (c : Conn) (free : Bool) :
    c.finishTail free =
      { c with
        running := none, lifecyclePinDropped := true, pins := c.pins - 1,
        log := (if c.pins - 1 = 0 then [.driverFreed] else []) ++
          ((if free then [.handleFreed] else []) ++ c.log) } := by
  unfold finishTail
  rw [drvFreeIfDone_eq]
  cases free <;> rfl

/-- What a step does, with the guards that it passed. -/
inductive Step (c : Conn) : Conn → Prop where
  /-- Only the doorbell's own fields and the transport change, or nothing at all. -/
  | quiet (armed : Bool) (deadline : Nat) (shutdown data : Bool)
      (h : data = true → c.doorbellData = true ∨ c.doorbellSrc = true) :
      Step c { c with
        doorbellTimerArmed := armed, doorbellTimerDeadlineUs := deadline,
        shutdownStarted := shutdown, doorbellData := data }
  | joined (h : c.stoppedDone = true) : Step c { c with log := .joined :: c.log }
  | retain (h : c.refs ≠ 0) : Step c { c with refs := c.refs + 1, owned := c.owned + 1 }
  | release (h : c.refs ≠ 0) (ho : c.owned ≠ 0) :
      Step c { c with
        refs := c.refs - 1, owned := c.owned - 1,
        implicitStops := c.implicitStops + c.releaseStops,
        handleFrees := c.handleFrees + c.releaseFrees }
  | accepted (h : c.refs ≠ 0) (hopen : c.closed = false) :
      Step c { c with
        refs := c.refs + 1, nextPost := c.nextPost + 1, queue := c.queue ++ [.post c.nextPost],
        log := .accepted c.nextPost :: c.log }
  | rejected :
      Step c { c with nextPost := c.nextPost + 1, log := .rejected c.nextPost :: c.log }
  /-- A stop before the start was done. -/
  | stopLatched (h : c.stopStarted = false) (hs : c.startState ≠ .started) (h0 : c.refs ≠ 0) :
      Step c { c with stopStarted := true, closed := true }
  | stopBegun (i : Nat) (h : c.stopStarted = false) (hs : c.startState = .started)
      (hi : i = c.implicitStops ∧ c.refs ≠ 0 ∨ c.implicitStops = i + 1) :
      Step c { c with
        stopStarted := true, closed := true, stopEnqueued := true,
        stopEnqueues := c.stopEnqueues + 1, implicitStops := i }
  | publish (main : Bool) (h : c.starter = .built) :
      Step c { c with
        refs := c.refs + 1, owned := c.owned + 1,
        starter := if main then .creating else .scheduled }
  | beginStart (h : c.starter = .creating ∨ c.starter = .scheduled) :
      Step c { c with startState := .starting, starter := .starting }
  | groupStart (h : c.starter = .starting) :
      Step c { c with starter := .startReturned, log := .groupStarted :: c.log }
  | started (h : c.starter = .startReturned) (hs : c.stopStarted = false) :
      Step c { c with startState := .started, starter := .latched false }
  | startedLatched (h : c.starter = .startReturned) (hs : c.stopStarted = true) :
      Step c { c with startState := .started, stopEnqueued := true, starter := .latched true }
  | enqueueLatchedStop (h : c.starter = .latched true) :
      Step c { c with
        starter := .releasing, queue := c.queue ++ [.stopWorker], log := .stopQueued :: c.log }
  | noLatchedStop (h : c.starter = .latched false) : Step c { c with starter := .releasing }
  | releaseConstruction (h : c.starter = .releasing) :
      Step c { c with
        refs := c.refs - 1, starter := .done,
        implicitStops := c.implicitStops + c.releaseStops,
        handleFrees := c.handleFrees + c.releaseFrees }
  | enqueueStop (h : c.stopEnqueues ≠ 0) :
      Step c { c with
        stopEnqueues := c.stopEnqueues - 1, queue := c.queue ++ [.stopWorker],
        log := .stopQueued :: c.log }
  | freeHandle (h : c.handleFrees ≠ 0) :
      Step c { c with handleFrees := c.handleFrees - 1, log := .handleFreed :: c.log }
  | runPost (n : Nat) (bs : List Block) (h : c.running = none) (hq : c.queue = .post n :: bs) :
      Step c { c with queue := bs, running := some (.post n), log := .ran n :: c.log }
  | runStop (bs : List Block) (l : Log) (h : c.running = none) (hq : c.queue = .stopWorker :: bs)
      (hl : l = [] ∨ l = [.groupCancelled]) :
      Step c { c with
        drvStopStarted := true, shutdownStarted := true,
        finishScheduled := c.finishScheduled || c.terminalDone,
        queue := bs ++ { c with drvStopStarted := true }.finishBlocks,
        log := l ++ .stopRan :: c.log }
  | runFinish (bs : List Block) (h : c.running = none) (hq : c.queue = .finishWorker :: bs) :
      Step c { c with
        queue := bs, doorbellTimerArmed := false, doorbellTimerDeadlineUs := 0,
        doorbellTimerSrc := false, doorbellSrc := false, doorbellData := false,
        running := some .finish, log := (if c.onStopped then [.stopped] else []) ++ c.log }
  | postReturn (n : Nat) (h : c.running = some (.post n)) :
      Step c { c with
        refs := c.refs - 1, running := none,
        implicitStops := c.implicitStops + c.releaseStops,
        handleFrees := c.handleFrees + c.releaseFrees }
  | groupTerminal (h : c.running = none) (hs : c.groupStarted = true)
      (hn : c.groupTerminal = false) :
      Step c { c with
        groupTerminal := true, running := some .terminal, log := .groupTerminal :: c.log }
  | groupTerminalReturn (h : c.running = some .terminal) :
      Step c { c with
        terminalDone := true, running := none,
        finishScheduled := c.finishScheduled || c.drvStopStarted,
        queue := c.queue ++ { c with terminalDone := true }.finishBlocks }
  | doorbellFire (h : c.running = none) (hs : c.doorbellSrc = true) :
      Step c { c with
        doorbellData := false, running := some .doorbell, log := .doorbell :: c.log }
  | doorbellReturn (h : c.running = some .doorbell) : Step c { c with running := none }
  | stoppedReturn (h : c.running = some .finish) :
      Step c { c with
        drv := false, stoppedDone := true, lifecycleOver := true,
        running := some (.finishTail (c.refs = 0)), log := .lifecycleOver :: c.log }
  | finishReturn (free : Bool) (h : c.running = some (.finishTail free)) :
      Step c { c with
        running := none, lifecyclePinDropped := true, pins := c.pins - 1,
        log := (if c.pins - 1 = 0 then [.driverFreed] else []) ++
          ((if free then [.handleFreed] else []) ++ c.log) }
  | pinShell (h : c.drvLive = true) : Step c { c with pins := c.pins + 1 }
  | unpinShell (h : c.drvLive = true)
      (hp : (if c.lifecyclePinDropped then 0 else 1) < c.pins) :
      Step c { c with
        pins := c.pins - 1, log := (if c.pins - 1 = 0 then [.driverFreed] else []) ++ c.log }

theorem Step.refl (c : Conn) : Step c c :=
  .quiet _ _ _ _ .inl

theorem Stops.enqueued_eq (hi : c.Stops) (h : c.stopStarted = false) : c.stopEnqueued = false := by
  cases he : c.stopEnqueued with
  | false => rfl
  | true => simp [(hi.enqueued.mp he).1] at h

/-- The handle was published when its last reference went. -/
theorem Stops.started_of_refs (hi : c.Stops) (h : c.refs = 0) : c.startState = .started := by
  have hr := hi.refs
  have hd : c.starter.refs = 0 := by omega
  rw [hi.state]
  cases hs : c.starter <;> simp_all [Starter.refs, Starter.startState]

theorem Finishes.of_finishing (hi : c.Finishes) (h : c.finishing) :
    c.terminalDone = true ∧ c.drvStopStarted = true := by
  have hp := hi.place
  have hs := hi.scheduled
  cases hf : c.finishScheduled with
  | true => simpa [hf] using hs
  | false =>
    obtain h | h := h
    · simp [hf, h] at hp
    · simp [hf, h] at hp

theorem Stops.of_drvStop (hi : c.Stops) (h : c.drvStopStarted = true) :
    c.stopStarted = true ∧ c.startState = .started := by
  apply hi.enqueued.mp
  have hp := hi.place
  cases he : c.stopEnqueued with
  | true => rfl
  | false => simp [h, he] at hp

/-- A doorbell that was configured has its sources as long as the latch is open. -/
theorem Inv.doorbellSrc (hi : c.Inv) (hopen : c.closed = false) (hd : c.onDoorbell = true) :
    c.doorbellSrc = true := by
  refine hi.finishes.doorbellSrc.mpr ⟨hd, fun hf => ?_⟩
  have hs := hi.stops.of_drvStop (hi.finishes.of_finishing hf).2
  rw [hi.stops.closed, hs.1] at hopen
  cases hopen

theorem stopBegin_step (hi : c.Stops) (hlive : c.refs ≠ 0) : Step c c.stopBegin := by
  unfold stopBegin
  cases hs : c.stopStarted with
  | true => simpa [hs] using Step.refl c
  | false =>
    have he := hi.enqueued_eq hs
    by_cases hst : c.startState = .started
    · simpa [hst, he] using Step.stopBegun _ hs hst (.inl ⟨rfl, hlive⟩)
    · simpa [hst] using Step.stopLatched hs hst hlive

theorem implicitStop_step (hi : c.Stops) (h : c.implicitStops ≠ 0) :
    Step c { c with implicitStops := c.implicitStops - 1 }.stopBegin := by
  have hp := hi.implicit
  split at hp
  · rename_i h0
    have hs := hi.started_of_refs h0.1
    have he := hi.enqueued_eq h0.2
    have hstop := Step.stopBegun (c.implicitStops - 1) h0.2 hs (.inr (by omega))
    simpa [stopBegin, h0.2, hs, he] using hstop
  · exact absurd hp h

theorem stopWorker_step {bs : List Block} (h : c.running = none)
    (hq : c.queue = .stopWorker :: bs) : Step c { c with queue := bs }.stopWorker := by
  unfold stopWorker
  rw [maybeScheduleFinish_eq]
  have hrun := fun l hl => Step.runStop (c := c) bs l h hq hl
  cases hs : c.shutdownStarted with
  | true => simpa [note, hs, finishBlocks] using hrun [] (.inl rfl)
  | false => simpa [note, hs, finishBlocks, connClose] using hrun [.groupCancelled] (.inr rfl)

theorem started_step (hi : c.Stops) (h : c.starter = .startReturned) : Step c c.started := by
  unfold started
  have hs : c.startState = .starting := by rw [hi.state, h]; rfl
  have he : c.stopEnqueued = false := by
    cases he : c.stopEnqueued with
    | false => rfl
    | true =>
      have := (hi.enqueued.mp he).2
      simp [hs] at this
  cases hst : c.stopStarted with
  | true => simpa [hst, he] using Step.startedLatched h hst
  | false => simpa [hst] using Step.started h hst

theorem post_step (hlive : c.refs ≠ 0) : Step c c.post := by
  unfold post
  by_cases hc : c.closed = true
  · rw [if_pos hc]
    exact .rejected
  · rw [if_neg hc]
    exact .accepted hlive (by simpa using hc)

theorem doorbellRing_step : Step c c.doorbellRing := by
  unfold doorbellRing
  split
  · rename_i h
    simp only [Bool.and_eq_true] at h
    exact .quiet _ _ _ true fun _ => .inr h.2
  · exact .refl c

theorem doorbellRingAfter_step (delayUs nowUs : Nat)
    (hsrc : c.closed = false → c.onDoorbell = true → c.doorbellSrc = true) :
    Step c (c.doorbellRingAfter delayUs nowUs) := by
  unfold doorbellRingAfter
  cases hc : c.closed with
  | true => exact .refl c
  | false =>
    cases hd : c.onDoorbell with
    | false => exact .refl c
    | true =>
      by_cases h0 : delayUs = 0
      · simpa [h0, hc, hd] using
          Step.quiet (c := c) false 0 c.shutdownStarted true fun _ => .inr (hsrc hc hd)
      · simpa [h0, hc, hd] using
          Step.quiet (c := c) true _ c.shutdownStarted c.doorbellData .inl

theorem doorbellCancelAfter_step : Step c c.doorbellCancelAfter := by
  unfold doorbellCancelAfter
  split
  · exact .quiet _ _ _ _ .inl
  · exact .refl c

theorem doorbellTimerFire_step (nowUs : Nat) : Step c (c.doorbellTimerFire nowUs) := by
  unfold doorbellTimerFire
  split
  · exact .refl c
  · rename_i h
    simp only [Bool.or_eq_true, Bool.not_eq_true', not_or, Bool.not_eq_false] at h
    split
    · exact .refl c
    · exact .quiet _ _ _ true fun _ => .inr h.2

theorem usable_refs (h : c.usable = true) : c.refs ≠ 0 := by
  simp only [usable, Bool.and_eq_true, decide_eq_true_eq] at h
  exact h.2

/-- A step behind a guard. -/
theorem of_guard {p : Prop} [Decidable p] {a : Conn} (h : (if p then some a else none) = some c') :
    p ∧ a = c' := by
  split at h
  · rename_i hp
    exact ⟨hp, Option.some.inj h⟩
  · cases h

theorem step_cases (hi : c.Inv) {e : Event} (h : c.step e = some c') : Step c c' := by
  cases e with
  | retain =>
    obtain ⟨hu, rfl⟩ := of_guard h
    exact .retain (usable_refs hu)
  | release =>
    obtain ⟨hu, rfl⟩ := of_guard h
    rw [release_eq (by exact usable_refs hu.1)]
    exact .release (usable_refs hu.1) hu.2
  | post alloc =>
    cases hu : c.usable with
    | false => simp [step, hu] at h
    | true =>
      cases alloc with
      | true =>
        obtain rfl : c.post = c' := by simpa [step, hu] using h
        exact post_step (usable_refs hu)
      | false =>
        obtain rfl : c.postNoMemory = c' := by simpa [step, hu] using h
        exact .rejected
  | stopBegin =>
    obtain ⟨hu, rfl⟩ := of_guard h
    exact stopBegin_step hi.stops (usable_refs hu)
  | join =>
    obtain ⟨hu, rfl⟩ := of_guard h
    exact .joined hu.2
  | doorbellRing =>
    obtain ⟨-, rfl⟩ := of_guard h
    exact doorbellRing_step
  | doorbellRingAfter delayUs nowUs =>
    obtain ⟨-, rfl⟩ := of_guard h
    exact doorbellRingAfter_step delayUs nowUs hi.doorbellSrc
  | doorbellCancelAfter =>
    obtain ⟨-, rfl⟩ := of_guard h
    exact doorbellCancelAfter_step
  | publish main =>
    obtain ⟨hs, rfl⟩ := of_guard h
    exact .publish main hs
  | beginStart =>
    obtain ⟨hs, rfl⟩ := of_guard h
    exact .beginStart hs
  | groupStart =>
    obtain ⟨hs, rfl⟩ := of_guard h
    exact .groupStart hs
  | started =>
    obtain ⟨hs, rfl⟩ := of_guard h
    exact started_step hi.stops hs
  | enqueueLatchedStop =>
    simp only [step] at h
    split at h
    · rename_i hs
      obtain rfl := Option.some.inj h
      exact .enqueueLatchedStop hs
    · rename_i hs
      obtain rfl := Option.some.inj h
      exact .noLatchedStop hs
    · cases h
  | releaseConstruction =>
    obtain ⟨hs, rfl⟩ := of_guard h
    have hr : c.refs ≠ 0 := by
      have := hi.stops.refs
      simp only [hs, Starter.refs] at this
      omega
    rw [release_eq (by exact hr)]
    exact .releaseConstruction hs
  | implicitStop =>
    obtain ⟨hs, rfl⟩ := of_guard h
    exact implicitStop_step hi.stops hs
  | enqueueStop =>
    obtain ⟨hs, rfl⟩ := of_guard h
    exact .enqueueStop hs
  | freeHandle =>
    obtain ⟨hs, rfl⟩ := of_guard h
    exact .freeHandle hs
  | dequeue =>
    simp only [step] at h
    split at h
    · rename_i b bs hr hq
      obtain rfl := Option.some.inj h
      cases b with
      | post n => exact .runPost n bs hr hq
      | stopWorker => exact stopWorker_step hr hq
      | finishWorker =>
        rw [runBlock, finishWorker_eq]
        exact .runFinish bs hr hq
    · cases h
  | postReturn =>
    simp only [step] at h
    split at h
    · rename_i n hr
      obtain rfl := Option.some.inj h
      have hn : c.refs ≠ 0 := by
        have := hi.stops.refs
        simp only [hr, Running.refs] at this
        omega
      rw [release_eq (by exact hn)]
      exact .postReturn n hr
    · cases h
  | groupTerminal =>
    obtain ⟨hs, rfl⟩ := of_guard h
    unfold groupHandleTerminal
    split
    · exact .refl c
    · rename_i hn
      exact .groupTerminal hs.1 hs.2 (by simpa using hn)
  | groupTerminalReturn =>
    obtain ⟨hs, rfl⟩ := of_guard h
    rw [groupTerminalDone, maybeScheduleFinish_eq]
    simpa [finishBlocks] using Step.groupTerminalReturn hs
  | doorbellFire =>
    obtain ⟨hs, rfl⟩ := of_guard h
    exact .doorbellFire hs.1 hs.2.1
  | doorbellReturn =>
    obtain ⟨hs, rfl⟩ := of_guard h
    exact .doorbellReturn hs
  | doorbellTimerFire nowUs =>
    obtain ⟨-, rfl⟩ := of_guard h
    exact doorbellTimerFire_step nowUs
  | stoppedReturn =>
    obtain ⟨hs, rfl⟩ := of_guard h
    exact .stoppedReturn hs
  | finishReturn =>
    simp only [step] at h
    split at h
    · rename_i b hr
      obtain rfl := Option.some.inj h
      rw [finishTail_eq]
      exact .finishReturn b hr
    · cases h
  | connClose =>
    obtain ⟨-, rfl⟩ := of_guard h
    exact .quiet _ _ _ _ .inl
  | pinShell =>
    obtain ⟨hs, rfl⟩ := of_guard h
    exact .pinShell hs
  | unpinShell =>
    obtain ⟨hs, rfl⟩ := of_guard h
    rw [drvFreeIfDone_eq]
    exact .unpinShell hs.1 hs.2

end Conn

end Wtquic.Network
