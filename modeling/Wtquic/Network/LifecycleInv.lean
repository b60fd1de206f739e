-- SUMMARY: The invariant of the managed lifecycle.
import Wtquic.Network.LifecycleSteps

namespace Wtquic.Network

attribute [simp, grind =] Starter.refs Starter.startState Running.refs Block.isPost
attribute [grind =] Block.Before

namespace Conn

variable {c c' : Conn}

attribute [simp, grind =] releaseStops releaseFrees

@[simp] theorem finishBlocks_post (c : Conn) (n : Nat) : .post n ∉ c.finishBlocks := by
  unfold finishBlocks
  split <;> simp

@[simp] theorem finishBlocks_stopWorker (c : Conn) : .stopWorker ∉ c.finishBlocks := by
  unfold finishBlocks
  split <;> simp

@[simp] theorem finishBlocks_countP (c : Conn) : c.finishBlocks.countP Block.isPost = 0 := by
  unfold finishBlocks
  split <;> simp

@[simp] theorem finishBlocks_count (c : Conn) : c.finishBlocks.count .stopWorker = 0 := by
  unfold finishBlocks
  split <;> simp

section Steps

attribute [local grind =] groupStarted finishing finishBlocks drvLive

/-! ## The stop -/

theorem Stops.state_step (hi : c.Stops) (h : Step c c') :
    c'.startState = c'.starter.startState := by
  have hstate := hi.state
  clear hi
  cases h with
  | publish main => cases main <;> grind
  | _ => first | assumption | grind

theorem Stops.started_step (hi : c.Stops) (h : Step c c') :
    .groupStarted ∈ c'.log ↔ c'.groupStarted = true := by
  have hstarted := hi.started
  clear hi
  cases h <;> first | assumption | (simp; grind)

theorem Stops.refs_step (hi : c.Stops) (h : Step c c') :
    c'.refs =
      c'.owned + c'.starter.refs + c'.queue.countP Block.isPost + Running.refs c'.running := by
  have hrefs := hi.refs
  clear hi
  cases h <;> first | assumption | (simp; grind)

/-- A last reference that goes before any stop leaves one release behind that will stop. -/
theorem Stops.implicit_step (hi : c.Stops) (h : Step c c') :
    c'.implicitStops = if c'.refs = 0 ∧ c'.stopStarted = false then 1 else 0 := by
  have hrefs := hi.refs
  have himplicit := hi.implicit
  clear hi
  cases h <;> first | assumption | grind

theorem Stops.enqueued_step (hi : c.Stops) (h : Step c c') :
    c'.stopEnqueued = true ↔ c'.stopStarted = true ∧ c'.startState = .started := by
  have henqueued := hi.enqueued
  have hstate := hi.state
  clear hi
  cases h <;> first | assumption | grind

theorem Stops.place_step (hi : c.Stops) (h : Step c c') :
    (c'.stopEnqueues + if c'.starter = .latched true then 1 else 0) +
        c'.queue.count .stopWorker + (if c'.drvStopStarted then 1 else 0) =
      if c'.stopEnqueued then 1 else 0 := by
  have hplace := hi.place
  have henqueued := hi.enqueued
  have hstate := hi.state
  clear hi
  cases h <;> first | assumption | (simp; grind)

theorem Stops.queued_step (hi : c.Stops) (h : Step c c') :
    .stopQueued ∈ c'.log ↔ .stopWorker ∈ c'.queue ∨ c'.drvStopStarted = true := by
  have hqueued := hi.queued
  clear hi
  cases h <;> first | assumption | (simp <;> grind)

theorem Stops.ran_step (hi : c.Stops) (h : Step c c') :
    .stopRan ∈ c'.log ↔ c'.drvStopStarted = true := by
  have hran := hi.ran
  clear hi
  cases h <;> first | assumption | (simp <;> grind)

theorem Stops.step (hi : c.Stops) (h : Step c c') : c'.Stops where
  state := hi.state_step h
  started := hi.started_step h
  refs := hi.refs_step h
  implicit := hi.implicit_step h
  closed := by
    have hclosed := hi.closed
    clear hi
    cases h <;> first | assumption | rfl
  enqueued := hi.enqueued_step h
  place := hi.place_step h
  queued := hi.queued_step h
  ran := hi.ran_step h

/-! ## The posts -/

theorem Posts.nodup_step (hi : c.Inv) (h : Step c c') :
    c'.queue.Nodup := by
  have hnodup := hi.posts.nodup
  have hwaiting := hi.posts.waiting
  have hnext := hi.posts.next
  have henqueued := hi.stops.enqueued
  have hplace := hi.stops.place
  have hfinish := hi.finishes.place
  have hstate := hi.stops.state
  clear hi
  cases h <;> first | assumption | (simp; grind)

/-- An accepted post is put behind no stop worker, which the latch would have come before. -/
theorem Posts.order_step (hi : c.Inv) (h : Step c c') :
    c'.queue.Pairwise Block.Before := by
  have horder := hi.posts.order
  have hclosed := hi.stops.closed
  have henqueued := hi.stops.enqueued
  have hplace := hi.stops.place
  clear hi
  cases h <;> first | assumption | (simp; grind)

theorem Posts.afterStop_step (hi : c.Inv) (h : Step c c') :
    c'.drvStopStarted = true → ∀ b ∈ c'.queue, b.isPost = false := by
  have hafter := hi.posts.afterStop
  have horder := hi.posts.order
  have hclosed := hi.stops.closed
  have henqueued := hi.stops.enqueued
  have hplace := hi.stops.place
  clear hi
  cases h with
  | runStop bs l h hq =>
    rw [hq, List.pairwise_cons] at horder
    have hbs : ∀ b ∈ bs, b.isPost = false := fun b hb => horder.1 b hb rfl
    simp
    grind
  | _ => first | assumption | (simp; grind)

theorem Posts.waiting_step (hi : c.Inv) (h : Step c c') :
    ∀ n, .post n ∈ c'.queue → .accepted n ∈ c'.log ∧ .ran n ∉ c'.log := by
  have hwaiting := hi.posts.waiting
  have hnodup := hi.posts.nodup
  have hran := hi.posts.ran
  have hnext := hi.posts.next
  clear hi
  cases h <;> first | assumption | (simp; grind)

theorem Posts.accepted_step (hi : c.Inv) (h : Step c c') :
    ∀ n, .accepted n ∈ c'.log → .ran n ∈ c'.log ∨ .post n ∈ c'.queue := by
  have haccepted := hi.posts.accepted
  clear hi
  cases h <;> first | assumption | (simp; grind)

theorem Posts.ran_step (hi : c.Inv) (h : Step c c') :
    ∀ n, .ran n ∈ c'.log → .accepted n ∈ c'.log := by
  have hran := hi.posts.ran
  have hwaiting := hi.posts.waiting
  clear hi
  cases h <;> first | assumption | (simp; grind)

theorem Posts.rejected_step (hi : c.Inv) (h : Step c c') :
    ∀ n, .rejected n ∈ c'.log → .accepted n ∉ c'.log := by
  have hrejected := hi.posts.rejected
  have hnext := hi.posts.next
  clear hi
  cases h <;> first | assumption | (simp; grind)

theorem Posts.next_step (hi : c.Inv) (h : Step c c') :
    ∀ n, .accepted n ∈ c'.log ∨ .rejected n ∈ c'.log → n < c'.nextPost := by
  have hnext := hi.posts.next
  clear hi
  cases h <;> first | assumption | (simp; grind)

theorem Posts.step (hi : c.Inv) (h : Step c c') : c'.Posts where
  nodup := Posts.nodup_step hi h
  order := Posts.order_step hi h
  afterStop := Posts.afterStop_step hi h
  waiting := Posts.waiting_step hi h
  accepted := Posts.accepted_step hi h
  ran := Posts.ran_step hi h
  rejected := Posts.rejected_step hi h
  next := Posts.next_step hi h

/-! ## The end -/

theorem Finishes.terminalFact_step (hi : c.Finishes) (h : Step c c') :
    .groupTerminal ∈ c'.log ↔ c'.groupTerminal = true := by
  have hterminalFact := hi.terminalFact
  clear hi
  cases h <;> first | assumption | (simp <;> grind)

theorem Finishes.terminalStarted_step (hi : c.Finishes) (h : Step c c') :
    c'.groupTerminal = true → c'.groupStarted = true := by
  have hterminalStarted := hi.terminalStarted
  clear hi
  cases h <;> first | assumption | (simp; grind)

theorem Finishes.terminal_step (hi : c.Finishes) (h : Step c c') :
    c'.groupTerminal = true ↔ c'.terminalDone = true ∨ c'.running = some .terminal := by
  have hterminal := hi.terminal
  clear hi
  cases h <;> first | assumption | (simp <;> grind)

theorem Finishes.terminalRuns_step (hi : c.Finishes) (h : Step c c') :
    c'.running = some .terminal → c'.terminalDone = false := by
  have hterminalRuns := hi.terminalRuns
  have hterminal := hi.terminal
  clear hi
  cases h <;> first | assumption | (simp <;> grind)

/-- The stop worker and the end of the group terminal both look for the other one. -/
theorem Finishes.scheduled_step (hi : c.Finishes) (h : Step c c') :
    c'.finishScheduled = (c'.terminalDone && c'.drvStopStarted) := by
  have hscheduled := hi.scheduled
  clear hi
  cases h <;> first | assumption | (simp; grind)

theorem Finishes.place_step (hi : c.Inv) (h : Step c c') :
    (c'.queue.count .finishWorker + if c'.running = some .finish then 1 else 0) +
        (if c'.lifecycleOver then 1 else 0) =
      if c'.finishScheduled then 1 else 0 := by
  have hplace := hi.finishes.place
  have hscheduled := hi.finishes.scheduled
  have hruns := hi.finishes.terminalRuns
  have hstop := hi.stops.place
  clear hi
  cases h <;> first | assumption | (simp; grind)

theorem Finishes.overFact_step (hi : c.Finishes) (h : Step c c') :
    .lifecycleOver ∈ c'.log ↔ c'.lifecycleOver = true := by
  have hoverFact := hi.overFact
  clear hi
  cases h <;> first | assumption | (simp <;> grind)

theorem Finishes.stopped_step (hi : c.Finishes) (h : Step c c') :
    .stopped ∈ c'.log ↔ c'.onStopped = true ∧ c'.finishing := by
  have hstopped := hi.stopped
  have hplace := hi.place
  clear hi
  cases h <;> first | assumption | (simp; grind)

theorem Finishes.doorbellSrc_step (hi : c.Finishes) (h : Step c c') :
    c'.doorbellSrc = true ↔ c'.onDoorbell = true ∧ ¬c'.finishing := by
  have hdoorbellSrc := hi.doorbellSrc
  clear hi
  cases h <;> first | assumption | (simp; grind)

theorem Finishes.doorbellData_step (hi : c.Finishes) (h : Step c c') :
    c'.doorbellData = true → c'.doorbellSrc = true := by
  have hdoorbellData := hi.doorbellData
  clear hi
  cases h <;> first | assumption | (simp <;> grind)

theorem Finishes.doorbellRuns_step (hi : c.Finishes) (h : Step c c') :
    c'.running = some .doorbell → c'.lifecycleOver = false := by
  have hdoorbellRuns := hi.doorbellRuns
  have hdoorbellSrc := hi.doorbellSrc
  clear hi
  cases h <;> first | assumption | (simp <;> grind)

theorem Finishes.cancelled_step (hi : c.Finishes) (h : Step c c') :
    .groupCancelled ∈ c'.log → c'.drvStopStarted = true := by
  have hcancelled := hi.cancelled
  clear hi
  cases h <;> first | assumption | (simp <;> grind)

theorem Finishes.step (hi : c.Inv) (h : Step c c') : c'.Finishes where
  terminalFact := hi.finishes.terminalFact_step h
  terminalStarted := hi.finishes.terminalStarted_step h
  terminal := hi.finishes.terminal_step h
  terminalRuns := hi.finishes.terminalRuns_step h
  scheduled := hi.finishes.scheduled_step h
  place := Finishes.place_step hi h
  overFact := hi.finishes.overFact_step h
  stoppedDone := by
    have hdone := hi.finishes.stoppedDone
    clear hi
    cases h <;> first | assumption | rfl
  drv := by
    have hdrv := hi.finishes.drv
    clear hi
    cases h <;> first | assumption | rfl
  stopped := hi.finishes.stopped_step h
  doorbellSrc := hi.finishes.doorbellSrc_step h
  doorbellTimerSrc := by
    have htimer := hi.finishes.doorbellTimerSrc
    clear hi
    cases h <;> first | assumption | rfl
  doorbellData := hi.finishes.doorbellData_step h
  doorbellRuns := hi.finishes.doorbellRuns_step h
  cancelled := hi.finishes.cancelled_step h

/-! ## The memory -/

/-- The stop was begun when the lifecycle is over. -/
theorem Inv.stopped_of_over (hi : c.Inv) (h : c.lifecycleOver = true) :
    c.stopStarted = true :=
  (hi.stops.of_drvStop (hi.finishes.of_finishing (.inr h)).2).1

/-- Whichever comes second frees the handle: the last release, or the end of the lifecycle. -/
theorem Frees.place_step (hi : c.Inv) (h : Step c c') :
    (c'.handleFrees + if c'.running = some (.finishTail true) then 1 else 0) +
        (if .handleFreed ∈ c'.log then 1 else 0) =
      if c'.refs = 0 ∧ c'.lifecycleOver = true then 1 else 0 := by
  have hplace := hi.frees.place
  have hstopped := hi.stopped_of_over
  have hfinish := hi.finishes.place
  have hrefs := hi.stops.refs
  clear hi
  cases h <;> first | assumption | (simp; grind)

theorem Frees.tail_step (hi : c.Inv) (h : Step c c') :
    ∀ b, c'.running = some (.finishTail b) → c'.lifecycleOver = true ∧
      c'.lifecyclePinDropped = false := by
  have htail := hi.frees.tail
  have hdropped := hi.frees.dropped
  have hfinish := hi.finishes.place
  clear hi
  cases h <;> first | assumption | (simp <;> grind)

theorem Frees.dropped_step (hi : c.Inv) (h : Step c c') :
    c'.lifecyclePinDropped = true → c'.lifecycleOver = true := by
  have hdropped := hi.frees.dropped
  have htail := hi.frees.tail
  clear hi
  cases h <;> first | assumption | (simp <;> grind)

theorem Frees.pinned_step (hi : c.Inv) (h : Step c c') :
    c'.lifecyclePinDropped = false → c'.pins ≠ 0 := by
  have hpinned := hi.frees.pinned
  clear hi
  cases h <;> first | assumption | (simp <;> grind)

theorem Frees.driver_step (hi : c.Inv) (h : Step c c') :
    .driverFreed ∈ c'.log ↔ c'.pins = 0 := by
  have hdriver := hi.frees.driver
  have htail := hi.frees.tail
  have hpinned := hi.frees.pinned
  clear hi
  cases h <;> first | assumption | (simp; grind)

theorem Frees.step (hi : c.Inv) (h : Step c c') : c'.Frees where
  place := Frees.place_step hi h
  tail := Frees.tail_step hi h
  dropped := Frees.dropped_step hi h
  pinned := Frees.pinned_step hi h
  driver := Frees.driver_step hi h

end Steps

theorem Inv.step (hi : c.Inv) (h : Step c c') : c'.Inv where
  stops := hi.stops.step h
  posts := .step hi h
  finishes := .step hi h
  frees := .step hi h

theorem Inv.build (onStopped onDoorbell : Bool) : (build onStopped onDoorbell).Inv where
  stops := by constructor <;> simp [Conn.build, groupStarted]
  posts := by constructor <;> simp [Conn.build]
  finishes := by constructor <;> simp [Conn.build, finishing]
  frees := by constructor <;> simp [Conn.build]

theorem Inv.run {es : List Event} (hi : c.Inv) (h : c.run es = some c') : c'.Inv := by
  induction es generalizing c with
  | nil =>
    obtain rfl := Option.some.inj h
    exact hi
  | cons e es ih =>
    obtain ⟨d, hd, h⟩ := Option.bind_eq_some_iff.mp h
    exact ih (hi.step (step_cases hi hd)) h

end Conn

end Wtquic.Network
