-- SUMMARY: What every run of the managed lifecycle keeps, and what it comes to.
import Wtquic.Network.LifecycleInv

namespace Wtquic.Network

/-! # The history -/

/-- What must have happened, and what must not have happened, before a fact. -/
def Fact.Fits (l : Log) : Fact → Prop
  | .groupStarted => .groupStarted ∉ l
  | .groupCancelled => .groupStarted ∈ l ∧ .groupCancelled ∉ l
  | .accepted n => .accepted n ∉ l ∧ .rejected n ∉ l ∧ .stopQueued ∉ l
  | .rejected n => .accepted n ∉ l ∧ .rejected n ∉ l
  | .ran n => .accepted n ∈ l ∧ .rejected n ∉ l ∧ .ran n ∉ l ∧ .stopRan ∉ l
  | .stopQueued => .stopQueued ∉ l
  | .stopRan => .stopQueued ∈ l ∧ .stopRan ∉ l ∧ ∀ n, .accepted n ∈ l → .ran n ∈ l
  | .groupTerminal => .groupStarted ∈ l ∧ .groupTerminal ∉ l
  | .stopped => .groupTerminal ∈ l ∧ .stopRan ∈ l ∧ .stopped ∉ l
  | .doorbell => .stopped ∉ l ∧ .lifecycleOver ∉ l
  | .lifecycleOver => .groupTerminal ∈ l ∧ .stopRan ∈ l ∧ .lifecycleOver ∉ l
  | .joined => .lifecycleOver ∈ l
  | .handleFreed => .lifecycleOver ∈ l ∧ .handleFreed ∉ l
  | .driverFreed => .lifecycleOver ∈ l ∧ .driverFreed ∉ l

/-- Every fact fits the ones before it. -/
def Lawful : Log → Prop
  | [] => True
  | f :: l => f.Fits l ∧ Lawful l

/-- The facts that come again. -/
def Fact.repeats : Fact → Bool
  | .doorbell | .joined => true
  | _ => false

theorem Fact.Fits.notMem {l : Log} {f : Fact} (h : f.Fits l) (hf : f.repeats = false) : f ∉ l := by
  cases f with
  | doorbell => cases hf
  | joined => cases hf
  | groupStarted => exact h
  | stopQueued => exact h
  | accepted => exact h.1
  | ran => exact h.2.2.1
  | stopRan => exact h.2.1
  | stopped => exact h.2.2
  | lifecycleOver => exact h.2.2
  | _ => exact h.2

theorem Lawful.count_le {l : Log} {f : Fact} (h : Lawful l) (hf : f.repeats = false) :
    l.count f ≤ 1 := by
  induction l with
  | nil => exact Nat.zero_le _
  | cons g l ih =>
    by_cases hg : g = f
    · subst hg
      have hn : l.count g = 0 := List.count_eq_zero_of_not_mem (h.1.notMem hf)
      simp only [List.count_cons_self, hn, Nat.zero_add, Nat.le_refl]
    · rw [List.count_cons_of_ne hg]
      exact ih h.2

theorem Lawful.count_eq {l : Log} {f : Fact} (h : Lawful l) (hf : f.repeats = false)
    (hmem : f ∈ l) : l.count f = 1 :=
  Nat.le_antisymm (h.count_le hf) (List.count_pos_iff.mpr hmem)

variable {c c' : Conn}

namespace Conn

theorem Stops.groupStarted_of_state (hi : c.Stops) (h : c.startState = .started) :
    c.groupStarted = true := by
  rw [hi.state] at h
  unfold groupStarted
  cases hs : c.starter <;> simp_all

/-- The stop worker comes off the queue once. -/
theorem Stops.of_queued (hi : c.Stops) (h : .stopWorker ∈ c.queue) :
    c.stopEnqueued = true ∧ c.drvStopStarted = false := by
  have hp := hi.place
  have hn := List.count_pos_iff.mpr h
  cases he : c.stopEnqueued <;> cases hd : c.drvStopStarted <;> simp [he, hd] at hp ⊢ <;> omega

section Steps

attribute [local grind =] groupStarted finishing Fact.Fits Lawful drvLive

theorem Inv.lawful (hi : c.Inv) (hl : Lawful c.log) (h : Step c c') : Lawful c'.log := by
  obtain ⟨hstate, hstarted, hrefs, himplicit, hclosed, henqueued, hplace, hqueued, hran⟩ := hi.stops
  obtain ⟨hterminalFact, hterminalStarted, hterminal, hruns, hscheduled, hfplace, hover, hdone, hdrv,
    hstopped, hsrc, htimer, hdata, hbell, hcancelled⟩ := hi.finishes
  cases h with
  | accepted | rejected | runPost =>
    obtain ⟨hnodup, horder, hwait, hwaiting, haccepted, hranp, hrejected, hnext⟩ := hi.posts
    simp only [Lawful]
    grind
  | runStop bs l h hq hlog =>
    obtain ⟨hnodup, horder, hwait, hwaiting, haccepted, hranp, hrejected, hnext⟩ := hi.posts
    rw [hq, List.pairwise_cons] at horder
    have hbs : ∀ b ∈ bs, b.isPost = false := fun b hb => horder.1 b hb rfl
    have hall : ∀ n, .accepted n ∈ c.log → .ran n ∈ c.log := by
      intro n hn
      obtain hr | hr := haccepted n hn
      · exact hr
      · rw [hq] at hr
        obtain hr | hr := List.mem_cons.mp hr
        · cases hr
        · exact absurd (hbs _ hr) (by simp)
    have hmem : .stopWorker ∈ c.queue := by simp [hq]
    have hsw := hi.stops.of_queued hmem
    have hgs := hi.stops.groupStarted_of_state (henqueued.mp hsw.1).2
    obtain rfl | rfl := hlog <;> simp only [Lawful, List.nil_append, List.cons_append] <;> grind
  | runFinish => cases hs : c.onStopped <;> simp [Lawful] <;> grind
  | freeHandle | finishReturn | unpinShell =>
    obtain ⟨hplace, htail, hdropped, hpinned, hdriver⟩ := hi.frees
    simp only [Lawful]
    grind
  | _ =>
    simp only [Lawful]
    grind

end Steps

/-! # The steps that are left -/

end Conn

/-- A step that a thread or the domain takes by itself, without a call of the application and
without the transport. -/
def Event.internal : Event → Bool
  | .publish _ | .beginStart | .groupStart | .started | .enqueueLatchedStop | .releaseConstruction
  | .implicitStop | .enqueueStop | .freeHandle | .dequeue | .postReturn | .groupTerminalReturn
  | .doorbellFire | .doorbellReturn | .stoppedReturn | .finishReturn => true
  | _ => false

/-- A step that reads or writes the handle; the others only know the driver. -/
def Event.usesHandle : Event → Bool
  | .finishReturn | .groupTerminal | .connClose | .pinShell | .unpinShell => false
  | _ => true

/-! # The work that is left -/

def Starter.work : Starter → Nat
  | .built => 20
  | .creating | .scheduled => 19
  | .starting => 18
  | .startReturned => 17
  | .latched _ => 16
  | .releasing => 9
  | .done => 0

def Block.work : Block → Nat
  | .post _ => 12
  | .stopWorker => 6
  | .finishWorker => 4

def Running.work : Option Running → Nat
  | none => 0
  | some (.post _) => 10
  | some .terminal => 6
  | some .doorbell => 1
  | some .finish => 3
  | some (.finishTail _) => 2

namespace Conn

/-- Bounds the number of internal steps that can follow. -/
def work (c : Conn) : Nat :=
  c.starter.work + (c.queue.map Block.work).sum + Running.work c.running +
    2 * c.doorbellData.toNat + 8 * c.implicitStops + 7 * c.stopEnqueues + c.handleFrees

/-- Nothing happens any more by itself. -/
def Rested (c : Conn) : Prop := ∀ e : Event, e.internal = true → c.step e = none

theorem finishBlocks_work (c : Conn) : (c.finishBlocks.map Block.work).sum ≤ 4 := by
  unfold finishBlocks
  split <;> simp [Block.work]

theorem release_work (c : Conn) : c.release.work ≤ c.work + 8 := by
  by_cases h : c.refs = 0
  · simp [release, h]
  · have hone : 8 * c.releaseStops + c.releaseFrees ≤ 8 := by
      unfold releaseStops releaseFrees
      cases c.stopStarted <;> simp <;> split <;> omega
    rw [release_eq h]
    simp only [work]
    omega

theorem stopBegin_work (c : Conn) : c.stopBegin.work ≤ c.work + 7 := by
  unfold stopBegin
  split
  · omega
  · dsimp only
    split <;> simp only [work] <;> omega

theorem maybeScheduleFinish_work (c : Conn) : c.maybeScheduleFinish.work ≤ c.work + 4 := by
  have hb := finishBlocks_work c
  rw [maybeScheduleFinish_eq]
  simp only [work, List.map_append, List.sum_append]
  omega

theorem dispatch_work (b : Block) (c : Conn) : (c.dispatch b).work = c.work + b.work := by
  simp only [dispatch, work, List.map_append, List.sum_append, List.map_cons, List.map_nil,
    List.sum_cons, List.sum_nil]
  omega

theorem stopWorker_work (c : Conn) : c.stopWorker.work ≤ c.work + 4 := by
  unfold stopWorker
  dsimp only
  refine Nat.le_trans (maybeScheduleFinish_work _) ?_
  split <;> exact Nat.le_refl _

theorem finishWorker_work (h : c.running = none) : c.finishWorker.work ≤ c.work + 3 := by
  rw [finishWorker_eq]
  simp only [work, h, Running.work, Bool.toNat_false]
  omega

theorem runBlock_work (b : Block) (h : c.running = none) :
    (c.runBlock b).work + 1 ≤ c.work + b.work := by
  cases b with
  | post n =>
    simp only [runBlock, note, work, h, Running.work, Block.work]
    omega
  | stopWorker =>
    have := stopWorker_work c
    simp only [runBlock, Block.work]
    omega
  | finishWorker =>
    have := finishWorker_work h
    simp only [runBlock, Block.work]
    omega

theorem work_lt {e : Event} (he : e.internal = true) (h : c.step e = some c') :
    c'.work < c.work := by
  cases e with
  | publish main =>
    obtain ⟨hs, rfl⟩ := of_guard h
    cases main <;> simp [work, hs, Starter.work]
  | beginStart =>
    obtain ⟨hs, rfl⟩ := of_guard h
    obtain hs | hs := hs <;> simp [work, hs, Starter.work]
  | groupStart =>
    obtain ⟨hs, rfl⟩ := of_guard h
    simp [note, work, hs, Starter.work]
  | started =>
    obtain ⟨hs, rfl⟩ := of_guard h
    unfold started
    dsimp only
    split <;> simp [work, hs, Starter.work]
  | enqueueLatchedStop =>
    simp only [step] at h
    split at h
    · rename_i hs
      obtain rfl := Option.some.inj h
      rw [show ∀ d : Conn, (d.note .stopQueued).work = d.work from fun _ => rfl, dispatch_work]
      simp only [work, hs, Starter.work, Block.work]
      omega
    · rename_i hs
      obtain rfl := Option.some.inj h
      simp only [work, hs, Starter.work]
      omega
    · cases h
  | releaseConstruction =>
    obtain ⟨hs, rfl⟩ := of_guard h
    refine Nat.lt_of_le_of_lt (release_work _) ?_
    simp only [work, hs, Starter.work]
    omega
  | implicitStop =>
    obtain ⟨hs, rfl⟩ := of_guard h
    refine Nat.lt_of_le_of_lt (stopBegin_work _) ?_
    simp only [work]
    omega
  | enqueueStop =>
    obtain ⟨hs, rfl⟩ := of_guard h
    rw [show ∀ d : Conn, (d.note .stopQueued).work = d.work from fun _ => rfl, dispatch_work]
    simp only [work, Block.work]
    omega
  | freeHandle =>
    obtain ⟨hs, rfl⟩ := of_guard h
    simp only [note, work]
    omega
  | dequeue =>
    simp only [step] at h
    split at h
    · rename_i b bs hr hq
      obtain rfl := Option.some.inj h
      have hb := runBlock_work (c := { c with queue := bs }) b hr
      have hw : c.work = { c with queue := bs }.work + b.work := by
        simp only [work, hq, List.map_cons, List.sum_cons]
        omega
      omega
    · cases h
  | postReturn =>
    simp only [step] at h
    split at h
    · rename_i n hr
      obtain rfl := Option.some.inj h
      refine Nat.lt_of_le_of_lt (release_work _) ?_
      simp only [work, hr, Running.work]
      omega
    · cases h
  | groupTerminalReturn =>
    obtain ⟨hs, rfl⟩ := of_guard h
    refine Nat.lt_of_le_of_lt (maybeScheduleFinish_work _) ?_
    simp only [work, hs, Running.work]
    omega
  | doorbellFire =>
    obtain ⟨hs, rfl⟩ := of_guard h
    simp [note, work, hs, Running.work]
  | doorbellReturn =>
    obtain ⟨hs, rfl⟩ := of_guard h
    simp [work, hs, Running.work]
  | stoppedReturn =>
    obtain ⟨hs, rfl⟩ := of_guard h
    simp [finishSection, note, work, hs, Running.work]
  | finishReturn =>
    simp only [step] at h
    split at h
    · rename_i b hr
      obtain rfl := Option.some.inj h
      rw [finishTail_eq]
      simp [work, hr, Running.work]
    · cases h
  | _ => cases he

/-- The internal steps come to an end. -/
theorem exists_rested (c : Conn) :
    ∃ es c', (∀ e ∈ es, Event.internal e = true) ∧ c.run es = some c' ∧ c'.Rested := by
  induction hn : c.work using Nat.strongRecOn generalizing c with
  | ind n ih =>
    by_cases hr : c.Rested
    · exact ⟨[], c, by simp, rfl, hr⟩
    · simp only [Rested, not_forall] at hr
      obtain ⟨e, he, hs⟩ := hr
      obtain ⟨d, hd⟩ := Option.ne_none_iff_exists'.mp hs
      obtain ⟨es, c', hes, hrun, hrest⟩ := ih d.work (hn ▸ work_lt he hd) d rfl
      refine ⟨e :: es, c', ?_, ?_, hrest⟩
      · simpa [he] using hes
      · rw [run, hd]
        exact hrun

/-! # At rest -/

/-- What a rested handle has come to. -/
structure AtRest (c : Conn) : Prop where
  started : c.log.count .groupStarted = 1
  stop : c.stopStarted = true ∨ c.refs = 0 →
    c.log.count .stopQueued = 1 ∧ c.log.count .stopRan = 1
  posts : ∀ n, .accepted n ∈ c.log → c.log.count (.ran n) = 1
  stopped : .groupTerminal ∈ c.log → .stopRan ∈ c.log →
    c.log.count .lifecycleOver = 1 ∧ (c.onStopped = true → c.log.count .stopped = 1)
  freed : c.refs = 0 → .lifecycleOver ∈ c.log → c.log.count .handleFreed = 1

theorem Rested.starter (hr : c.Rested) : c.starter = .done := by
  cases hs : c.starter with
  | built => simpa [step, hs] using hr (.publish true) rfl
  | creating | scheduled => simpa [step, hs] using hr .beginStart rfl
  | starting => simpa [step, hs] using hr .groupStart rfl
  | startReturned => simpa [step, hs] using hr .started rfl
  | latched b => cases b <;> simpa [step, hs] using hr .enqueueLatchedStop rfl
  | releasing => simpa [step, hs] using hr .releaseConstruction rfl
  | done => rfl

theorem Rested.running (hr : c.Rested) : c.running = none := by
  match hs : c.running with
  | none => rfl
  | some (.post n) => simpa [step, hs] using hr .postReturn rfl
  | some .terminal => simpa [step, hs] using hr .groupTerminalReturn rfl
  | some .doorbell => simpa [step, hs] using hr .doorbellReturn rfl
  | some .finish => simpa [step, hs] using hr .stoppedReturn rfl
  | some (.finishTail b) => simpa [step, hs] using hr .finishReturn rfl

theorem Rested.queue (hr : c.Rested) : c.queue = [] := by
  cases hs : c.queue with
  | nil => rfl
  | cons b bs => simpa [step, hr.running, hs] using hr .dequeue rfl

theorem Rested.tokens (hr : c.Rested) :
    c.implicitStops = 0 ∧ c.stopEnqueues = 0 ∧ c.handleFrees = 0 := by
  have hi := hr .implicitStop rfl
  have he := hr .enqueueStop rfl
  have hf := hr .freeHandle rfl
  simp only [step, ite_eq_right_iff, reduceCtorEq, imp_false, Decidable.not_not] at hi he hf
  exact ⟨hi, he, hf⟩

theorem Rested.atRest (hi : c.Inv) (hl : Lawful c.log) (hr : c.Rested) : c.AtRest := by
  have hstart := hr.starter
  have hrun := hr.running
  have hqueue := hr.queue
  obtain ⟨himplicit, henqueue, hfree⟩ := hr.tokens
  have hstate : c.startState = .started := by rw [hi.stops.state, hstart]; rfl
  refine ⟨?_, ?_, ?_, ?_, ?_⟩
  · have hg : c.groupStarted = true := hi.stops.groupStarted_of_state hstate
    exact hl.count_eq rfl (hi.stops.started.mpr hg)
  · intro hstop
    have hs : c.stopStarted = true := by
      obtain hs | h0 := hstop
      · exact hs
      · have := hi.stops.implicit
        cases hs : c.stopStarted with
        | true => rfl
        | false => simp [himplicit, h0, hs] at this
    have he := hi.stops.enqueued.mpr ⟨hs, hstate⟩
    have hd : c.drvStopStarted = true := by
      have := hi.stops.place
      cases hd : c.drvStopStarted with
      | true => rfl
      | false => simp [henqueue, hstart, hqueue, hd, he] at this
    exact ⟨hl.count_eq rfl (hi.stops.queued.mpr (.inr hd)), hl.count_eq rfl (hi.stops.ran.mpr hd)⟩
  · intro n hn
    obtain h | h := hi.posts.accepted n hn
    · exact hl.count_eq rfl h
    · simp [hqueue] at h
  · intro ht hs
    have hf : c.finishScheduled = true := by
      have htd := hi.finishes.terminal.mp (hi.finishes.terminalFact.mp ht)
      rw [hi.finishes.scheduled, hi.stops.ran.mp hs]
      simpa [hrun] using htd
    have ho : c.lifecycleOver = true := by
      have := hi.finishes.place
      cases ho : c.lifecycleOver with
      | true => rfl
      | false => simp [hqueue, hrun, hf, ho] at this
    refine ⟨hl.count_eq rfl (hi.finishes.overFact.mpr ho), fun hon => ?_⟩
    exact hl.count_eq rfl (hi.finishes.stopped.mpr ⟨hon, .inr ho⟩)
  · intro h0 ho
    apply hl.count_eq rfl
    have hp := hi.frees.place
    simp only [hfree, hrun, h0, hi.finishes.overFact.mp ho] at hp
    by_cases hf : .handleFreed ∈ c.log
    · exact hf
    · simp [hf] at hp

/-! # Behind the end of the handle -/

theorem Inv.of_freed (hi : c.Inv) (h : .handleFreed ∈ c.log) :
    c.refs = 0 ∧ c.lifecycleOver = true ∧ c.handleFrees = 0 := by
  have hp := hi.frees.place
  by_cases h0 : c.refs = 0 ∧ c.lifecycleOver = true
  · rw [if_pos h, if_pos h0] at hp
    exact ⟨h0.1, h0.2, by omega⟩
  · rw [if_pos h, if_neg h0] at hp
    omega

/-- The domain has nothing to do with the handle any more. -/
theorem Inv.domain_of_freed (hi : c.Inv) (h : .handleFreed ∈ c.log) :
    c.queue = [] ∧ (c.running = none ∨ c.running = some (.finishTail false)) := by
  obtain ⟨h0, ho, -⟩ := hi.of_freed h
  have hrefs := hi.stops.refs
  have hplace := hi.finishes.place
  have hstop := hi.stops.place
  obtain ⟨hterm, hdrv⟩ := hi.finishes.of_finishing (.inr ho)
  have hs : c.finishScheduled = true := by simp [hi.finishes.scheduled, hterm, hdrv]
  constructor
  · rw [List.eq_nil_iff_forall_not_mem]
    intro b hb
    cases b with
    | post n => simpa using hi.posts.afterStop hdrv _ hb
    | stopWorker =>
      have := (hi.stops.of_queued hb).2
      simp [hdrv] at this
    | finishWorker =>
      have := List.count_pos_iff.mpr hb
      simp only [ho, hs, if_true] at hplace
      omega
  · match hr : c.running with
    | none => exact .inl rfl
    | some (.finishTail false) => exact .inr rfl
    | some (.finishTail true) =>
      have hp := hi.frees.place
      simp [hr, h, h0, ho] at hp
    | some (.post n) =>
      simp only [hr, Running.refs] at hrefs
      omega
    | some .terminal =>
      have := hi.finishes.terminalRuns hr
      simp [hterm] at this
    | some .doorbell =>
      have := hi.finishes.doorbellRuns hr
      simp [ho] at this
    | some .finish =>
      simp only [ho, hs, hr, if_true] at hplace
      omega

theorem Inv.unused_of_freed (hi : c.Inv) (h : .handleFreed ∈ c.log) {e : Event}
    (he : e.usesHandle = true) : c.step e = none := by
  obtain ⟨h0, ho, hf⟩ := hi.of_freed h
  obtain ⟨hqueue, hrun⟩ := hi.domain_of_freed h
  have husable : c.usable = false := by simp [usable, h0]
  have hrefs := hi.stops.refs
  have hstart : c.starter = .done := by
    cases hs : c.starter <;> simp only [hs, Starter.refs] at hrefs <;> first | rfl | omega
  have hdrv := (hi.finishes.of_finishing (.inr ho)).2
  have hstop := hi.stops.of_drvStop hdrv
  have himplicit : c.implicitStops = 0 := by rw [hi.stops.implicit, hstop.1]; simp
  have henqueue : c.stopEnqueues = 0 := by
    have hp := hi.stops.place
    simp only [hdrv, hi.stops.enqueued.mpr hstop, if_true] at hp
    omega
  have hsrc : c.doorbellSrc = false := by
    cases hs : c.doorbellSrc with
    | false => rfl
    | true => exact absurd (.inr ho) (hi.finishes.doorbellSrc.mp hs).2
  have htimer := hi.finishes.doorbellTimerSrc.trans hsrc
  cases e with
  | groupTerminal | connClose | pinShell | unpinShell | finishReturn => cases he
  | _ =>
    obtain hrun | hrun := hrun <;>
      simp [Conn.step, husable, hstart, hqueue, hrun, himplicit, henqueue, hf, hsrc, htimer]

/-- What holds of the managed lifecycle in every state. -/
structure Sound (c : Conn) : Prop where
  lawful : Lawful c.log
  freed : .handleFreed ∈ c.log → c.refs = 0 ∧ .lifecycleOver ∈ c.log
  unused : .handleFreed ∈ c.log → ∀ e : Event, e.usesHandle = true → c.step e = none
  rest : c.Rested → c.AtRest
  settles : ∃ es c', (∀ e ∈ es, Event.internal e = true) ∧ c.run es = some c' ∧ c'.Rested

theorem Inv.run_lawful {es : List Event} (hi : c.Inv) (hl : Lawful c.log)
    (h : c.run es = some c') : Lawful c'.log := by
  induction es generalizing c with
  | nil =>
    obtain rfl := Option.some.inj h
    exact hl
  | cons e es ih =>
    obtain ⟨d, hd, h⟩ := Option.bind_eq_some_iff.mp h
    have hstep := step_cases hi hd
    exact ih (hi.step hstep) (hi.lawful hl hstep) h

theorem lifecycle_sound (onStopped onDoorbell : Bool) (es : List Event)
    (h : (build onStopped onDoorbell).run es = some c) : c.Sound := by
  have hi : c.Inv := (Inv.build onStopped onDoorbell).run h
  have hl : Lawful c.log := (Inv.build onStopped onDoorbell).run_lawful trivial h
  exact {
    lawful := hl
    freed := fun hf => ⟨(hi.of_freed hf).1, hi.finishes.overFact.mpr (hi.of_freed hf).2.1⟩
    unused := fun hf _ he => hi.unused_of_freed hf he
    rest := fun hr => hr.atRest hi hl
    settles := exists_rested c }

/-- A creator off the main thread posts, stops and releases before the group is started. -/
theorem lifecycle_early_stop :
    ∃ c, (build true true).run
        [.publish false, .post true, .stopBegin, .post true, .release, .beginStart, .groupStart,
          .started, .enqueueLatchedStop, .releaseConstruction, .dequeue, .postReturn, .dequeue,
          .groupTerminal, .groupTerminalReturn, .dequeue, .stoppedReturn, .finishReturn] = some c ∧
      c.Sound :=
  (fun h => ⟨_, (Option.some_get h).symm, lifecycle_sound true true _ (Option.some_get h).symm⟩)
    (by decide)

/-- What that run writes. -/
example :
    ((build true true).run
        [.publish false, .post true, .stopBegin, .post true, .release, .beginStart, .groupStart,
          .started, .enqueueLatchedStop, .releaseConstruction, .dequeue, .postReturn, .dequeue,
          .groupTerminal, .groupTerminalReturn, .dequeue, .stoppedReturn, .finishReturn]).map log =
      some [.driverFreed, .handleFreed, .lifecycleOver, .stopped, .groupTerminal, .groupCancelled,
        .stopRan, .ran 0, .stopQueued, .groupStarted, .rejected 1, .accepted 0] := by
  decide

end Conn

end Wtquic.Network
