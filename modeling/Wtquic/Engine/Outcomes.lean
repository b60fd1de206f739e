-- SUMMARY: The session has one outcome, reported before the end of the connection, and nothing comes after.
import Wtquic.Engine.Links

namespace Wtquic.Engine

/-! # Session outcomes -/

variable {σ : Type} {E : Ctx σ} {N : News} {D : Doomed} {w w' : World σ}

/-! ## What the application has heard -/

/-- How far the application has been told of the session. -/
inductive Stage where
  | fresh | live | ended | dead
  deriving DecidableEq, Repr

/-- The stage behind a callback, if the callback may come at all. -/
def Stage.next : Stage → Callback → Option Stage
  | .fresh, .sessionEstablished _ => some .live
  | .fresh, .sessionRejected _ | .fresh, .sessionFailed _ => some .ended
  | .live, .sessionClosed _ _ _ => some .ended
  | .ended, .connError _ => some .dead
  | .dead, c => if c.isSendComplete then some .dead else none
  | s, c => if c.plain then some s else none

/-- The stage behind a trace. -/
def stage : List Out → Option Stage
  | [] => some .fresh
  | .cb c :: t => (stage t).bind (·.next c)
  | _ :: t => stage t

def Out.isEstablished : Out → Bool
  | .cb (.sessionEstablished _) => true
  | _ => false

/-- A terminal outcome of the session. -/
def Out.isOutcome : Out → Bool
  | .cb (.sessionRejected _) | .cb (.sessionFailed _) | .cb (.sessionClosed _ _ _) => true
  | _ => false

def Out.isConnError : Out → Bool
  | .cb (.connError _) => true
  | _ => false

/-- What a trace may tell of the session: one outcome at most, whose kind fits what came
before, and one end of the connection at most, after the outcome and before nothing but
send completions. -/
structure Reports (t : List Out) : Prop where
  outcome : t.countP Out.isOutcome ≤ 1
  established : t.countP Out.isEstablished ≤ 1
  early : ∀ ev u, .cb (.sessionEstablished ev) :: u <:+ t → u.countP Out.isOutcome = 0
  closed : ∀ code reason clean u, .cb (.sessionClosed code reason clean) :: u <:+ t →
    u.countP Out.isEstablished = 1
  error : ∀ err u, .cb (.connError err) :: u <:+ t →
    u.countP Out.isOutcome = 1 ∧ u.countP Out.isConnError = 0
  silent : ∀ c u, .cb c :: u <:+ t → u.countP Out.isConnError ≠ 0 → c.isSendComplete

/-- How many outcomes, ends and establishments there have been at each stage. -/
structure Stage.Counted (s : Stage) (outcomes errors established : Nat) : Prop where
  outcome : outcomes = if s = .ended ∨ s = .dead then 1 else 0
  error : errors = if s = .dead then 1 else 0
  once : established ≤ 1
  fresh : s = .fresh → established = 0
  live : s = .live → established = 1

namespace Stage

variable {s q : Stage} {t u : List Out}

theorem Counted.next {c : Callback} {a b e : Nat} (h : s.Counted a b e) (hn : s.next c = some q) :
    q.Counted (a + if (Out.cb c).isOutcome then 1 else 0)
      (b + if (Out.cb c).isConnError then 1 else 0)
      (e + if (Out.cb c).isEstablished then 1 else 0) := by
  obtain ⟨rfl, rfl, hle, hf, hl⟩ := h
  cases s with
  | dead =>
    -- only a send completion leaves a stage behind
    cases c <;> simp [Stage.next, Callback.isSendComplete] at hn
    cases hn
    exact ⟨rfl, rfl, hle, nofun, nofun⟩
  | fresh =>
    cases c <;> cases hn <;>
      exact ⟨rfl, rfl, by simp [hf rfl, Out.isEstablished],
        by simp [hf rfl, Out.isEstablished], by simp [hf rfl, Out.isEstablished]⟩
  | live =>
    cases c <;> cases hn <;> exact ⟨rfl, rfl, hle, nofun, by simp [hl rfl, Out.isEstablished]⟩
  | ended =>
    cases c <;> cases hn <;> exact ⟨rfl, rfl, hle, nofun, nofun⟩

/-- The counts of a trace that has a stage. -/
theorem counted (h : stage t = some s) :
    s.Counted (t.countP Out.isOutcome) (t.countP Out.isConnError) (t.countP Out.isEstablished) := by
  induction t generalizing s with
  | nil =>
    cases h
    exact ⟨rfl, rfl, Nat.zero_le _, fun _ => rfl, nofun⟩
  | cons o t ih =>
    cases o with
    | cb c =>
      obtain ⟨r, hr, hn⟩ := Option.bind_eq_some_iff.mp h
      simp only [List.countP_cons]
      exact (ih hr).next hn
    | _ => exact ih h

theorem suffix (h : stage t = some s) (hu : u <:+ t) : ∃ r, stage u = some r := by
  induction t generalizing s with
  | nil =>
    rw [List.suffix_nil.mp hu]
    exact ⟨_, rfl⟩
  | cons o t ih =>
    rcases List.suffix_cons_iff.mp hu with rfl | hsuf
    · exact ⟨s, h⟩
    · cases o with
      | cb c =>
        obtain ⟨r, hr, -⟩ := Option.bind_eq_some_iff.mp h
        exact ih hr hsuf
      | _ => exact ih h hsuf

/-- The stage right before a callback. -/
theorem before {c : Callback} (h : stage t = some s) (hu : .cb c :: u <:+ t) :
    ∃ r q : Stage, r.Counted (u.countP Out.isOutcome) (u.countP Out.isConnError)
      (u.countP Out.isEstablished) ∧ r.next c = some q := by
  obtain ⟨q, hq⟩ := suffix h hu
  obtain ⟨r, hr, hn⟩ := Option.bind_eq_some_iff.mp hq
  exact ⟨r, q, counted hr, hn⟩

end Stage

/-- A trace that has a stage tells what it may. -/
theorem Reports.of_stage {t : List Out} {s : Stage} (h : stage t = some s) : Reports t := by
  have hc := Stage.counted h
  refine ⟨?_, hc.once, fun ev u hu => ?_, fun code reason clean u hu => ?_, fun err u hu => ?_,
    fun c u hu he => ?_⟩
  · rw [hc.outcome]
    split <;> omega
  · obtain ⟨r, q, hr, hn⟩ := Stage.before h hu
    cases r <;> cases hn
    exact hr.outcome
  · obtain ⟨r, q, hr, hn⟩ := Stage.before h hu
    cases r <;> cases hn
    exact hr.live rfl
  · obtain ⟨r, q, hr, hn⟩ := Stage.before h hu
    cases r <;> cases hn
    exact ⟨hr.outcome, hr.error⟩
  · obtain ⟨r, q, hr, hn⟩ := Stage.before h hu
    cases r with
    | dead =>
      by_contra hs
      simp [Stage.next, hs] at hn
    | _ => exact absurd hr.error he

/-! ## The session ends -/

/-- Has the session ended without the application having heard of it? -/
def closing : List Out → Bool
  | [] => false
  | .sess s :: _ => s == .closed
  | .cb (.sessionClosed _ _ _) :: _ => false
  | _ :: t => closing t

/-- A shutdown of a stream that is fatal to the connection. -/
def Out.shutdownFailed : Out → Bool
  | .op (.shutdownStream _ _) r => r.rc ≠ .ok && r.rc ≠ .closed
  | _ => false

/-- No shutdown of a stream fails while the session ends. -/
def Steadfast : List Out → Prop
  | [] => True
  | o :: t => (closing t → o.shutdownFailed = false) ∧ Steadfast t

instance decidableSteadfast : (t : List Out) → Decidable (Steadfast t)
  | [] => .isTrue trivial
  | o :: t =>
    have := decidableSteadfast t
    inferInstanceAs (Decidable ((closing t → o.shutdownFailed = false) ∧ Steadfast t))

theorem Steadfast.suffix {t u : List Out} (h : Steadfast t) (hu : u <:+ t) : Steadfast u := by
  induction t with
  | nil =>
    rw [List.suffix_nil.mp hu]
    trivial
  | cons o t ih =>
    rcases List.suffix_cons_iff.mp hu with rfl | hsuf
    · exact h
    · exact ih h.2 hsuf

/-- The stage fits the state of the session and of the connection. -/
def Stage.Fits (c : Conn) : Stage → Prop
  | .fresh => c.sessState.early ∧ c.closed = false
  | .live => c.sessState.active ∧ c.closed = false
  | .ended => c.sessState.over ∧ c.closed = false
  | .dead => c.sessState.over ∧ c.closed

/-- What the application has been told is true. -/
def Told (w : World σ) : Prop := ∃ s, stage w.trace = some s ∧ s.Fits w.conn

theorem Stage.Fits.of_eq {s : Stage} {c c' : Conn} (h : s.Fits c) (hs : c'.sessState = c.sessState)
    (hc : c'.closed = c.closed) : s.Fits c' := by
  cases s <;> simpa only [Stage.Fits, hs, hc] using h

/-- The trace grows, and if its driver is steadfast what the application has been told stays true. -/
def Tells (w w' : World σ) : Prop :=
  w.trace <:+ w'.trace ∧ (Told w → Steadfast w'.trace → Told w')

@[refl] theorem Tells.refl (w : World σ) : Tells w w := ⟨List.suffix_refl _, fun h _ => h⟩

theorem Tells.trans (h : Tells w w') (h' : Tells w' w'') : Tells w w'' :=
  ⟨h.1.trans h'.1, fun ht hs => h'.2 (h.2 ht (hs.suffix h'.1)) hs⟩

namespace Told

/-- Nothing is said. -/
theorem same (h : Told w) (ht : stage w'.trace = stage w.trace)
    (hs : w'.conn.sessState = w.conn.sessState) (hc : w'.conn.closed = w.conn.closed) :
    Told w' := by
  obtain ⟨s, hst, hfit⟩ := h
  exact ⟨s, ht.trans hst, hfit.of_eq hs hc⟩

theorem stage_of_early (h : Told w) (he : w.conn.sessState.early) :
    stage w.trace = some .fresh := by
  obtain ⟨s, hst, hfit⟩ := h
  cases s with
  | fresh => exact hst
  | _ =>
    have hs := hfit.1
    revert he hs
    cases w.conn.sessState <;> simp [SessState.early, SessState.active, SessState.over]

theorem stage_of_active (h : Told w) (ha : w.conn.sessState.active) :
    stage w.trace = some .live := by
  obtain ⟨s, hst, hfit⟩ := h
  cases s with
  | live => exact hst
  | _ =>
    have hs := hfit.1
    revert ha hs
    cases w.conn.sessState <;> simp [SessState.early, SessState.active, SessState.over]

/-- An open connection whose session is over has told so. -/
theorem stage_of_over (h : Told w) (ho : w.conn.sessState.over) (hc : w.conn.closed = false) :
    stage w.trace = some .ended := by
  obtain ⟨s, hst, hfit⟩ := h
  cases s with
  | ended => exact hst
  | dead => simp [Stage.Fits, hc] at hfit
  | _ =>
    have hs := hfit.1
    revert ho hs
    cases w.conn.sessState <;> simp [SessState.early, SessState.active, SessState.over]

/-- A callback that is no part of the session's life. -/
theorem plain {c : Callback} (h : Told w) (hc : c.plain)
    (ho : w.conn.closed = false ∨ c.isSendComplete) : Told (w.log (.cb c)) := by
  obtain ⟨s, hst, hfit⟩ := h
  refine ⟨s, ?_, hfit⟩
  simp only [World.trace_log, stage, hst, Option.bind_some]
  cases s with
  | dead =>
    have hsend : c.isSendComplete := ho.resolve_left (by simp [hfit.2])
    simp [Stage.next, hsend]
  | _ => cases c <;> simp_all [Stage.next, Callback.plain]

end Told

/-! ## Teardown -/

/-- A function for failures that a steadfast driver keeps from doing anything. -/
def Hushed (E : Ctx σ) (fatal : Nat → World σ → World σ) : Prop :=
  ∀ ds a r code (w : World σ), closing w.trace →
    Steadfast (shutdownRawWith E fatal ds a r code w).trace →
      ∃ o, shutdownRawWith E fatal ds a r code w = (w.op E o).2

theorem hushed_skip : Hushed E (fun _ (w : World σ) => w) := by
  intro ds a r code w _ _
  unfold shutdownRawWith
  dsimp only
  split
  · exact ⟨_, rfl⟩
  · exact ⟨_, rfl⟩

theorem hushed_connFatal (hE : E.Lawful) : Hushed E (connFatal E) := by
  intro ds a r code w hclosing hs
  unfold shutdownRawWith at hs ⊢
  dsimp only at hs ⊢
  split at hs
  · next hfail =>
    -- the failed operation is in the trace of the dead connection
    have hop := (hs.suffix (Frame.connFatal (S := .call) hE _ _).trace).1 hclosing
    simp only [Out.shutdownFailed, Bool.and_eq_false_iff, decide_eq_false_iff_not] at hop
    exact absurd hop (by simpa using hfail)
  · next hok =>
    rw [if_neg hok]
    exact ⟨_, rfl⟩

theorem stage_detachEs (i : Nat) (w : World σ) : stage (detachEs E i w).trace = stage w.trace ∧
    closing (detachEs E i w).trace = closing w.trace := by
  unfold detachEs
  split
  · exact ⟨rfl, rfl⟩
  · exact ⟨rfl, rfl⟩

/-- The teardown of a session says nothing, and with a steadfast driver it does not fail. -/
theorem teardown_hushed {fatal : Nat → World σ → World σ} (hf : FatalOk fatal)
    (hh : Hushed E fatal) (is : List Nat) (hs : w.conn.sessState = .closed)
    (hc : closing w.trace) (ht : Steadfast (teardown E fatal is w).trace) :
    stage (teardown E fatal is w).trace = stage w.trace ∧
      (teardown E fatal is w).conn.closed = w.conn.closed := by
  have hround := (teardown_induct (E := E) hf (P := fun v => Steadfast v.trace →
    closing v.trace ∧ stage v.trace = stage w.trace ∧ v.conn.closed = w.conn.closed) is hs
    (fun _ => ⟨hc, rfl, rfl⟩) ?_).1 ht
  · exact hround.2
  intro v i hv ih hst
  obtain ⟨hcl, hstage, hclosed⟩ := ih (hst.suffix (Frame.teardownSlot (S := .call) hf hv i).trace)
  rw [teardownSlot_eq] at hst ⊢
  split
  · exact ⟨hcl, hstage, hclosed⟩
  next hk =>
  rw [if_neg hk] at hst
  -- the shutdown of the stream adds one operation, and its release another
  have hshut : Steadfast (teardownShutdown E fatal i v).trace →
      closing (teardownShutdown E fatal i v).trace ∧
        stage (teardownShutdown E fatal i v).trace = stage w.trace ∧
        (teardownShutdown E fatal i v).conn.closed = w.conn.closed := by
    intro hst
    unfold teardownShutdown at hst ⊢
    dsimp only at hst ⊢
    split
    · next hop =>
      rw [if_pos hop] at hst
      obtain ⟨o, ho⟩ := hh _ _ _ _ v hcl hst
      rw [ho]
      exact ⟨hcl, hstage, hclosed⟩
    · exact ⟨hcl, hstage, hclosed⟩
  have hmod := hshut (hst.suffix (by
    simpa using (Frame.wtReleaseIfDone (S := .call) (E := E) i
      ((teardownShutdown E fatal i v).modEs i Estream.closeBoth)).trace))
  generalize teardownShutdown E fatal i v = u at hmod ⊢
  unfold wtReleaseIfDone
  split
  · simp only [estreamRelease, World.trace_putEs, trace_admissionLetGo, stage_detachEs,
      World.trace_audit, World.trace_modEs, World.conn_putEs, conn_admissionLetGo, conn_detachEs,
      World.conn_audit, World.conn_modEs]
    exact hmod
  · simpa using hmod

/-! ## Connection death -/

/-- A callback on a closed connection is heard, and no more. -/
theorem notify_closed (hE : E.Lawful) (c : Callback) (hc : w.conn.closed) :
    (E.notify c w).trace = .ret :: .cb c :: w.trace ∧
      (E.notify c w).conn.sessState = w.conn.sessState ∧ (E.notify c w).conn.closed := by
  have hq := hE.quiet c w hc
  obtain ⟨te, user, he⟩ := hq.conn
  exact ⟨hq.trace, by rw [he]; rfl, by rw [he]; exact hc⟩

/-- The session of a dying connection gets its outcome, unless it had one. -/
theorem sessionConnLost_told (hE : E.Lawful) {s : Stage} (hst : stage w.trace = some s)
    (hfit : s.Fits { w.conn with closed := false }) (hc : w.conn.closed)
    (hs : Steadfast (sessionConnLost E w).trace) :
    stage (sessionConnLost E w).trace = some .ended ∧
      (sessionConnLost E w).conn.sessState.over ∧ (sessionConnLost E w).conn.closed := by
  have hended : w.conn.sessState.active →
      Steadfast (sessionClosedWith E (fun _ w => w) 0 [] false w).trace →
      stage (sessionClosedWith E (fun _ w => w) 0 [] false w).trace = some .ended ∧
        (sessionClosedWith E (fun _ w => w) 0 [] false w).conn.sessState.over ∧
        (sessionClosedWith E (fun _ w => w) 0 [] false w).conn.closed := by
    intro ha hs
    have hlive : stage w.trace = some .live := by
      cases s with
      | live => exact hst
      | _ =>
        have := hfit.1
        revert ha this
        cases w.conn.sessState <;> simp [SessState.early, SessState.active, SessState.over]
    rw [sessionClosedWith_eq, if_neg (by simpa [sessionActive] using ha)] at hs ⊢
    have htear := teardown_hushed (E := E) (w := w.setSess .closed) fatalOk_skip hushed_skip
      (List.range w.conn.streamCapacity) rfl rfl
      (hs.suffix (hE.frame _ _).trace)
    have hover := (teardown_induct (E := E) (w := w.setSess .closed) fatalOk_skip
      (P := fun _ => True) (List.range w.conn.streamCapacity) rfl trivial
      fun _ _ _ _ => trivial).2
    generalize teardown E (fun _ w => w) (List.range w.conn.streamCapacity) (w.setSess .closed) = v
      at htear hover ⊢
    obtain ⟨htr, hsess, hcl⟩ := notify_closed (w := v) hE (.sessionClosed 0 [] false)
      (htear.2.trans hc)
    refine ⟨?_, by rw [hsess, hover]; rfl, hcl⟩
    rw [htr]
    simp only [stage, htear.1, World.trace_setSess, hlive]
    rfl
  have hfailed : w.conn.sessState.early →
      stage (sessionFailed E .connection w).trace = some .ended ∧
        (sessionFailed E .connection w).conn.sessState.over ∧
        (sessionFailed E .connection w).conn.closed := by
    intro he
    have hfresh : stage w.trace = some .fresh := by
      cases s with
      | fresh => exact hst
      | _ =>
        have := hfit.1
        revert he this
        cases w.conn.sessState <;> simp [SessState.early, SessState.active, SessState.over]
    obtain ⟨htr, hsess, hcl⟩ := notify_closed (w := w.setSess .failed) hE
      (.sessionFailed .connection) hc
    refine ⟨?_, by rw [sessionFailed, hsess]; rfl, hcl⟩
    rw [sessionFailed, htr]
    simp only [stage, World.trace_setSess, hfresh]
    rfl
  unfold Engine.sessionConnLost at hs ⊢
  cases hss : w.conn.sessState with
  | established | draining =>
    rw [hss] at hs
    exact hended (by simp [hss, SessState.active]) hs
  | idle | pending | sent => exact hfailed (by simp [hss, SessState.early])
  | closed | rejected | failed =>
    dsimp only
    refine ⟨?_, by simp [hss, SessState.over], hc⟩
    cases s with
    | ended => exact hst
    | _ => simp [Stage.Fits, hss, SessState.early, SessState.active] at hfit

/-- The end of a connection. -/
theorem Told.end (hE : E.Lawful) {s : Stage} (hst : stage w.trace = some s)
    (hfit : s.Fits { w.conn with closed := false }) (hc : w.conn.closed) (err : Nat)
    (hs : Steadfast (E.notify (.connError err) (sessionConnLost E w)).trace) :
    Told (E.notify (.connError err) (sessionConnLost E w)) := by
  obtain ⟨hended, hover, hcl⟩ := sessionConnLost_told hE hst hfit hc
    (hs.suffix (hE.frame _ _).trace)
  obtain ⟨htr, hsess, hcl'⟩ := notify_closed hE (.connError err) hcl
  refine ⟨.dead, ?_, by rw [hsess]; exact hover, hcl'⟩
  rw [htr]
  simp only [stage, hended]
  rfl

theorem Told.fits_open {s : Stage} (hc : w.conn.closed = false) (hfit : s.Fits w.conn) :
    s.Fits { w.conn with closed := false } :=
  hfit.of_eq rfl hc.symm

theorem Told.connFatal (hE : E.Lawful) (h : Told w) (hc : w.conn.closed = false) (err : Nat)
    (hs : Steadfast (connFatal E err w).trace) : Told (connFatal E err w) := by
  obtain ⟨s, hst, hfit⟩ := h
  unfold Engine.connFatal at hs ⊢
  rw [if_neg (by simp [hc])] at hs ⊢
  dsimp only at hs ⊢
  refine Told.end hE (s := s) ?_ ?_ rfl err hs
  · simpa [World.op_snd, connLatchError, stage, apply_ite World.trace] using hst
  · refine (Told.fits_open hc hfit).of_eq ?_ rfl
    simp [World.op_snd, connLatchError, apply_ite World.conn, apply_ite Conn.sessState]

theorem Told.onConnClosed (hE : E.Lawful) (h : Told w) (hc : w.conn.closed = false) (err : Nat)
    (remote : Bool) (hs : Steadfast (onConnClosed E err remote w).trace) :
    Told (onConnClosed E err remote w) := by
  obtain ⟨s, hst, hfit⟩ := h
  unfold Engine.onConnClosed at hs ⊢
  rw [if_neg (by simp [hc])] at hs ⊢
  dsimp only at hs ⊢
  refine Told.end hE (s := s) ?_ ?_ rfl err hs
  · simpa [connLatchError, apply_ite World.trace] using hst
  · refine (Told.fits_open hc hfit).of_eq ?_ rfl
    simp [connLatchError, apply_ite World.conn, apply_ite Conn.sessState]

/-! ## Acts -/

/-- The trace grows. -/
theorem Act.trace (hE : E.Lawful) (ha : Act E N D w w') : w.trace <:+ w'.trace := by
  have hdialed : ∀ {i e res u}, Dialed w i e res u → w.trace <:+ u.trace := by
    intro i e res u hd
    obtain ⟨sends, -, ht⟩ := hd.trace
    rw [ht]
    exact ((List.suffix_cons _ _).trans (List.suffix_cons _ _)).trans (List.suffix_append _ _)
  have hsame : w.trace <:+ w.trace := List.suffix_refl _
  have hgrow : ∀ o, w.trace <:+ o :: w.trace := fun o => List.suffix_cons o w.trace
  cases ha with
  | fault f hf => exact hsame
  | hear i bs => exact hsame
  | op o ho => exact hgrow _
  | detached => exact hsame
  | conn f _ _ _ _ _ _ => exact hsame
  | aged => exact hsame
  | letGo i => simp
  | forget r => exact hsame
  | record r q _ => exact hsame
  | enroll r q _ _ _ _ _ _ => exact hsame
  | write i e _ => exact hsame
  | spoil i e _ _ => exact hsame
  | born i e _ _ _ _ _ _ _ => exact hgrow _
  | opened i bidi e _ _ _ _ _ _ _ _ => exact (hgrow _).trans (List.suffix_cons _ _)
  | entry r i p e _ _ _ _ _ _ _ _ _ => exact hgrow _
  | release i e _ _ _ _ =>
    simp only [World.trace_putEs, trace_admissionLetGo]
    exact (Frame.detachEs (S := .call) i w).trace
  | named i id _ _ _ => exact hsame
  | goaway v _ _ =>
    exact (Frame.sessionDraining (S := .call) hE
      (w.updConn fun c => { c with goaway := some v })).trace
  | givenUp i id go _ _ _ _ =>
    exact (Frame.sessionFailed (S := .call) hE .connection (giveUp i id go w)).trace
  | pending _ _ => exact hgrow _
  | dialed i e _ _ hd => exact (hdialed hd).trans (List.suffix_cons _ _)
  | undialed i err e _ _ hd =>
    exact (hdialed hd).trans (Frame.connFatal (S := .call) hE _ _).trace
  | notify c _ _ => exact (hE.frame _ _).trace
  | failed r _ _ _ => exact (Frame.sessionFailed (S := .call) hE _ _).trace
  | rejected status _ _ => exact (hgrow _).trans (hE.frame _ (w.setSess .rejected)).trace
  | established i ev _ _ _ _ _ _ =>
    have hbegun : w.trace <:+ (establish i (w.es i).id w).trace := by
      rw [trace_establish]
      exact hgrow _
    refine (hbegun.trans (hE.frame (.sessionEstablished ev) _).trace).trans ?_
    unfold drainUnderGoaway
    split
    · exact (Frame.sessionDraining (S := .call) hE _).trace
    · exact List.suffix_refl _
  | drained => exact (Frame.sessionDraining (S := .call) hE _).trace
  | ended code reason clean _ => exact (Frame.sessionClosed (S := .call) hE _ _ _ _).trace
  | died err _ => exact (Frame.connFatal (S := .call) hE _ _).trace
  | lost err remote _ => exact (Frame.onConnClosed (S := .call) hE _ _ _).trace

/-- The CONNECT is sent without a callback. -/
theorem Dialed.stage {i : Nat} {e : Estream} {res : DrvRes} {u : World σ}
    (hd : Dialed w i e res u) : Engine.stage u.trace = Engine.stage w.trace := by
  obtain ⟨sends, hsends, ht⟩ := hd.trace
  rw [ht]
  clear ht
  induction sends with
  | nil => rfl
  | cons o sends ih =>
    obtain ⟨ds, data, fin, r, rfl⟩ := hsends o List.mem_cons_self
    exact ih fun o ho => hsends o (List.mem_cons_of_mem _ ho)

theorem suffix_beginDrain (w : World σ) : w.trace <:+ (beginDrain w).trace := by
  unfold beginDrain
  dsimp only
  split
  · exact List.suffix_cons _ _
  · exact List.suffix_refl _

/-- An active session is reported draining. -/
theorem Told.beginDrain (h : Told w) (ha : w.conn.sessState.active)
    (hc : w.conn.closed = false) : Told ((beginDrain w).log (.cb .sessionDraining)) := by
  have hst := h.stage_of_active ha
  unfold Engine.beginDrain
  dsimp only
  split
  · exact ⟨.live, by simp [stage, hst, Stage.next, Callback.plain], rfl, hc⟩
  · exact ⟨.live, by simp [stage, hst, Stage.next, Callback.plain], ha, hc⟩

theorem Act.told (hE : E.Sound) (hT : E.Keeps Tells) (hw : Coherent D w) (h : Told w)
    (ha : Act E N D w w') (hs : Steadfast w'.trace) : Told w' := by
  -- a callback that reports a step of the session's life
  have hreport : ∀ {c s q} {u : World σ}, Coherent D u → stage u.trace = some s →
      s.next c = some q → q.Fits u.conn → Steadfast (E.notify c u).trace → Told (E.notify c u) := by
    intro c s q u hu hst hn hfit hs
    refine (hT D c u hu).2 ⟨q, ?_, hfit⟩ hs
    simp only [World.trace_log, stage, hst]
    exact hn
  have hdraining : ∀ {u : World σ}, Coherent D u → Tells u (sessionDraining E u) :=
    hT.sessionDraining .refl .trans fun u hc _ ha =>
      ⟨(suffix_beginDrain u).trans (List.suffix_cons _ _), fun hu _ => hu.beginDrain ha hc⟩
  cases ha with
  | fault f hf => exact h.same rfl rfl rfl
  | hear i bs => exact h.same rfl rfl rfl
  | op o ho => exact h.same rfl rfl rfl
  | detached => exact h.same rfl rfl rfl
  | conn f hcore hpeer hrec hclosed hans hpark =>
    exact h.same rfl (congrArg Core.sessState hcore :) hclosed
  | aged => exact h.same rfl rfl rfl
  | letGo i => exact h.same (by simp) (by simp [conn_admissionLetGo]) (by simp [conn_admissionLetGo])
  | forget r => exact h.same rfl rfl rfl
  | record r q hq => exact h.same rfl rfl rfl
  | enroll r q hold hr hds hq hes hn => exact h.same rfl rfl rfl
  | write i e he => exact h.same rfl rfl rfl
  | spoil i e hold he => exact h.same rfl rfl rfl
  | born i e hold he hc hds hok hl hn => exact h.same rfl rfl rfl
  | opened i bidi e hold he hds hok hr hid hl hb => exact h.same rfl rfl rfl
  | entry r i p e hp hwait hold he hc hds hid hl hok => exact h.same rfl rfl rfl
  | release i e hold hcrit hpark he =>
    exact h.same (by simp [stage_detachEs]) (by simp [conn_admissionLetGo])
      (by simp [conn_admissionLetGo])
  | pending hs' hp =>
    have he : w.conn.sessState.early := by simp [hs', SessState.early]
    exact ⟨.fresh, h.stage_of_early he, rfl, hw.open_of_early he⟩
  | named i id hok hn hh => exact h.same rfl rfl rfl
  | goaway v hv hj => exact (hdraining (hw.of_goaway (some v))).2 (h.same rfl rfl rfl) hs
  | givenUp i id go hs' hk hgo hid =>
    have he : w.conn.sessState.early := by simp [hs', SessState.early]
    exact hreport (hw.givenUp hs' hk (known_of_given hid)) (h.stage_of_early he) rfl
      ⟨rfl, hw.open_of_early he⟩ hs
  | dialed i e hs' hp hd =>
    have he : w.conn.sessState.early := by simp [hs', SessState.early]
    have hc := hd.conn
    refine ⟨.fresh, hd.stage.trans (h.stage_of_early he), rfl, ?_⟩
    rw [World.conn_setSess, hc]
    exact hw.open_of_early he
  | undialed i err e hs' hp hd =>
    have he : w.conn.sessState.early := by simp [hs', SessState.early]
    have hc := hd.conn
    have hu := h.same hd.stage (by rw [hc]) (by rw [hc])
    refine hu.connFatal hE.toLawful ?_ err hs
    rw [hc]
    exact hw.open_of_early he
  | notify c hc hop => exact (hT D c w hw).2 (h.plain (Callback.plain_of_casual hc) hop) hs
  | failed r hs' hp hj =>
    exact hreport (hw.setSess_over hs' hp rfl fun i => .inr (hj i)) (h.stage_of_early hs') rfl
      ⟨rfl, hw.open_of_early hs'⟩ hs
  | rejected status hs' hj =>
    have he : w.conn.sessState.early := by simp [hs', SessState.early]
    exact hreport (hw.setSess_over he (hw.client_of_early he (by simp [hs'])) rfl fun i =>
      .inr (hj i)) (h.stage_of_early he) rfl ⟨rfl, hw.open_of_early he⟩ hs
  | established i ev hs' hk hpark hj hid hgo =>
    have hbegun : Coherent D (establish i (w.es i).id w) := hw.establish hs' hk hpark hj
    have hlive : Steadfast (E.notify (.sessionEstablished ev) (establish i (w.es i).id w)).trace →
        Told (E.notify (.sessionEstablished ev) (establish i (w.es i).id w)) := by
      refine hreport (s := .fresh) (q := .live) hbegun ?_ rfl ?_
      · rw [trace_establish]
        exact h.stage_of_early hs'
      · rw [conn_establish]
        exact ⟨rfl, hw.open_of_early hs'⟩
    unfold drainUnderGoaway at hs ⊢
    split at hs
    · next hg =>
      rw [if_pos hg]
      have hdrain := hdraining (hE.coherent _ (.sessionEstablished ev) _ hbegun)
      exact hdrain.2 (hlive (hs.suffix hdrain.1)) hs
    · next hg =>
      rw [if_neg hg]
      exact hlive hs
  | drained => exact (hdraining hw).2 h hs
  | ended code reason clean ha =>
    rw [sessionClosed, sessionClosedWith_eq, if_neg (by simpa [sessionActive] using ha)] at hs ⊢
    have hu : Ending .closed w (w.setSess .closed) := ⟨rfl, _, _, _, rfl⟩
    have hfatal := fatalOk_connFatal hE.toLawful
    obtain ⟨ht, hquiet⟩ := hw.torn_quiet (E := E) hfatal hu
    have hcoh := hw.finish rfl hu ht hquiet (.inr (hw.judged_of_active ha))
      (.inr (hw.established_of_active ha))
    obtain ⟨hstage, hclosed⟩ := teardown_hushed (w := w.setSess .closed) hfatal
      (hushed_connFatal hE.toLawful) (List.range w.conn.streamCapacity) rfl rfl
      (hs.suffix (hE.frame _ _).trace)
    have hover := (teardown_induct (E := E) (w := w.setSess .closed) hfatal
      (P := fun _ => True) (List.range w.conn.streamCapacity) rfl trivial
      fun _ _ _ _ => trivial).2
    refine hreport (s := .live) (q := .ended) hcoh ?_ rfl ⟨?_, ?_⟩ hs
    · exact hstage.trans (h.stage_of_active ha)
    · exact (congrArg SessState.over hover :)
    · exact hclosed.trans (hw.open_of_active ha)
  | died err hc => exact h.connFatal hE.toLawful hc err hs
  | lost err remote hc => exact h.onConnClosed hE.toLawful hc err remote hs

theorem tells_rule : ActRule (σ := σ) (fun _ => True) Tells where
  call := trivial
  refl := .refl
  trans := .trans
  ret := fun _ => ⟨List.suffix_cons _ _, fun h _ => h.same rfl rfl rfl⟩
  ext := fun _ _ => ⟨List.suffix_refl _, fun h _ => h.same rfl rfl rfl⟩
  act := fun _ hE hT _ _ _ hw ha =>
    ⟨ha.trace hE.toLawful, fun h hs => ha.told hE hT hw h hs⟩

/-! ## Runs -/

theorem told_init (cfg : ConnCfg) : Told (init cfg).world := by
  refine ⟨.fresh, rfl, ?_⟩
  unfold init create
  split <;> exact ⟨rfl, rfl⟩

/-- A release says nothing. -/
theorem Tells.release (i : Nat) (w : World σ) : Tells w (estreamRelease E i w) := by
  refine ⟨(Frame.estreamRelease (S := .all) (.inl trivial)).trace, fun h _ => h.same ?_ ?_ ?_⟩
  · simp [estreamRelease, stage_detachEs]
  · simp [conn_estreamRelease]
  · simp [conn_estreamRelease]

theorem step_told (env : Env) (depth : Nat) {s : State} {inp : Input}
    (hs : Steadfast (step env depth s inp).world.trace) (hw : Coherent .none s.world)
    (ht : Told s.world) :
    Coherent .none (step env depth s inp).world ∧ Told (step env depth s inp).world := by
  obtain ⟨hw', htell⟩ := tells_rule.step env depth trivial
    (fun _ i v _ => .release i v) hw
  exact ⟨hw', htell.2 ht hs⟩

theorem run_told (env : Env) (depth : Nat) {s : State} {inputs : List Input}
    (hs : Steadfast (run env depth s inputs).world.trace) (hw : Coherent .none s.world)
    (ht : Told s.world) : Told (run env depth s inputs).world := by
  induction inputs generalizing s with
  | nil => exact ht
  | cons inp inputs ih =>
    have hstep := hs.suffix (Frame.run env depth (step env depth s inp) inputs).trace
    obtain ⟨hw', ht'⟩ := step_told env depth hstep hw ht
    exact ih hs hw' ht'

/-- With a steadfast driver the session has one outcome at most, and the connection one end,
behind the outcome. -/
theorem session_outcomes (env : Env) (depth : Nat) (cfg : ConnCfg) (inputs : List Input)
    (h : Steadfast (run env depth (init cfg) inputs).world.trace) :
    let w := (run env depth (init cfg) inputs).world
    Reports w.trace ∧ (w.conn.closed → w.trace.countP Out.isConnError = 1) := by
  obtain ⟨s, hst, hfit⟩ := run_told env depth h (coherent_init cfg) (told_init cfg)
  refine ⟨.of_stage hst, fun hc => ?_⟩
  have herror := (Stage.counted hst).error
  cases s with
  | dead => exact herror
  | _ => simp [Stage.Fits, hc] at hfit

/-! ## A client that closes its session -/

/-- The server opens a uni stream, and the application closes the session. -/
def clientClose : List Input :=
  clientSession ++ [.peerUniOpened 7, .streamBytes 2 [64, 84, 0] false, .call (.sessionClose 0 [])]

/-- A driver that cannot shut streams down. -/
def Env.crippled : Env where
  drv _ o :=
    match o with
    | .openBidi _ => { id := 0 }
    | .shutdownStream _ _ => { rc := .backend }
    | _ => {}
  app _ _ := []

/-- With a driver that can, the run is steadfast. -/
theorem session_outcomes_prompt :
    let w := (run (.prompt fun _ _ => []) 1 (init { persp := .client }) clientClose).world
    Reports w.trace ∧ (w.conn.closed → w.trace.countP Out.isConnError = 1) :=
  session_outcomes (.prompt fun _ _ => []) 1 { persp := .client } clientClose (by
    rw [show clientClose = .start :: .call (.clientConnect plainConnect) :: clientClose.drop 2
      from rfl, Env.run_connecting _ ⟨rfl, rfl, rfl, rfl⟩]
    decide +kernel)

/-- When the shutdown of a stream fails, the connection ends before the session does. -/
theorem session_outcomes_crippled :
    let w := (run .crippled 1 (init { persp := .client }) clientClose).world
    w.trace.filter (fun o => o.isOutcome || o.isConnError)
      = [.cb (.sessionClosed 0 [] true), .cb (.connError H3Err.internalError)] ∧
      ¬ Reports w.trace := by
  rw [show clientClose = .start :: .call (.clientConnect plainConnect) :: clientClose.drop 2
    from rfl, Env.run_connecting _ ⟨rfl, rfl, rfl, rfl⟩]
  intro w
  have hreport : w.trace.filter (fun o => o.isOutcome || o.isConnError)
        = [.cb (.sessionClosed 0 [] true), .cb (.connError H3Err.internalError)] ∧
      w.trace.drop 3 = .cb (.connError H3Err.internalError) :: w.trace.drop 4 ∧
      (w.trace.drop 4).countP Out.isOutcome = 0 := by
    decide +kernel
  obtain ⟨hfilter, hdrop, hnone⟩ := hreport
  refine ⟨hfilter, fun h => ?_⟩
  have hone := (h.error _ _ (hdrop ▸ List.drop_suffix 3 w.trace)).1
  simp [hnone] at hone

end Wtquic.Engine
