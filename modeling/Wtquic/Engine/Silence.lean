-- SUMMARY: A closed connection stays silent, and what its death does on the way.
import Wtquic.Engine.Outcomes

namespace Wtquic.Engine

/-! # Silence -/

variable {σ : Type} {E : Ctx σ} {w w' w'' : World σ}

/-! ## Behind the close -/

/-- What a closed connection may still add to the trace: send completions, and the returns of
their callbacks. -/
def Out.isEcho : Out → Bool
  | .ret => true
  | .cb c => c.isSendComplete
  | _ => false

/-- Nothing happened but for send completions, and the bookkeeping of the layers around the
engine: the user pointers, the record of the error, and the slots and records that are free. -/
structure Silent (w w' : World σ) : Prop where
  trace : ∃ new, w'.trace = new ++ w.trace ∧ ∀ o ∈ new, o.isEcho
  sess : w'.conn.sessState = w.conn.sessState
  epitaph : w'.conn.epitaph = w.conn.epitaph
  kind : ∀ i, (w'.es i).kind = (w.es i).kind
  slots : ∀ i, (w.es i).kind ≠ .free → ∃ u, w'.es i = { w.es i with user := u }
  nextDs : w'.nextDs = w.nextDs
  faults : w'.faults = w.faults
  rx : w'.rx = w.rx

namespace Silent

theorem of_still (h : Still w w') : Silent w w' where
  trace := ⟨[], h.trace, by simp⟩
  sess := by
    obtain ⟨te, user, hc⟩ := h.conn
    rw [hc]
  epitaph := h.epitaph
  kind := fun i => by
    obtain ⟨u, hu⟩ := h.es i
    rw [hu]
  slots := fun i _ => h.es i
  nextDs := h.nextDs
  faults := h.faults
  rx := h.rx

@[refl] theorem refl (w : World σ) : Silent w w := of_still (.refl w)

theorem trans (h : Silent w w') (h' : Silent w' w'') : Silent w w'' where
  trace := by
    obtain ⟨new, ht, hnew⟩ := h.trace
    obtain ⟨new', ht', hnew'⟩ := h'.trace
    refine ⟨new' ++ new, by rw [ht', ht, List.append_assoc], fun o ho => ?_⟩
    exact (List.mem_append.mp ho).elim (hnew' o) (hnew o)
  sess := h'.sess.trans h.sess
  epitaph := h'.epitaph.trans h.epitaph
  kind := fun i => (h'.kind i).trans (h.kind i)
  slots := fun i hk => by
    obtain ⟨u, hu⟩ := h.slots i hk
    obtain ⟨u', hu'⟩ := h'.slots i (by rw [h.kind i]; exact hk)
    exact ⟨u', by rw [hu', hu]⟩
  nextDs := h'.nextDs.trans h.nextDs
  faults := h'.faults.trans h.faults
  rx := h'.rx.trans h.rx

theorem closed (h : Silent w w') : w'.conn.closed = w.conn.closed :=
  congrArg Epitaph.closed h.epitaph

/-- A send completion is forwarded. -/
theorem sendComplete (hE : E.Lawful) (cookie : Nat) (canceled : Bool) (hc : w.conn.closed) :
    Silent w (onSendComplete E cookie canceled w) := by
  have hlogs : Silent w ((w.log (.cb (.wtSendComplete cookie canceled))).log .ret) := by
    refine ⟨⟨[.ret, .cb (.wtSendComplete cookie canceled)], rfl, ?_⟩, rfl, rfl, fun _ => rfl,
      fun i _ => ⟨(w.es i).user, rfl⟩, rfl, rfl, rfl⟩
    simp [Out.isEcho, Callback.isSendComplete]
  exact hlogs.trans (of_still (hE.quiet _ w hc))

/-- The native stream of a free slot retires. -/
theorem streamRetire (i ds : Nat) (w : World σ) : Silent w (streamRetire i ds w) := by
  unfold Engine.streamRetire
  split
  · next h =>
    obtain ⟨-, -, -, hfree⟩ := h
    have hes : ∀ j, j ≠ i → (w.putEs i { w.es i with resident := false, ds := 0 }).es j = w.es j :=
      fun j hj => World.es_putEs_of_ne hj _ w
    refine ⟨⟨[], rfl, by simp⟩, rfl, ?_, fun j => ?_, fun j hk => ?_, rfl, rfl, rfl⟩
    · simp only [Conn.epitaph, World.conn_putEs, Epitaph.mk.injEq, true_and]
      exact ids_update w.conn.peer rfl
    · by_cases hj : j = i
      · subst hj
        simp
      · rw [hes j hj]
    · have hj : j ≠ i := fun hj => hk (hj ▸ hfree)
      exact ⟨(w.es j).user, hes j hj⟩
  · rfl

/-- A closed connection answers every input with silence. -/
theorem input (hE : E.Lawful) (tbl : PathTable) (inp : Input) (hc : w.conn.closed) :
    Silent w (inp.apply E tbl w) := by
  have hsame : ∀ {w' : World σ}, w' = w → Silent w w' := fun h => h ▸ .refl w
  cases inp with
  | start => exact hsame (by simp [Input.apply, start, hc])
  | setPaths paths => rfl
  | peerUniOpened id => exact hsame (by simp [Input.apply, onPeerOpened, hc])
  | peerBidiOpened id => exact hsame (by simp [Input.apply, onPeerOpened, hc])
  | streamBytes i data fin => exact hsame (by simp [Input.apply, Engine.streamBytes, hc])
  | streamBytesAccounted i data fin => exact hsame (by simp [Input.apply, Engine.streamBytes, hc])
  | streamReset i err => exact hsame (by simp [Input.apply, onStreamReset, hc])
  | streamTerminal i =>
    refine hsame ?_
    simp only [Input.apply, onStreamTerminal, hc, if_true]
    split <;> rfl
  | stopSending i err => exact hsame (by simp [Input.apply, onStopSending, hc])
  | nativeId i id => exact hsame (by simp [Input.apply, onStreamNativeId, hc])
  | sendShutdown i ds gen graceful => exact hsame (by simp [Input.apply, onStreamSendShutdown, hc])
  | sendComplete cookie canceled => exact sendComplete hE cookie canceled hc
  | writable i => exact hsame (by simp [Input.apply, onStreamWritable, hc])
  | datagram data => exact hsame (by simp [Input.apply, onDatagram, hc])
  | connClosed err remote => exact hsame (by simp [Input.apply, onConnClosed, hc])
  | transportError e =>
    simp only [Input.apply, setTransportError]
    split
    · rfl
    · exact of_still (.connLatchError e w)
  | admissionInit r bidi id =>
    refine hsame ?_
    simp only [Input.apply, admissionInit, hc, if_true]
    split <;> rfl
  | admissionBytes r data fin =>
    refine hsame ?_
    simp only [Input.apply, peerAdmissionBytes, hc, if_true]
    split <;> rfl
  | peerAdmit r =>
    refine hsame ?_
    simp only [Input.apply, peerAdmit, hc, if_true]
    split
    · rfl
    · split <;> rfl
  | admissionForget r =>
    exact ⟨⟨[], rfl, by simp⟩, rfl, rfl, fun _ => rfl, fun i _ => ⟨(w.es i).user, rfl⟩, rfl, rfl, rfl⟩
  | streamRetire i ds => exact streamRetire i ds w
  | call a => exact of_still (.call a hc)

end Silent

theorem step_silent (env : Env) (depth : Nat) {s : State} (inp : Input)
    (hc : s.world.conn.closed) : Silent s.world (step env depth s inp).world := by
  unfold step
  split
  · rfl
  · split
    · exact .input (env.lawful depth) s.paths _ hc
    · rfl

theorem run_silent (env : Env) (depth : Nat) {s : State} (inputs : List Input)
    (hc : s.world.conn.closed) : Silent s.world (run env depth s inputs).world := by
  induction inputs generalizing s with
  | nil => exact .refl _
  | cons inp inputs ih =>
    have hstep := step_silent env depth inp hc
    exact hstep.trans (ih (hstep.closed.trans hc))

/-! ## The death itself -/

/-- What a dying connection does between its close and its report: it detaches streams, and
gives the session its outcome. -/
def Out.isDirge : Out → Bool
  | .op o _ => o.isDetach
  | .cb (.sessionFailed _) | .cb (.sessionClosed _ _ _) => true
  | .ret | .sess _ => true
  | _ => false

/-- A step of a closed connection that dies. -/
def Dying (w w' : World σ) : Prop :=
  w'.conn.closed ∧ ∃ new, w'.trace = new ++ w.trace ∧ ∀ o ∈ new, o.isDirge

namespace Dying

theorem refl (hc : w.conn.closed) : Dying w w := ⟨hc, [], rfl, by simp⟩

theorem trans (h : Dying w w') (h' : Dying w' w'') : Dying w w'' := by
  obtain ⟨-, new, ht, hnew⟩ := h
  obtain ⟨hc, new', ht', hnew'⟩ := h'
  refine ⟨hc, new' ++ new, by rw [ht', ht, List.append_assoc], fun o ho => ?_⟩
  exact (List.mem_append.mp ho).elim (hnew' o) (hnew o)

theorem same (hc : w'.conn.closed) (ht : w'.trace = w.trace) : Dying w w' :=
  ⟨hc, [], ht, by simp⟩

theorem log {o : Out} (ho : o.isDirge) (hc : w.conn.closed) : Dying w (w.log o) :=
  ⟨hc, [o], rfl, by simp [ho]⟩

/-- The outcome of the session. -/
theorem notify (hE : E.Lawful) {c : Callback} (hd : (Out.cb c).isDirge) (hc : w.conn.closed) :
    Dying w (E.notify c w) := by
  have hstill := hE.quiet c w hc
  refine ((log hd hc).trans (log (o := .ret) rfl hc)).trans (same ?_ hstill.trace)
  exact hstill.closed.trans hc

theorem estreamRelease (i : Nat) (hc : w.conn.closed) : Dying w (estreamRelease E i w) := by
  have hclosed : (Engine.estreamRelease E i w).conn.closed := by simp [conn_estreamRelease, hc]
  by_cases hds : (w.es i).ds = 0
  · refine same hclosed ?_
    simp [Engine.estreamRelease, detachEs, hds]
  · refine ⟨hclosed, [.op (.detach (w.es i).ds i) (E.drv w.trace (.detach (w.es i).ds i))], ?_, ?_⟩
    · simp [Engine.estreamRelease, detachEs, hds, World.op_snd]
    · simp [Out.isDirge, DrvOp.isDetach]

theorem teardownSlot (fatal : Nat → World σ → World σ) (i : Nat) (hc : w.conn.closed) :
    Dying w (teardownSlot E fatal w i) := by
  rw [teardownSlot_eq]
  split
  · exact refl hc
  have hnone : teardownShutdown E fatal i w = w := by simp [teardownShutdown, hc]
  rw [hnone]
  have hmod : Dying w (w.modEs i Estream.closeBoth) := same (by simp [hc]) (by simp)
  unfold wtReleaseIfDone
  split
  · exact hmod.trans (estreamRelease i hmod.1)
  · exact hmod

theorem teardown (fatal : Nat → World σ → World σ) (is : List Nat) (hc : w.conn.closed) :
    Dying w (teardown E fatal is w) := by
  induction is generalizing w with
  | nil => exact refl hc
  | cons i is ih =>
    have hslot := teardownSlot (E := E) fatal i hc
    exact hslot.trans (ih hslot.1)

theorem sessionConnLost (hE : E.Lawful) (hc : w.conn.closed) :
    Dying w (sessionConnLost E w) := by
  have hset : ∀ s, Dying w (w.setSess s) := fun s => log (o := .sess s) rfl hc
  have hclosed : Dying w (sessionClosedWith E (fun _ w => w) 0 [] false w) := by
    rw [sessionClosedWith_eq]
    split
    · exact refl hc
    · have htorn := (hset .closed).trans (teardown (E := E) (fun _ w => w)
        (List.range w.conn.streamCapacity) hc)
      exact htorn.trans (notify hE rfl htorn.1)
  have hfailed : Dying w (sessionFailed E .connection w) := (hset .failed).trans (notify hE rfl hc)
  unfold Engine.sessionConnLost
  split <;> first | exact hclosed | exact hfailed | exact refl hc

end Dying

/-- The connection is closed once, then streams are detached and the session gets its outcome,
and the last thing is the report. -/
theorem connFatal_trace (hE : E.Lawful) (err : Nat) (ho : w.conn.closed = false) :
    ∃ mid, (connFatal E err w).trace = .ret :: .cb (.connError err) ::
        (mid ++ .op (.connClose err) (E.drv w.trace (.connClose err)) :: w.trace) ∧
      ∀ o ∈ mid, o.isDirge := by
  unfold connFatal
  rw [if_neg (by simp [ho])]
  dsimp only
  generalize hu : ((connLatchError ⟨.quicApp, err, 0, 0⟩ w).updConn fun c =>
    { c with closed := true, closeCode := err }) = u
  have hc : u.conn.closed := by rw [← hu]; rfl
  have ht : u.trace = w.trace := by
    rw [← hu]
    unfold connLatchError
    split <;> rfl
  obtain ⟨hdead, mid, htrace, hmid⟩ := Dying.sessionConnLost (w := (u.op E (.connClose err)).2) hE hc
  refine ⟨mid, ?_, hmid⟩
  rw [(hE.quiet _ _ hdead).trace, World.trace_log, World.trace_log, htrace, World.op_snd,
    World.trace_log, ht]

end Wtquic.Engine
