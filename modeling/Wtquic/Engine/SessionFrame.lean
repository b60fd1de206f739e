-- SUMMARY: Effects and frames of the session functions, and the end of the session_closed recursion.
import Wtquic.Engine.Frame

namespace Wtquic.Engine

/-! # Effects and frames of the session functions -/

variable {σ : Type} {E : Ctx σ} {S : Scope} {w : World σ}

/-! ## Release -/

section Release

variable (i : Nat) (w : World σ)

@[simp] theorem es_admissionLetGo : (admissionLetGo i w).es = w.es := by
  unfold admissionLetGo
  split <;> rfl

@[simp] theorem trace_admissionLetGo : (admissionLetGo i w).trace = w.trace := by
  unfold admissionLetGo
  split <;> rfl

@[simp] theorem nextDs_admissionLetGo : (admissionLetGo i w).nextDs = w.nextDs := by
  unfold admissionLetGo
  split <;> rfl

@[simp] theorem faults_admissionLetGo : (admissionLetGo i w).faults = w.faults := by
  unfold admissionLetGo
  split <;> rfl

@[simp] theorem rx_admissionLetGo : (admissionLetGo i w).rx = w.rx := by
  unfold admissionLetGo
  split <;> rfl

/-- The admission records after slot `i` was let go. -/
def Conn.letGo (i : Nat) (c : Conn) : Nat → Option Admission := fun r =>
  if c.admissionEnabled ∧ r < c.peerCapacity then (c.admissionPeers r).map (Admission.letGo i)
  else c.admissionPeers r

theorem conn_admissionLetGo :
    (admissionLetGo i w).conn = { w.conn with admissionPeers := w.conn.letGo i } := by
  unfold admissionLetGo
  split
  · next h =>
    have hl : w.conn.letGo i = fun r =>
        if r < w.conn.peerCapacity then (w.conn.admissionPeers r).map (Admission.letGo i)
        else w.conn.admissionPeers r :=
      funext fun r => by simp only [Conn.letGo, h, true_and]
    rw [hl, World.conn_updConn]
  · next h =>
    have hl : w.conn.letGo i = w.conn.admissionPeers :=
      funext fun r => if_neg fun hr => h hr.1
    rw [hl]

@[simp] theorem conn_detachEs : (detachEs E i w).conn = w.conn := by
  unfold detachEs
  split <;> rfl

@[simp] theorem es_detachEs : (detachEs E i w).es = w.es := by
  unfold detachEs
  split <;> rfl

@[simp] theorem nextDs_detachEs : (detachEs E i w).nextDs = w.nextDs := by
  unfold detachEs
  split <;> rfl

@[simp] theorem faults_detachEs : (detachEs E i w).faults = w.faults := by
  unfold detachEs
  split <;> rfl

@[simp] theorem rx_detachEs : (detachEs E i w).rx = w.rx := by
  unfold detachEs
  split <;> rfl

theorem conn_estreamRelease :
    (estreamRelease E i w).conn = { w.conn with
      admissionPeers := w.conn.letGo i
      peer := Function.update w.conn.peer i (w.es i).released } := by
  simp [estreamRelease, conn_admissionLetGo]

theorem es_estreamRelease (j : Nat) :
    (estreamRelease E i w).es j = if j = i then (w.es i).released else w.es j := by
  simp [estreamRelease, World.es_putEs]

@[simp] theorem es_estreamRelease_self : (estreamRelease E i w).es i = (w.es i).released := by
  simp [es_estreamRelease]

@[simp] theorem nextDs_estreamRelease : (estreamRelease E i w).nextDs = w.nextDs := by
  simp [estreamRelease]

@[simp] theorem rx_estreamRelease : (estreamRelease E i w).rx = w.rx := by
  simp [estreamRelease]

end Release

theorem Estream.kind_of_wtDone {e : Estream} (h : e.wtDone) : e.kind = .wt := by
  simp only [Estream.wtDone, Bool.and_eq_true, beq_iff_eq] at h
  exact h.1.1.1.1

theorem Estream.not_held_of_wtDone {e : Estream} (h : e.wtDone) : e.recvHeld = false := by
  simp only [Estream.wtDone, Bool.and_eq_true, Bool.not_eq_true'] at h
  simp [Estream.recvHeld, h]

/-- Closing both halves keeps a held receive half in its drain. -/
theorem Estream.closeBoth_held {e : Estream} (h : e.recvHeld) : e.closeBoth.recvHeld := by
  simp only [Estream.recvHeld, Bool.and_eq_true, Bool.or_eq_true] at h
  simp only [Estream.recvHeld, Estream.closeBoth, h.1, Bool.true_and, Bool.false_or,
    Bool.or_eq_true]
  exact h.2

namespace Frame

theorem notify (hE : E.Lawful) (c : Callback) (w : World σ) : Frame S w (E.notify c w) :=
  (hE.frame c w).of_call

theorem connLatchError (e : TransportError) (w : World σ) : Frame S w (connLatchError e w) := by
  unfold Engine.connLatchError
  split
  · rfl
  · exact updConn rfl rfl id rfl rfl (.of_eq rfl rfl) fun _ => rfl

theorem sessionFailed (hE : E.Lawful) (r : FailReason) (w : World σ) :
    Frame S w (sessionFailed E r w) :=
  (setSess (by decide) _).trans (notify hE _ _)

theorem sessionDraining (hE : E.Lawful) (w : World σ) : Frame S w (sessionDraining E w) := by
  unfold Engine.sessionDraining
  split
  · rfl
  · refine Frame.trans ?_ (notify hE _ _)
    split
    · exact Frame.trans (updConn rfl rfl id rfl rfl (.of_eq rfl rfl) fun _ => rfl) (setSess (by decide) _)
    · exact updConn rfl rfl id rfl rfl (.of_eq rfl rfl) fun _ => rfl

theorem admissionLetGo (i : Nat) (w : World σ) : Frame S w (admissionLetGo i w) := by
  unfold Engine.admissionLetGo
  split
  · exact updConn rfl rfl id rfl rfl (.of_eq rfl rfl) fun _ => rfl
  · rfl

theorem detachEs (i : Nat) (w : World σ) : Frame S w (detachEs E i w) := by
  unfold Engine.detachEs
  split
  · exact op E _ w
  · rfl

/-- A slot may be released by a function that has it in its scope, or when it is the slot
of no HTTP stream and holds nothing. -/
theorem estreamRelease {i : Nat}
    (h : S.slots i ∨ ((w.es i).kind.http = false ∧ (w.es i).recvHeld = false)) :
    Frame S w (estreamRelease E i w) := by
  unfold Engine.estreamRelease
  refine (audit (.inr rfl) _ w).trans ((detachEs i _).trans ((admissionLetGo i _).trans
    (putEs ?_ (by rfl))))
  simp only [es_admissionLetGo, es_detachEs, World.es_audit]
  rcases h with h | ⟨hk, hh⟩
  · exact .inl h
  · exact .inr ⟨hk, rfl, by simp [hh]⟩

theorem wtReleaseIfDone (i : Nat) (w : World σ) : Frame S w (wtReleaseIfDone E i w) := by
  unfold Engine.wtReleaseIfDone
  split
  · next h =>
    exact estreamRelease (.inr ⟨by simp [Estream.kind_of_wtDone h], Estream.not_held_of_wtDone h⟩)
  · rfl

end Frame

/-! ## Teardown -/

/-- An entry that ties a driver stream to a slot, or unties it. -/
def Out.isLink : Out → Bool
  | .attach _ _ | .op (.detach _ _) _ => true
  | _ => false

/-- Only the `user` fields of the slots, the trace and the death record moved: what a
failure inside the teardown loop can do, because the session is over already. -/
structure Settled (w w' : World σ) : Prop where
  frame : Frame .call w w'
  conn : ∃ (te : Option TransportError) (code : Nat) (closed : Bool) (user : Nat → Option Nat),
    w'.conn = { w.conn with
      transportError := te
      closeCode := code
      closed := closed
      peer := fun i => { w.conn.peer i with user := user i } }
  nextDs : w'.nextDs = w.nextDs
  faults : w'.faults = w.faults
  links : ∃ t, w'.trace = t ++ w.trace ∧ ∀ o ∈ t, o.isLink = false

namespace Settled

@[refl] theorem refl (w : World σ) : Settled w w where
  frame := .refl w
  conn := ⟨_, _, _, fun i => (w.conn.peer i).user, rfl⟩
  nextDs := rfl
  faults := rfl
  links := ⟨[], rfl, by simp⟩

theorem trans {w w' w'' : World σ} (h : Settled w w') (h' : Settled w' w'') : Settled w w'' := by
  obtain ⟨te, code, closed, user, hc⟩ := h.conn
  obtain ⟨te', code', closed', user', hc'⟩ := h'.conn
  obtain ⟨t, ht, hl⟩ := h.links
  obtain ⟨t', ht', hl'⟩ := h'.links
  refine ⟨h.frame.trans h'.frame, ⟨te', code', closed', user', ?_⟩, h'.nextDs.trans h.nextDs,
    h'.faults.trans h.faults, ⟨t' ++ t, ?_, ?_⟩⟩
  · rw [hc', hc]
  · rw [ht', ht, List.append_assoc]
  · intro o ho
    exact (List.mem_append.mp ho).elim (hl' o) (hl o)

theorem sess {w w' : World σ} (h : Settled w w') : w'.conn.sessState = w.conn.sessState := by
  obtain ⟨_, _, _, _, hc⟩ := h.conn
  rw [hc]

theorem slots {w w' : World σ} (h : Settled w w') (i : Nat) :
    ∃ u, w'.es i = { w.es i with user := u } := by
  obtain ⟨_, _, _, user, hc⟩ := h.conn
  exact ⟨user i, by rw [World.es, hc]; rfl⟩

/-- A driver operation other than a detach. -/
theorem op {o : DrvOp} (ho : ∀ r, (Out.op o r).isLink = false) (w : World σ) :
    Settled w (w.op E o).2 where
  frame := .op E o w
  conn := ⟨_, _, _, fun i => (w.conn.peer i).user, rfl⟩
  nextDs := rfl
  faults := rfl
  links := ⟨[_], rfl, by simp [ho]⟩

/-- A callback on a closed connection. -/
theorem notify (hE : E.Lawful) (c : Callback) (hc : w.conn.closed) :
    Settled w (E.notify c w) := by
  have hq := hE.quiet c w hc
  obtain ⟨te, user, he⟩ := hq.conn
  refine ⟨hE.frame c w, ⟨te, _, _, user, he⟩, hq.nextDs, hq.faults, ⟨[.ret, .cb c], hq.trace, ?_⟩⟩
  simp [Out.isLink]

theorem connLatchError (e : TransportError) (w : World σ) :
    Settled w (Engine.connLatchError e w) := by
  refine ⟨Frame.connLatchError _ _, ?_, ?_, ?_, [], ?_, by simp⟩ <;>
    unfold Engine.connLatchError <;> split
  · exact ⟨_, _, _, fun i => (w.conn.peer i).user, rfl⟩
  · exact ⟨some e, _, _, fun i => (w.conn.peer i).user, rfl⟩
  all_goals rfl

/-- The death flag of a connection. -/
theorem die (err : Nat) (w : World σ) :
    Settled w (w.updConn fun c => { c with closed := true, closeCode := err }) where
  frame := .updConn rfl rfl (fun _ => rfl) rfl rfl (.of_eq rfl rfl) fun _ => rfl
  conn := ⟨_, _, _, fun i => (w.conn.peer i).user, rfl⟩
  nextDs := rfl
  faults := rfl
  links := ⟨[], rfl, by simp⟩

end Settled

/-- A connection death after the session was over. -/
theorem connFatal_settled (hE : E.Lawful) {err : Nat}
    (hs : ∀ v : World σ, v.conn.sessState = w.conn.sessState → sessionConnLost E v = v) :
    Settled w (connFatal E err w) := by
  unfold connFatal
  split
  · rfl
  · dsimp only
    have hdead : Settled w
        (((connLatchError ⟨.quicApp, err, 0, 0⟩ w).updConn fun c =>
          { c with closed := true, closeCode := err }).op E (.connClose err)).2 :=
      (Settled.connLatchError _ w).trans ((Settled.die err _).trans (Settled.op (fun _ => rfl) _))
    have hc : (((connLatchError ⟨.quicApp, err, 0, 0⟩ w).updConn fun c =>
        { c with closed := true, closeCode := err }).op E (.connClose err)).2.conn.closed := rfl
    generalize (World.op E (.connClose err) _).2 = v at hdead hc ⊢
    rw [hs v hdead.sess]
    exact hdead.trans (.notify hE _ hc)

/-- A function that may be called on a failed teardown operation. -/
def FatalOk (fatal : Nat → World σ → World σ) : Prop :=
  ∀ err w, w.conn.sessState = .closed → Settled w (fatal err w)

theorem fatalOk_connFatal (hE : E.Lawful) : FatalOk (connFatal E) :=
  fun _ _ hs => connFatal_settled hE fun v hv => by simp only [sessionConnLost, hv, hs]

theorem fatalOk_skip : FatalOk (fun _ (w : World σ) => w) := fun _ w _ => .refl w

theorem shutdownRawWith_settled {fatal : Nat → World σ → World σ} (hf : FatalOk fatal)
    (hs : w.conn.sessState = .closed) (ds : Nat) (a r : Bool) (code : Nat) :
    Settled w (shutdownRawWith E fatal ds a r code w) := by
  unfold shutdownRawWith
  dsimp only
  split
  · exact (Settled.op (fun _ => rfl) w).trans (hf _ _ hs)
  · exact Settled.op (fun _ => rfl) w

/-- The driver half of a teardown round. -/
def teardownShutdown (E : Ctx σ) (fatal : Nat → World σ → World σ) (i : Nat) (w : World σ) :
    World σ :=
  let e := w.es i
  let send := e.wtSendOpen || e.wtFinPending
  if !w.conn.closed && (send || e.wtRecvOpen) then
    shutdownRawWith E fatal e.ds send e.wtRecvOpen H3Err.wtSessionGone w
  else w

theorem teardownSlot_eq (fatal : Nat → World σ → World σ) (w : World σ) (i : Nat) :
    teardownSlot E fatal w i =
      if (w.es i).kind ≠ .wt then w
      else wtReleaseIfDone E i ((teardownShutdown E fatal i w).modEs i Estream.closeBoth) := rfl

theorem teardownShutdown_settled {fatal : Nat → World σ → World σ} (hf : FatalOk fatal)
    (hs : w.conn.sessState = .closed) (i : Nat) :
    Settled w (teardownShutdown E fatal i w) := by
  unfold teardownShutdown
  dsimp only
  split
  · exact shutdownRawWith_settled hf hs _ _ _ _
  · rfl

@[simp] theorem sessState_estreamRelease (i : Nat) (w : World σ) :
    (estreamRelease E i w).conn.sessState = w.conn.sessState := by
  simp [conn_estreamRelease]

@[simp] theorem sessState_wtReleaseIfDone (i : Nat) (w : World σ) :
    (wtReleaseIfDone E i w).conn.sessState = w.conn.sessState := by
  unfold wtReleaseIfDone
  split <;> simp

theorem Frame.teardownSlot {fatal : Nat → World σ → World σ} (hf : FatalOk fatal)
    (hs : w.conn.sessState = .closed) (i : Nat) : Frame S w (teardownSlot E fatal w i) := by
  rw [teardownSlot_eq]
  split
  · rfl
  · next hk =>
    have hwt : (w.es i).kind = .wt := by simpa using hk
    have hsd := teardownShutdown_settled (E := E) hf hs i
    obtain ⟨u, hu⟩ := hsd.slots i
    refine hsd.frame.of_call.trans (Frame.trans (modEs (.inr ⟨?_, ?_, ?_⟩) (by rfl))
      (wtReleaseIfDone i _))
    · simp [hu, hwt]
    · simp [hu, hwt, Estream.closeBoth]
    · exact Estream.closeBoth_held

theorem teardownSlot_sess {fatal : Nat → World σ → World σ} (hf : FatalOk fatal)
    (hs : w.conn.sessState = .closed) (i : Nat) :
    (teardownSlot E fatal w i).conn.sessState = .closed := by
  rw [teardownSlot_eq]
  split
  · exact hs
  · simpa using (teardownShutdown_settled (E := E) hf hs i).sess.trans hs

/-- The teardown loop over some of the slots. -/
def teardown (E : Ctx σ) (fatal : Nat → World σ → World σ) (is : List Nat) (w : World σ) :
    World σ :=
  is.foldl (teardownSlot E fatal) w

/-- An invariant of the teardown rounds is one of the loop. -/
theorem teardown_induct {fatal : Nat → World σ → World σ} (hf : FatalOk fatal)
    {P : World σ → Prop} (is : List Nat) (hs : w.conn.sessState = .closed) (hw : P w)
    (step : ∀ v i, v.conn.sessState = .closed → P v → P (teardownSlot E fatal v i)) :
    P (teardown E fatal is w) ∧ (teardown E fatal is w).conn.sessState = .closed := by
  induction is generalizing w with
  | nil => exact ⟨hw, hs⟩
  | cons i is ih => exact ih (teardownSlot_sess hf hs i) (step w i hs hw)

theorem Frame.teardown {fatal : Nat → World σ → World σ} (hf : FatalOk fatal) (is : List Nat)
    (hs : w.conn.sessState = .closed) : Frame S w (teardown E fatal is w) :=
  (teardown_induct hf (P := Frame S w) is hs (.refl w) fun _ i hv h =>
    h.trans (.teardownSlot hf hv i)).1

theorem sessionClosedWith_eq (fatal : Nat → World σ → World σ) (code : UInt32) (reason : Bytes)
    (clean : Bool) (w : World σ) :
    sessionClosedWith E fatal code reason clean w =
      if !sessionActive w then w
      else E.notify (.sessionClosed code reason clean)
        (teardown E fatal (List.range w.conn.streamCapacity) (w.setSess .closed)) := rfl

/-- On a closed connection the loop makes no driver operation that can fail, so the
function for failures is never called. -/
theorem sessionClosedWith_of_closed (fatal fatal' : Nat → World σ → World σ) (code : UInt32)
    (reason : Bytes) (clean : Bool) (hc : w.conn.closed) :
    sessionClosedWith E fatal code reason clean w
      = sessionClosedWith E fatal' code reason clean w := by
  have hslot : ∀ (v : World σ) i, v.conn.closed →
      teardownSlot E fatal v i = teardownSlot E fatal' v i ∧
        (teardownSlot E fatal v i).conn.closed := by
    intro v i hv
    simp only [teardownSlot_eq, teardownShutdown, hv, Bool.not_true, Bool.false_and]
    refine ⟨rfl, ?_⟩
    split
    · exact hv
    · exact (Frame.wtReleaseIfDone (S := .call) i _).closed (by simpa using hv)
  have hloop : ∀ is (v : World σ), v.conn.closed →
      teardown E fatal is v = teardown E fatal' is v := by
    intro is
    induction is with
    | nil => exact fun _ _ => rfl
    | cons i is ih =>
      intro v hv
      obtain ⟨he, hc'⟩ := hslot v i hv
      calc teardown E fatal (i :: is) v
          = teardown E fatal is (teardownSlot E fatal v i) := rfl
        _ = teardown E fatal' is (teardownSlot E fatal v i) := ih _ hc'
        _ = teardown E fatal' (i :: is) v := by rw [he]; rfl
  rw [sessionClosedWith_eq, sessionClosedWith_eq, hloop _ _ (by simpa using hc)]

namespace Frame

theorem sessionClosedWith (hE : E.Lawful) {fatal : Nat → World σ → World σ} (hf : FatalOk fatal)
    (code : UInt32) (reason : Bytes) (clean : Bool) (w : World σ) :
    Frame S w (sessionClosedWith E fatal code reason clean w) := by
  rw [sessionClosedWith_eq]
  split
  · rfl
  · exact (setSess (by decide) _).trans ((Frame.teardown hf _ rfl).trans (notify hE _ _))

theorem sessionConnLost (hE : E.Lawful) (w : World σ) : Frame S w (sessionConnLost E w) := by
  unfold Engine.sessionConnLost
  split
  · exact sessionClosedWith hE fatalOk_skip _ _ _ _
  · exact sessionClosedWith hE fatalOk_skip _ _ _ _
  · exact sessionFailed hE _ _
  · exact sessionFailed hE _ _
  · exact sessionFailed hE _ _
  all_goals rfl

theorem connFatal (hE : E.Lawful) (err : Nat) (w : World σ) : Frame S w (connFatal E err w) := by
  unfold Engine.connFatal
  split
  · rfl
  · dsimp only
    refine Frame.trans ?_ (notify hE _ _)
    refine Frame.trans ?_ (sessionConnLost hE _)
    refine Frame.trans ?_ (op E _ _)
    exact (connLatchError _ _).trans (updConn rfl rfl (fun _ => rfl) rfl rfl (.of_eq rfl rfl) fun _ => rfl)

theorem onConnClosed (hE : E.Lawful) (err : Nat) (remote : Bool) (w : World σ) :
    Frame S w (onConnClosed E err remote w) := by
  unfold Engine.onConnClosed
  split
  · rfl
  · dsimp only
    refine Frame.trans ?_ (notify hE _ _)
    refine Frame.trans ?_ (sessionConnLost hE _)
    exact (connLatchError _ _).trans (updConn rfl rfl (fun _ => rfl) rfl rfl (.of_eq rfl rfl) fun _ => rfl)

theorem shutdownRaw (hE : E.Lawful) (ds : Nat) (a r : Bool) (code : Nat) (w : World σ) :
    Frame S w (shutdownRaw E ds a r code w) := by
  unfold Engine.shutdownRaw Engine.shutdownRawWith
  dsimp only
  split
  · exact (op E _ w).trans (connFatal hE _ _)
  · exact op E _ w

theorem sessionClosed (hE : E.Lawful) (code : UInt32) (reason : Bytes) (clean : Bool)
    (w : World σ) : Frame S w (sessionClosed E code reason clean w) :=
  sessionClosedWith hE (fatalOk_connFatal hE) _ _ _ _

theorem send (ds : Nat) (data : Bytes) (fin : Bool) (w : World σ) :
    Frame S w (w.send E ds data fin).2 :=
  op E _ w

theorem sendBoth (ds : Nat) (a b : Bytes) (fin : Bool) (w : World σ) :
    Frame S w (w.sendBoth E ds a b fin).2 := by
  unfold World.sendBoth
  dsimp only
  split
  · exact (send ds a false w).trans (send ds b fin _)
  · exact send ds a false w

theorem openFor (bidi : Bool) (i : Nat) (w : World σ) : Frame S w (w.openFor E bidi i).2.2 := by
  unfold World.openFor
  generalize (if bidi then DrvOp.openBidi i else .openUni (some i)) = o
  dsimp only
  split
  · exact (op E _ w).trans (newDs i _)
  · exact op E _ w

end Frame

/-! ## Closed connections -/

/-- What a closed connection remembers. -/
structure Epitaph where
  closed : Bool
  closeCode : Nat
  goaway : Option Nat
  maxPushId : Option Nat
  sessionEstablished : Bool
  sessionId : Nat
  ids : Nat → Nat

def Conn.epitaph (c : Conn) : Epitaph where
  closed := c.closed
  closeCode := c.closeCode
  goaway := c.goaway
  maxPushId := c.maxPushId
  sessionEstablished := c.sessionEstablished
  sessionId := c.sessionId
  ids := fun i => (c.peer i).id

theorem ids_update (peer : Nat → Estream) {i : Nat} {e : Estream} (h : e.id = (peer i).id) :
    (fun j => (Function.update peer i e j).id) = fun j => (peer j).id := by
  funext j
  by_cases hji : j = i
  · subst hji
    simpa using h
  · simp [hji]

theorem Still.epitaph (h : Still w w') : w'.conn.epitaph = w.conn.epitaph := by
  obtain ⟨te, user, hc⟩ := h.conn
  rw [hc]
  rfl

theorem epitaph_notify (hE : E.Lawful) (c : Callback) (hc : w.conn.closed) :
    (E.notify c w).conn.epitaph = w.conn.epitaph :=
  (hE.quiet c w hc).epitaph

theorem epitaph_estreamRelease (i : Nat) (w : World σ) :
    (estreamRelease E i w).conn.epitaph = w.conn.epitaph := by
  have hids := ids_update w.conn.peer (i := i) (e := (w.es i).released) rfl
  simp only [Conn.epitaph, conn_estreamRelease, hids]

theorem epitaph_teardown {fatal : Nat → World σ → World σ} (hf : FatalOk fatal) (is : List Nat)
    (hs : w.conn.sessState = .closed) (hc : w.conn.closed) :
    (teardown E fatal is w).conn.epitaph = w.conn.epitaph := by
  refine (teardown_induct (E := E) hf (P := fun v => v.conn.epitaph = w.conn.epitaph) is hs rfl
    fun v i _ hv => ?_).1
  have hcv : v.conn.closed := (congrArg Epitaph.closed hv).trans hc
  rw [teardownSlot_eq]
  split
  · exact hv
  · simp only [teardownShutdown, hcv, Bool.not_true, Bool.false_and, Bool.false_eq_true, if_false]
    have hmod : (v.modEs i Estream.closeBoth).conn.epitaph = w.conn.epitaph := by
      rw [← hv]
      have hids := ids_update v.conn.peer (i := i) (e := (v.conn.peer i).closeBoth) rfl
      simp only [Conn.epitaph, World.conn_modEs, hids]
    unfold wtReleaseIfDone
    split
    · exact (epitaph_estreamRelease _ _).trans hmod
    · exact hmod

theorem epitaph_sessionConnLost (hE : E.Lawful) (hc : w.conn.closed) :
    (sessionConnLost E w).conn.epitaph = w.conn.epitaph := by
  have hclosed : (sessionClosedWith E (fun _ w => w) 0 [] false w).conn.epitaph
      = w.conn.epitaph := by
    rw [sessionClosedWith_eq]
    split
    · rfl
    · have hdown := epitaph_teardown (E := E) (w := w.setSess .closed) fatalOk_skip
        (List.range w.conn.streamCapacity) rfl hc
      rw [epitaph_notify hE _ ((congrArg Epitaph.closed hdown).trans hc), hdown]
      rfl
  have hfailed : (sessionFailed E .connection w).conn.epitaph = w.conn.epitaph :=
    epitaph_notify (w := w.setSess .failed) hE _ hc
  unfold sessionConnLost
  split <;> first | exact hclosed | exact hfailed | rfl

/-- A connection that dies remembers what it knew. -/
theorem epitaph_connFatal (hE : E.Lawful) (err : Nat) (ho : w.conn.closed = false) :
    (connFatal E err w).conn.epitaph = { w.conn.epitaph with closed := true, closeCode := err } := by
  unfold connFatal
  rw [if_neg (by simp [ho])]
  dsimp only
  have hdead : (((connLatchError ⟨.quicApp, err, 0, 0⟩ w).updConn fun c =>
      { c with closed := true, closeCode := err }).op E (.connClose err)).2.conn.epitaph
        = { w.conn.epitaph with closed := true, closeCode := err } := by
    simp only [connLatchError, World.op_snd, World.conn_log, World.conn_updConn]
    split <;> rfl
  have hlost := (epitaph_sessionConnLost hE (congrArg Epitaph.closed hdead :)).trans hdead
  exact (epitaph_notify hE _ (congrArg Epitaph.closed hlost :)).trans hlost

end Wtquic.Engine
