-- SUMMARY: What calls do to a session that is over, and to streams that are finished; nested callbacks.
import Wtquic.Engine.CallActs

namespace Wtquic.Engine

/-! # Nested callbacks -/

variable {σ : Type} {E : Ctx σ} {D : Doomed} {w w' w'' : World σ}

/-! ## Calls after the session -/

namespace Wanes

@[refl] theorem refl (w : World σ) : Wanes w w := fun _ => .inl ⟨rfl, rfl⟩

theorem trans (h : Wanes w w') (h' : Wanes w' w'') : Wanes w w'' := fun i => by
  rcases h' i with ⟨hk', hg'⟩ | hf
  · exact (h i).imp (fun ⟨hk, hg⟩ => ⟨hk'.trans hk, hg'.trans hg⟩) hk'.trans
  · exact .inr hf

theorem of_torn {v : World σ} (h : TornDown w v) : Wanes w v := fun i =>
  (h.slot i).kind.imp (fun hk => ⟨hk, (h.slot i).generation⟩) And.right

theorem of_settled (h : Settled w w') : Wanes w w' := fun i => by
  obtain ⟨u, hu⟩ := h.slots i
  exact .inl (by simp [hu])

theorem estreamRelease (i : Nat) (w : World σ) : Wanes w (estreamRelease E i w) := fun j => by
  rw [es_estreamRelease]
  split
  · exact .inr rfl
  · exact .inl ⟨rfl, rfl⟩

end Wanes

namespace Barren

@[refl] theorem refl (w : World σ) : Barren w w := fun h => ⟨h, .refl w⟩

theorem trans {v u : World σ} (h : Barren w v) (h' : Barren v u) : Barren w u := fun ho =>
  have ⟨ho₁, hf₁⟩ := h ho
  have ⟨ho₂, hf₂⟩ := h' ho₁
  ⟨ho₂, hf₁.trans hf₂⟩

/-- Nothing is claimed of a session that is not over. -/
theorem of_active (ha : w.conn.sessState.active) : Barren w w' := fun ho => by
  revert ha ho
  cases w.conn.sessState <;> simp [SessState.active, SessState.over]

theorem of_early (he : w.conn.sessState.early) : Barren w w' := fun ho => by
  revert he ho
  cases w.conn.sessState <;> simp [SessState.early, SessState.over]

theorem of_settled (h : Settled w w') : Barren w w' := fun ho =>
  ⟨by rw [h.sess]; exact ho, .of_settled h⟩

theorem op (o : DrvOp) (w : World σ) : Barren w (w.op E o).2 := fun h => ⟨h, .refl w⟩

theorem setSess {s : SessState} (hs : s.over) (w : World σ) : Barren w (w.setSess s) :=
  fun _ => ⟨hs, .refl w⟩

theorem modEs {i : Nat} {f : Estream → Estream} (hk : (f (w.es i)).kind = (w.es i).kind)
    (hg : (f (w.es i)).generation = (w.es i).generation) : Barren w (w.modEs i f) := fun ho =>
  ⟨by simpa using ho, fun j => by
    rw [World.es_modEs]
    split
    · next hji =>
      subst hji
      exact .inl ⟨hk, hg⟩
    · exact .inl ⟨rfl, rfl⟩⟩

theorem estreamRelease (i : Nat) (w : World σ) : Barren w (estreamRelease E i w) := fun ho =>
  ⟨by simpa using ho, .estreamRelease i w⟩

theorem wtReleaseIfDone (i : Nat) (w : World σ) : Barren w (wtReleaseIfDone E i w) := by
  unfold Engine.wtReleaseIfDone
  split
  · exact estreamRelease _ _
  · rfl

end Barren

/-- What makes the calls of a context barren. -/
def Ctx.Quiesces (E : Ctx σ) : Prop := ∀ c w, Engine.Barren w (E.notify c w)

namespace Barren

theorem connFatal (hE : E.Quiesces) (err : Nat) (w : World σ) : Barren w (connFatal E err w) := by
  unfold Engine.connFatal
  split
  · rfl
  refine Barren.trans ?_ (hE _ _)
  refine Barren.trans (v := (((connLatchError ⟨.quicApp, err, 0, 0⟩ w).updConn fun c =>
    { c with closed := true, closeCode := err }).op E (.connClose err)).2) ?_ ?_
  · exact of_settled ((Settled.connLatchError _ w).trans
      ((Settled.die err _).trans (Settled.op (fun _ => rfl) _)))
  · unfold sessionConnLost
    split
    · exact of_active (by simp_all [SessState.active])
    · exact of_active (by simp_all [SessState.active])
    · exact of_early (by simp_all [SessState.early])
    · exact of_early (by simp_all [SessState.early])
    · exact of_early (by simp_all [SessState.early])
    all_goals rfl

theorem shutdownRaw (hE : E.Quiesces) (ds : Nat) (a r : Bool) (code : Nat) (w : World σ) :
    Barren w (shutdownRaw E ds a r code w) := by
  unfold Engine.shutdownRaw shutdownRawWith
  dsimp only
  split
  · exact (op _ w).trans (connFatal hE _ _)
  · exact op _ w

theorem sessionClosed (code : UInt32) (reason : Bytes) (clean : Bool) (w : World σ) :
    Barren w (sessionClosed E code reason clean w) := by
  by_cases ha : sessionActive w
  · exact of_active ha
  · rw [Engine.sessionClosed, sessionClosedWith_eq, if_pos (by simpa using ha)]

theorem sessionSendCapsule (hE : E.Quiesces) (es : Nat) (cap : Bytes) (fin : Bool) (w : World σ) :
    Barren w (sessionSendCapsule E es cap fin w).2 := by
  unfold Engine.sessionSendCapsule
  split
  · rfl
  split
  · rfl
  dsimp only
  split
  · exact op _ w
  · exact (op _ w).trans (connFatal hE _ _)

theorem wtSend (i : Nat) (spans : List Bytes) (fin : Bool) (cookie : Nat) (w : World σ) :
    Barren w (wtSend E i spans fin cookie w).2 := by
  unfold Engine.wtSend
  dsimp only
  split
  · rfl
  split
  · rfl
  split
  · rfl
  split
  · rfl
  split
  · have hsent : Barren w ((w.op E (.sendGather (w.es i).ds spans fin cookie)).2.modEs i
        fun e => { e with wtApplicationSent := true }) := (op _ w).trans (modEs (by rfl) (by rfl))
    split
    · exact hsent.trans (Barren.trans (modEs (by rfl) (by rfl)) (wtReleaseIfDone _ _))
    · exact hsent
  · exact op _ w

theorem wtShutdownWith (hE : E.Quiesces) (i : Nat) (req : Shutdown) (app : Bool) (w : World σ) :
    Barren w (wtShutdownWith E i req app w).2 := by
  unfold Engine.wtShutdownWith
  dsimp only
  split
  · rfl
  split
  · rfl
  split
  · rfl
  split
  · exact op _ w
  split
  · exact (op _ w).trans (connFatal hE _ _)
  split
  · exact op _ w
  · exact (op _ w).trans (Barren.trans (modEs (by rfl) (by rfl)) (wtReleaseIfDone _ _))

theorem wtShutdownCode (hE : E.Quiesces) (i : Nat) (code : UInt32) (req : Nat → Shutdown)
    (w : World σ) : Barren w (wtShutdownCode E i code req w).2 := by
  unfold Engine.wtShutdownCode
  split
  · rfl
  · exact wtShutdownWith hE _ _ _ _

theorem wtRecvEnable (i : Nat) (enabled : Bool) (w : World σ) :
    Barren w (wtRecvEnable E i enabled w).2 := by
  unfold Engine.wtRecvEnable
  dsimp only
  split
  · rfl
  split
  · rfl
  split
  · rfl
  have hop : Barren w ((w.modEs i fun e => { e with recvPaused := !enabled }).op E
      (.recvEnable (w.es i).ds enabled)).2 := Barren.trans (modEs (by rfl) (by rfl)) (op _ _)
  split
  · exact hop.trans (modEs (by rfl) (by rfl))
  · exact hop

/-- A call that needs an active session does nothing without one. -/
theorem of_inactive (h : w.conn.sessState.active = false → w' = w) : Barren w w' := fun ho => by
  have : w' = w := h (by
    revert ho
    cases w.conn.sessState <;> simp [SessState.active, SessState.over])
  rw [this]
  exact ⟨ho, .refl w⟩

theorem apply (hE : E.Quiesces) (a : AppCall) (w : World σ) : Barren w (a.apply E w) := by
  cases a with
  | clientConnect cfg =>
    by_cases hs : w.conn.sessState = .idle
    · exact of_early (by simp [hs, SessState.early])
    · have hsame : (clientConnect E cfg w).2 = w := by
        unfold clientConnect
        split
        · rfl
        split
        · rfl
        rw [if_pos (by simp [hs])]
      rw [AppCall.apply, hsame]
  | sessionClose code reason =>
    simp only [AppCall.apply, sessionClose]
    repeat' split
    all_goals first
      | rfl
      | exact sessionSendCapsule hE _ _ _ _
      | exact (sessionSendCapsule hE _ _ _ _).trans (sessionClosed _ _ _ _)
  | sessionDrain =>
    simp only [AppCall.apply, sessionDrain]
    repeat' split
    all_goals first | rfl | exact sessionSendCapsule hE _ _ _ _
  | wtOpen bidi =>
    refine of_inactive fun ha => ?_
    simp only [AppCall.apply, wtOpen, sessionActive, ha, Bool.not_false, if_true]
    split <;> rfl
  | wtEnableSendCommit i =>
    exact of_inactive fun ha => by simp [AppCall.apply, wtEnableSendCommit, sessionActive, ha]
  | wtSend i spans fin cookie => exact wtSend i spans fin cookie w
  | wtShutdown i req => exact wtShutdownWith hE i req true w
  | wtReset i code => exact wtShutdownCode hE i code _ w
  | wtStop i code => exact wtShutdownCode hE i code _ w
  | wtAbort i code => exact wtShutdownCode hE i code _ w
  | wtReject i =>
    simp only [AppCall.apply, wtReject]
    split
    · rfl
    · exact Barren.trans (modEs (by rfl) (by rfl)) (wtShutdownWith hE _ _ _ _)
  | wtRecvEnable i enabled => exact wtRecvEnable i enabled w
  | setUser i user => exact modEs rfl rfl
  | dgramSend spans =>
    refine of_inactive fun ha => ?_
    simp only [AppCall.apply, dgramSend, sessionActive, ha, Bool.not_false, if_true]
    repeat' split
    all_goals rfl
  | dgramMaxSize =>
    simp only [AppCall.apply, dgramMaxSize]
    split
    · rfl
    · exact op _ _
  | sealTransportError => exact of_settled (.connLatchError _ w)

theorem call (hE : E.Quiesces) (a : AppCall) (w : World σ) : Barren w (a.run E w) := by
  unfold AppCall.run
  split
  · exact apply hE a w
  · rfl

end Barren

/-! ## Calls and finished streams -/

/-- The end of a session is an end, and no stream is born in it. -/
def Closes (w w' : World σ) : Prop := w'.conn.sessState.over ∧ Wanes w w'

theorem Closes.notify (hE : E.Quiesces) (h : Closes w w') (c : Callback) :
    Closes w (E.notify c w') :=
  have ⟨ho, hw⟩ := hE c w' h.1
  ⟨ho, h.2.trans hw⟩

theorem Closes.sessionClosedWith (hE : E.Quiesces) {fatal : Nat → World σ → World σ}
    (hf : FatalOk fatal) (ha : w.conn.sessState.active) (code : UInt32) (reason : Bytes)
    (clean : Bool) : Closes w (sessionClosedWith E fatal code reason clean w) := by
  rw [sessionClosedWith_eq, if_neg (by simpa [sessionActive] using ha)]
  have ht := (TornDown.loop (E := E) hf (List.range w.conn.streamCapacity)
    (show (w.setSess .closed).conn.sessState = .closed from rfl)).1
  refine Closes.notify hE ⟨?_, .of_torn ht⟩ _
  rw [(teardown_induct (E := E) (w := w.setSess .closed) hf (P := fun _ => True)
    (List.range w.conn.streamCapacity) rfl trivial fun _ _ _ _ => trivial).2]
  rfl

theorem Closes.sessionConnLost (hE : E.Quiesces) (w : World σ) :
    Closes w (sessionConnLost E w) := by
  unfold Engine.sessionConnLost
  cases hs : w.conn.sessState with
  | established | draining =>
    exact sessionClosedWith hE fatalOk_skip (by simp [hs, SessState.active]) _ _ _
  | idle | pending | sent => exact Closes.notify hE ⟨rfl, .refl _⟩ _
  | closed | rejected | failed => exact ⟨by simp [hs, SessState.over], .refl w⟩

theorem Closes.connFatal (hE : E.Quiesces) (err : Nat) (hc : w.conn.closed = false) :
    Closes w (connFatal E err w) := by
  unfold Engine.connFatal
  rw [if_neg (by simp [hc])]
  have hdie : Wanes w (((connLatchError ⟨.quicApp, err, 0, 0⟩ w).updConn fun c =>
      { c with closed := true, closeCode := err }).op E (.connClose err)).2 :=
    .of_settled ((Settled.connLatchError _ w).trans
      ((Settled.die err _).trans (Settled.op (fun _ => rfl) _)))
  have hlost := Closes.sessionConnLost hE (((connLatchError ⟨.quicApp, err, 0, 0⟩ w).updConn fun c =>
      { c with closed := true, closeCode := err }).op E (.connClose err)).2
  exact Closes.notify hE ⟨hlost.1, hdie.trans hlost.2⟩ _

namespace Dormant

@[refl] theorem refl (w : World σ) : Dormant w w := fun h => .inr ⟨h, fun _ _ => ⟨_, rfl⟩⟩

theorem trans {v u : World σ} (h : Dormant w v) (h' : Dormant v u) (hb : Barren v u) :
    Dormant w u := by
  intro ha
  rcases h ha with ⟨ho, hk⟩ | ⟨hv, hs⟩
  · obtain ⟨ho', hw⟩ := hb ho
    refine .inl ⟨ho', fun i hd => ?_⟩
    rcases hw i with ⟨hk', hg'⟩ | hf
    · exact (hk i hd).imp (fun ⟨h, hg⟩ => ⟨hk'.trans h, hg'.trans hg⟩) hk'.trans
    · exact .inr hf
  refine (h' hv).imp (fun ⟨hu, hk⟩ => ⟨hu, fun i hd => ?_⟩) fun ⟨hu, hs'⟩ => ⟨hu, fun i hd => ?_⟩
  · obtain ⟨a, he⟩ := hs i hd
    have := hk i (by rw [he]; exact hd)
    rwa [he] at this
  · obtain ⟨a, he⟩ := hs i hd
    obtain ⟨b, he'⟩ := hs' i (by rw [he]; exact hd)
    exact ⟨b, by rw [he', he]⟩

theorem of_closes (h : Closes w w') : Dormant w w' := fun _ =>
  .inl ⟨h.1, fun i hd => (h.2 i).imp_left fun ⟨hk, hg⟩ =>
    ⟨hk.trans (Estream.kind_of_wtDone hd), hg⟩⟩

/-- A step that keeps the state of the session. -/
theorem of_slots (hs : w'.conn.sessState = w.conn.sessState)
    (h : ∀ i, (w.es i).wtDone → ∃ u, w'.es i = { w.es i with user := u }) : Dormant w w' :=
  fun ha => .inr ⟨hs ▸ ha, h⟩

theorem of_es_eq (hs : w'.conn.sessState = w.conn.sessState) (h : w'.es = w.es) : Dormant w w' :=
  of_slots hs fun i _ => ⟨_, by rw [h]⟩

theorem op (o : DrvOp) (w : World σ) : Dormant w (w.op E o).2 := of_es_eq rfl rfl

/-- A write to a stream that is not finished. -/
theorem modEs {i : Nat} {f : Estream → Estream} (hi : (w.es i).wtDone = false) :
    Dormant w (w.modEs i f) := by
  refine of_slots (by simp) fun j hd => ?_
  rw [World.es_modEs_of_ne]
  · exact ⟨_, rfl⟩
  · rintro rfl
    simp [hi] at hd

theorem setUser (i : Nat) (user : Option Nat) (w : World σ) : Dormant w (setUser i user w) := by
  refine of_slots (by simp [Engine.setUser]) fun j _ => ?_
  rw [Engine.setUser, World.es_modEs]
  split
  · next hji =>
    subst hji
    exact ⟨_, rfl⟩
  · exact ⟨_, rfl⟩

theorem connFatal (hE : E.Quiesces) (err : Nat) (w : World σ) : Dormant w (connFatal E err w) := by
  by_cases hc : w.conn.closed
  · rw [Engine.connFatal, if_pos hc]
  · exact of_closes (.connFatal hE err (by simpa using hc))

theorem sessionClosed (hE : E.Sound) (code : UInt32) (reason : Bytes) (clean : Bool)
    (w : World σ) : Dormant w (sessionClosed E code reason clean w) := fun ha =>
  of_closes (.sessionClosedWith hE.barren (fatalOk_connFatal hE.toLawful) ha code reason clean) ha

theorem sessionSendCapsule (hE : E.Quiesces) (es : Nat) (cap : Bytes) (fin : Bool) (w : World σ) :
    Dormant w (sessionSendCapsule E es cap fin w).2 := by
  unfold Engine.sessionSendCapsule
  split
  · rfl
  split
  · rfl
  dsimp only
  split
  · exact op _ w
  · exact (op _ w).trans (connFatal hE _ _) (Barren.connFatal hE _ _)

/-- A step that touches only slot `i`, whose stream was not finished. -/
theorem of_slot {i : Nat} (hs : w'.conn.sessState = w.conn.sessState)
    (h : ∀ j, j ≠ i → w'.es j = w.es j) (hi : (w.es i).wtDone = false) : Dormant w w' :=
  of_slots hs fun j hd => by
    rw [h j]
    · exact ⟨_, rfl⟩
    · rintro rfl
      simp [hi] at hd

theorem es_wtReleaseIfDone {i j : Nat} (hji : j ≠ i) (w : World σ) :
    (Engine.wtReleaseIfDone E i w).es j = w.es j := by
  unfold Engine.wtReleaseIfDone
  split
  · rw [es_estreamRelease, if_neg hji]
  · rfl

/-- The second half of an open touches only its slot. -/
theorem wtOpened (hE : E.Quiesces) {i : Nat} (hi : (w.es i).wtDone = false)
    (hs : w'.conn.sessState = w.conn.sessState) (h : ∀ j, j ≠ i → w'.es j = w.es j)
    (bidi : Bool) (ds id : Nat) : Dormant w (wtOpened E bidi i ds id w').2.2 := by
  have hrelease : ∀ v : World σ, v.conn.sessState = w.conn.sessState →
      (∀ j, j ≠ i → v.es j = w.es j) →
      Dormant w (Engine.connFatal E H3Err.internalError (estreamRelease E i v)) := by
    intro v hv he
    refine (of_slot (i := i) (by simpa using hv) (fun j hj => ?_) hi).trans (connFatal hE _ _)
      (Barren.connFatal hE _ _)
    rw [es_estreamRelease, if_neg hj]
    exact he j hj
  have hother : ∀ e j, j ≠ i → (w'.putEs i e).es j = w.es j := fun e j hj =>
    (World.es_putEs_of_ne hj _ _).trans (h j hj)
  unfold Engine.wtOpened
  dsimp only
  generalize Preamble.encode _ _ _ = pre
  cases pre with
  | error e => exact hrelease _ hs (hother _)
  | ok pre =>
    dsimp only
    split
    · exact of_slot (i := i) hs (hother _) hi
    · exact hrelease _ hs (hother _)

theorem wtOpen (hE : E.Quiesces) (bidi : Bool) (w : World σ) : Dormant w (wtOpen E bidi w).2.2 := by
  unfold Engine.wtOpen
  split
  · rfl
  split
  · rfl
  split
  · rfl
  split
  · rfl
  next i hi =>
  have hd : (w.es i).wtDone = false := by
    simp [Estream.wtDone, (World.findFree_some hi).2.2.1]
  dsimp only
  have hs : (w.claim i (Leads.opening w.conn)).conn.sessState = w.conn.sessState := rfl
  have hother : ∀ j, j ≠ i → (w.claim i (Leads.opening w.conn)).es j = w.es j :=
    fun j hj => World.es_putEs_of_ne hj _ _
  rw [show ({ id := streamIdUnknown, resident := w.conn.budgeted
              kind := if w.conn.admissionEnabled then .reserved else .free } : Estream)
    = Leads.opening w.conn from rfl]
  generalize w.claim i (Leads.opening w.conn) = v at hs hother ⊢
  have hconn := World.conn_openFor E bidi i v
  generalize v.openFor E bidi i = x at hconn ⊢
  obtain ⟨r, ds, u⟩ := x
  dsimp only at hconn ⊢
  have hsu : u.conn.sessState = w.conn.sessState := by rw [hconn, hs]
  have hu : ∀ j, j ≠ i → u.es j = w.es j := fun j hj => by
    rw [World.es, hconn]
    exact hother j hj
  split
  · exact of_slot (i := i) hsu (fun j hj => (World.es_putEs_of_ne hj _ _).trans (hu j hj)) hd
  split
  · refine of_slot (i := i) (by simpa using hsu) (fun j hj => ?_) hd
    rw [es_estreamRelease, if_neg hj, World.es_modEs_of_ne hj, hu j hj]
  · exact wtOpened hE hd hsu hu _ _ _

theorem wtEnableSendCommit (i : Nat) (w : World σ) : Dormant w (wtEnableSendCommit i w).2 := by
  unfold Engine.wtEnableSendCommit
  dsimp only
  split
  · rfl
  next h =>
  split
  · rfl
  · refine modEs ?_
    simp only [Bool.or_eq_true, not_or, Bool.not_eq_true, Bool.not_eq_false'] at h
    simp [Estream.wtDone, h.1.2]

theorem wtSend (i : Nat) (spans : List Bytes) (fin : Bool) (cookie : Nat) (w : World σ) :
    Dormant w (wtSend E i spans fin cookie w).2 := by
  unfold Engine.wtSend
  dsimp only
  split
  · rfl
  split
  · rfl
  next hopen =>
  have hd : (w.es i).wtDone = false := by
    simp only [not_or, not_not, Bool.not_eq_true', Bool.not_eq_false] at hopen
    simp [Estream.wtDone, hopen.2]
  split
  · rfl
  split
  · rfl
  split
  · split
    · refine of_slot (i := i) (by simp [World.op_snd]) (fun j hj => ?_) hd
      rw [es_wtReleaseIfDone hj, World.es_modEs_of_ne hj, World.es_modEs_of_ne hj]
      rfl
    · exact of_slot (i := i) (by simp [World.op_snd]) (fun j hj => World.es_modEs_of_ne hj _ _) hd
  · exact op _ w

theorem wtShutdownWith (hE : E.Quiesces) (i : Nat) (req : Shutdown) (app : Bool) (w : World σ) :
    Dormant w (wtShutdownWith E i req app w).2 := by
  unfold Engine.wtShutdownWith
  dsimp only
  split
  · rfl
  split
  · rfl
  split
  · rfl
  next eff heff =>
  split
  · exact op _ w
  split
  · exact (op _ w).trans (connFatal hE _ _) (Barren.connFatal hE _ _)
  split
  · exact op _ w
  · refine of_slot (i := i) (by simp [World.op_snd]) (fun j hj => ?_)
      (Estream.not_done_of_live (normalizeShutdown_live heff))
    rw [es_wtReleaseIfDone hj, World.es_modEs_of_ne hj]
    rfl

theorem wtShutdownCode (hE : E.Quiesces) (i : Nat) (code : UInt32) (req : Nat → Shutdown)
    (w : World σ) : Dormant w (wtShutdownCode E i code req w).2 := by
  unfold Engine.wtShutdownCode
  split
  · rfl
  · exact wtShutdownWith hE _ _ _ _

theorem wtRecvEnable (i : Nat) (enabled : Bool) (w : World σ) :
    Dormant w (wtRecvEnable E i enabled w).2 := by
  unfold Engine.wtRecvEnable
  dsimp only
  split
  · rfl
  split
  · rfl
  next hopen =>
  have hd : (w.es i).wtDone = false := by
    simp only [not_or, not_not, Bool.not_eq_true', Bool.not_eq_false] at hopen
    simp [Estream.wtDone, hopen.2]
  split
  · rfl
  split
  · refine of_slot (i := i) (by simp [World.op_snd]) (fun j hj => ?_) hd
    rw [World.es_modEs_of_ne hj, World.op_snd, World.es_log, World.es_modEs_of_ne hj]
  · refine of_slot (i := i) (by simp [World.op_snd]) (fun j hj => ?_) hd
    rw [World.op_snd, World.es_log, World.es_modEs_of_ne hj]

theorem apply (hE : E.Sound) (a : AppCall) (w : World σ) : Dormant w (a.apply E w) := by
  have hq : E.Quiesces := hE.barren
  cases a with
  | clientConnect cfg =>
    intro ha
    have hsame : (clientConnect E cfg w).2 = w := by
      unfold clientConnect
      split
      · rfl
      split
      · rfl
      rw [if_pos]
      revert ha
      cases w.conn.sessState <;> simp [SessState.active]
    rw [AppCall.apply, hsame]
    exact refl w ha
  | sessionClose code reason =>
    simp only [AppCall.apply, sessionClose]
    repeat' split
    all_goals first
      | rfl
      | exact sessionSendCapsule hq _ _ _ _
      | exact (sessionSendCapsule hq _ _ _ _).trans (sessionClosed hE _ _ _ _)
          (Barren.sessionClosed _ _ _ _)
  | sessionDrain =>
    simp only [AppCall.apply, sessionDrain]
    repeat' split
    all_goals first | rfl | exact sessionSendCapsule hq _ _ _ _
  | wtOpen bidi => exact wtOpen hq bidi w
  | wtEnableSendCommit i => exact wtEnableSendCommit i w
  | wtSend i spans fin cookie => exact wtSend i spans fin cookie w
  | wtShutdown i req => exact wtShutdownWith hq i req true w
  | wtReset i code => exact wtShutdownCode hq i code _ w
  | wtStop i code => exact wtShutdownCode hq i code _ w
  | wtAbort i code => exact wtShutdownCode hq i code _ w
  | wtReject i =>
    simp only [AppCall.apply, wtReject]
    split
    · rfl
    · exact (setUser i none w).trans (wtShutdownWith hq _ _ _ _) (Barren.wtShutdownWith hq _ _ _ _)
  | wtRecvEnable i enabled => exact wtRecvEnable i enabled w
  | setUser i user => exact setUser i user w
  | dgramSend spans =>
    simp only [AppCall.apply, dgramSend]
    repeat' split
    all_goals first | rfl | exact of_es_eq rfl rfl
  | dgramMaxSize =>
    simp only [AppCall.apply, dgramMaxSize]
    split
    · rfl
    · exact op _ _
  | sealTransportError =>
    have hseal := Settled.connLatchError (⟨.none, 0, 0, 0⟩ : TransportError) w
    exact of_slots hseal.sess fun i _ => hseal.slots i

theorem call (hE : E.Sound) (a : AppCall) (w : World σ) : Dormant w (a.run E w) := by
  unfold AppCall.run
  split
  · exact apply hE a w
  · rfl

end Dormant

/-! ## Nested contexts -/

theorem Ctx.Nested.sound (hE : E.Nested) : E.Sound := by
  induction hE with
  | leaf h =>
    refine ⟨(Ctx.Nested.leaf h).lawful, fun D c w hw => ?_, fun c w => ?_, fun c w => ?_⟩ <;>
      obtain ⟨e, he⟩ := h c w <;> rw [he]
    · exact hw.of_conn_eq rfl hw.named
    · exact fun ho => ⟨ho, .refl w⟩
    · exact Dormant.of_es_eq rfl rfl
  | node hE' h ih =>
    refine ⟨(Ctx.Nested.node hE' h).lawful, fun D c w hw => ?_, fun c w => ?_, fun c w => ?_⟩ <;>
      obtain ⟨w', hw', he⟩ := h c w <;> rw [he]
    · have hcalls : Coherent D (w.log (.cb c)) → Coherent D w' :=
        hw'.rel (R := fun u v => Coherent D u → Coherent D v) (fun _ => id)
          (fun h h' => h' ∘ h) (fun _ _ hu => hu.of_conn_eq rfl hu.named)
          fun a _ => (Leads.call (N := .call) ih a _).coherent
      exact (hcalls (hw.log _)).log _
    · exact hw'.rel Barren.refl Barren.trans (fun u _ ho => ⟨ho, .refl u⟩)
        fun a v => Barren.call ih.barren a v
    · have hcalls : Barren (w.log (.cb c)) w' ∧ Dormant (w.log (.cb c)) w' :=
        hw'.rel (R := fun u v => Barren u v ∧ Dormant u v) (fun u => ⟨.refl u, .refl u⟩)
          (fun h h' => ⟨h.1.trans h'.1, h.2.trans h'.2 h'.1⟩)
          (fun u _ => ⟨fun ho => ⟨ho, .refl u⟩, .of_es_eq rfl rfl⟩)
          fun a v => ⟨Barren.call ih.barren a v, Dormant.call ih a v⟩
      exact hcalls.2

/-- A callback recipient keeps the relation `Q` from coherent worlds on, once it has heard. -/
def Ctx.Keeps (E : Ctx σ) (Q : World σ → World σ → Prop) : Prop :=
  ∀ D c w, Coherent D w → Q (w.log (.cb c)) (E.notify c w)

namespace Ctx.Keeps

variable {Q : World σ → World σ → Prop}

/-- A relation that a draining session keeps until it is reported, and that the callbacks keep. -/
theorem sessionDraining (hI : E.Keeps Q) (hrefl : ∀ w, Q w w)
    (htrans : ∀ {w w' w''}, Q w w' → Q w' w'' → Q w w'')
    (hmark : ∀ u : World σ, u.conn.closed = false → u.conn.drainRx = false →
      u.conn.sessState.active → Q u ((beginDrain u).log (.cb .sessionDraining)))
    (hw : Coherent D w) : Q w (sessionDraining E w) := by
  rcases sessionDraining_cases E w with he | ⟨hc, hd, ha, he⟩
  · rw [he]
    exact hrefl w
  · rw [he]
    exact htrans (hmark w hc hd ha) (hI D _ _ hw.beginDrain)

end Ctx.Keeps

/-- What every act keeps, a sequence of acts keeps. -/
theorem Acts.rel {N : News} {Q : World σ → World σ → Prop} (hrefl : ∀ w, Q w w)
    (htrans : ∀ {w w' w''}, Q w w' → Q w' w'' → Q w w'')
    (hact : ∀ {D w w'}, Coherent D w → Act E N D w w' → Q w w') (h : Acts E N w w') : Q w w' := by
  induction h with
  | refl => exact hrefl w
  | tail _ hmove ih =>
    obtain ⟨D, hw, ha⟩ := hmove
    exact htrans ih (hact hw ha)

/-- A relation that every act keeps when the callbacks in it do, as long as the news of the
input in progress satisfy `P`. -/
structure ActRule (P : News → Prop) (Q : World σ → World σ → Prop) : Prop where
  call : P .call
  refl : ∀ w, Q w w
  trans : ∀ {w w' w''}, Q w w' → Q w' w'' → Q w w''
  ret : ∀ w, Q w (w.log .ret)
  ext : ∀ w (e : σ), Q w { w with ext := e }
  act : ∀ {E : Ctx σ} {N : News}, P N → E.Sound → E.Keeps Q →
    ∀ {D w w'}, Coherent D w → Act E N D w w' → Q w w'

/-- The callbacks keep what every act keeps. -/
theorem ActRule.keeps {P : News → Prop} {Q : World σ → World σ → Prop} (hQ : ActRule P Q)
    (hE : E.Nested) : E.Keeps Q := by
  induction hE with
  | leaf h =>
    intro D c w _
    obtain ⟨e, he⟩ := h c w
    rw [he]
    exact hQ.trans (hQ.ext _ e) (hQ.ret _)
  | @node E E' hE' h ih =>
    intro D c w hw
    obtain ⟨w', hcalls, he⟩ := h c w
    rw [he]
    have hboth := hcalls.rel (R := fun u v => Coherent D u → Coherent D v ∧ Q u v)
      (fun u hu => ⟨hu, hQ.refl u⟩)
      (fun h h' hu => ⟨(h' (h hu).1).1, hQ.trans (h hu).2 (h' (h hu).1).2⟩)
      (fun u e hu => ⟨hu.of_conn_eq rfl hu.named, hQ.ext u e⟩)
      fun a u hu => by
        have hcall := Leads.call (N := .call) (D := D) hE'.sound a u
        exact ⟨hcall.coherent hu,
          (hcall.acts hu).rel hQ.refl hQ.trans (hQ.act hQ.call hE'.sound ih)⟩
    exact hQ.trans (hboth (hw.log _)).2 (hQ.ret w')

theorem Env.sound (env : Env) (depth : Nat) : (env.ctx (σ := σ) depth).Sound :=
  (env.nested depth).sound

end Wtquic.Engine
