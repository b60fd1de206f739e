-- SUMMARY: The acts of bootstrap, of the peer's control stream and of QPACK bytes.
import Wtquic.Engine.WalkActs

namespace Wtquic.Engine

/-! # The acts of control streams -/

variable {σ : Type} {E : Ctx σ} {N : News} {D : Doomed} {w w' : World σ}

theorem Frame.settingsReceived (h : Frame .call w w') (hs : w.conn.settingsReceived) :
    w'.conn.settingsReceived := by
  change w'.conn.mask.settingsReceived
  rw [(h.calm id).1]
  exact hs

/-- The FIN deferred by a parked request leaves the parked slot alone. -/
theorem Keeps.requestStreamFin (hE : E.Lawful) {i : Nat} (hk : (w.es i).kind.http) :
    Keeps i w (requestStreamFin E i w) := by
  have hforget : Keeps i w (forgetSessionEs i w) := by
    unfold forgetSessionEs
    split
    · exact updConn rfl rfl
    · rfl
  have hkf : ((forgetSessionEs i w).es i).kind.http := by
    rw [hforget.kind]
    exact hk
  have hfail := (Frame.sessionFailed hE .badResponse w).keeps hk
  unfold Engine.requestStreamFin sessionStreamFin
  dsimp only
  split
  · rfl
  split
  · split
    · exact hforget.call (Frame.connFatal hE _ _) hk
    split
    · exact hforget
    split
    · split
      · exact hforget.trans (requestStreamRefuseErr hE hkf _)
      · exact hforget.call (Frame.connFatal hE _ _) hk
    · exact hforget.call (Frame.sessionClosed hE _ _ _ _) hk
  split
  · split
    · exact hfail.call (Frame.connFatal hE _ _) hk
    · exact (Frame.connFatal hE _ _).keeps hk
  split
  · exact (Frame.connFatal hE _ _).keeps hk
  split
  · exact hfail
  · rfl

namespace Leads

/-! ## Bootstrap -/

theorem openLocal (hE : E.Sound) (store : Nat → Conn → Conn)
    (hstore : ∀ ds (v : World σ), Leads E N D v (v.updConn (store ds))) (bytes : Bytes)
    (w : World σ) : Leads E N D w (openLocal E store bytes w).2 := by
  unfold Engine.openLocal
  have hop : Leads E N D w (w.op E (.openUni none)).2 := op hE rfl w
  dsimp only
  split
  · exact hop
  · exact hop.trans ((newDetachedDs hE _).trans ((hstore _ _).trans (op hE rfl _)))

theorem connOpenLocals (hE : E.Sound) (w : World σ) : Leads E N D w (connOpenLocals E w).2 := by
  have hctrl := openLocal (N := N) (D := D) hE (fun ds c => { c with localCtrl := ds })
    fun _ _ => updConn hE rfl rfl rfl rfl rfl fun _ => .inl
  have henc := openLocal (N := N) (D := D) hE (fun ds c => { c with localQpkEnc := ds })
    fun _ _ => updConn hE rfl rfl rfl rfl rfl fun _ => .inl
  have hdec := openLocal (N := N) (D := D) hE (fun ds c => { c with localQpkDec := ds })
    fun _ _ => updConn hE rfl rfl rfl rfl rfl fun _ => .inl
  have htry : Leads E N D w (w.updConn fun c => { c with localsAttempted := true }) :=
    updConn hE rfl rfl rfl rfl rfl fun _ => .inl
  unfold Engine.connOpenLocals
  dsimp only
  split
  · rfl
  split
  · exact htry.trans (hctrl _ _)
  split
  · exact htry.trans ((hctrl _ _).trans (henc _ _))
  · exact htry.trans ((hctrl _ _).trans ((henc _ _).trans (hdec _ _)))

theorem start (hE : E.Sound) (w : World σ) : Leads E N D w (start E w).2 := by
  unfold Engine.start
  split
  · rfl
  have hstart : Leads E N D w (w.updConn fun c => { c with started := true }) :=
    updConn hE rfl rfl rfl rfl rfl fun _ => .inl
  dsimp only
  split
  · exact hstart
  · exact hstart.trans (connOpenLocals hE _)

theorem connOpenLocalsIfDeferred (hE : E.Sound) (w : World σ) :
    Leads E N D w (connOpenLocalsIfDeferred E w).2 := by
  unfold Engine.connOpenLocalsIfDeferred
  split
  · rfl
  dsimp only
  split
  · exact (connOpenLocals hE w).trans (connFatal hE _ _)
  · exact connOpenLocals hE w

/-! ## The control stream -/

/-- The control stream. -/
def control (e : Estream) : Prop := e.kind = .control

theorem controlHeader (hE : E.Sound) {i : Nat} (h : H3Frame.Header) (hP : control (w.es i))
    (ho : w.conn.closed = false) :
    Goes E N D i control w (controlHeader E i h w).1 (controlHeader E i h w).2 := by
  have hk : (w.es i).kind = .control := hP
  have hmark : ∀ k, k ≠ .capsule →
      Goes E N D i control w true (w.modEs i fun e => { e with frameKind := k }) := by
    intro k hne
    refine ⟨write hE fun hw => ?_, .modEs rfl, fun _ => ⟨?_, by simpa using ho⟩⟩
    · have hsame := WriteOk.of_trunk hw (e := w.es i) (by simp [hk]) rfl
      have hshape := hsame.ok.shaped
      exact
        { hsame with
          ok :=
            { hsame.ok with
              shaped := ⟨hshape.commit, hshape.pending, hshape.sending, hshape.receiving⟩
              capsule := fun hc => absurd hc hne } }
    · rw [World.es_modEs_self]
      exact hP
  have hdie : ∀ err, Goes E N D i control w false (Engine.connFatal E err w) := fun err =>
    .stop (connFatal hE err w) (.of_call (Frame.connFatal hE.toLawful err w) (by rw [hk]; rfl))
  unfold Engine.controlHeader
  dsimp only
  split
  · exact hdie _
  split
  · exact hdie _
  split
  · exact hdie _
  split
  · split
    · exact hdie _
    · exact hmark _ (by simp)
  split
  · split
    · exact hdie _
    split
    · exact hdie _
    · exact hmark _ (by simp)
  · exact hmark _ (by simp)

theorem controlPayload (hE : E.Sound) {i : Nat} (bs : Bytes) (hP : control (w.es i))
    (ho : w.conn.closed = false) :
    Goes E N D i control w (controlPayload i bs w).1 (controlPayload i bs w).2 := by
  have hk : (w.es i).kind ≠ .free := by simp [show (w.es i).kind = .control from hP]
  unfold Engine.controlPayload
  split
  · refine ⟨appendSetBuf hE hk bs, .inl ?_, fun _ => ⟨?_, ?_⟩⟩
    · simp [Engine.appendSetBuf, World.auditCopy]
    · simpa [Engine.appendSetBuf, World.auditCopy, control] using hP
    · simpa [Engine.appendSetBuf, World.auditCopy] using ho
  · exact .stay hP ho

theorem controlMaxPushId (hE : E.Sound) (v : Nat) (w : World σ) :
    Leads E N D w (controlMaxPushId E v w) := by
  unfold Engine.controlMaxPushId
  split
  · exact connFatal hE _ _
  · exact updConn hE rfl rfl rfl rfl rfl fun _ => .inl

theorem goawayRefuses_some {c : Conn} {v i : Nat} (h : goawayRefuses c v = some i) :
    (c.peer i).kind = .connect ∧ (c.peer i).nativeIdPending = false := by
  have := List.find?_some h
  simp only [Bool.and_eq_true, beq_iff_eq, Bool.not_eq_true'] at this
  exact this.1

/-- A GOAWAY that refuses nothing names no CONNECT. -/
theorem lt_of_not_refused {v i : Nat} (hw : Coherent D w) (h : goawayRefuses w.conn v = none)
    (hk : (w.es i).kind = .connect) (hid : (w.es i).id ≠ streamIdUnknown) : (w.es i).id < v := by
  have hi := hw.slots i (by simp [hk])
  have hnone := List.find?_eq_none.mp h i (List.mem_range.mpr hi.bound)
  have hown : (w.es i).nativeIdPending = false :=
    (hi.owes (.inl hk)).trans (by simpa using hid)
  change ¬ ((w.es i).kind == .connect && !(w.es i).nativeIdPending && v ≤ (w.es i).id) at hnone
  simpa [hk, hown] using hnone

theorem controlGoaway (hE : E.Sound) (v : Nat) (w : World σ) :
    Leads E N D w (controlGoaway E v w) := by
  refine intro fun hw => ?_
  unfold Engine.controlGoaway
  split
  · exact connFatal hE _ _
  next hbad =>
  have hle : ∀ g, w.conn.goaway = some g → v ≤ g := fun g hg => by
    rw [not_or, hg] at hbad
    simpa using hbad.2
  dsimp only
  split
  · next hsent =>
    split
    · next i hi =>
      -- the value is recorded and the CONNECT given up at once
      obtain ⟨hk, hown⟩ := goawayRefuses_some hi
      have hk : (w.es i).kind = .connect := hk
      have hown : (w.es i).nativeIdPending = false := hown
      have hid := (hw.slots i (by simp [hk])).owes (.inl hk)
      refine Leads.trans (refuse hE (act hE ?_)) (sessionDraining hE _)
      have hdead : (w.updConn fun c => { c with goaway := some v }).modEs i
          (fun e => { e with requestDead := true }) = giveUp i (w.es i).id (some v) w := by
        rw [World.modEs_of_occupied (by change (w.es i).kind ≠ .free; simp [hk]), giveUp, ← hown]
        rfl
      rw [hdead]
      refine .givenUp i _ _ hsent.2 hk (fun g hg => ⟨v, rfl, hle g hg⟩) (.inl ⟨rfl, ?_⟩)
      rw [hown] at hid
      exact beq_eq_false_iff_ne.mp hid.symm
    · next hi =>
      exact act hE (.goaway v hle fun _ i hk hid => lt_of_not_refused hw hi hk hid)
  · next hsent =>
    exact act hE (.goaway v hle fun hs i hk _ => absurd ⟨hw.client i hk, hs⟩ hsent)

theorem controlOneVarint (hE : E.Sound) (i : Nat) (w : World σ) :
    Leads E N D w (controlOneVarint E i w) := by
  unfold Engine.controlOneVarint
  dsimp only
  split
  · exact connFatal hE _ _
  split
  · exact connFatal hE _ _
  split
  · exact connFatal hE _ _
  split
  · exact controlMaxPushId hE _ _
  split
  · exact controlGoaway hE _ _
  · rfl

/-! ## The parked request -/

/-- The end of a request stream whose FIN is processed. -/
theorem finish (hE : E.Sound) {i : Nat} (hk : (w.es i).requests)
    (hp : w.conn.parkedEs ≠ some i) :
    Leads E N .none w
      (Engine.estreamRelease E i (Engine.forgetSessionEs i (Engine.requestStreamFin E i w))) := by
  have hkeep := Keeps.requestStreamFin hE.toLawful hk.http
  have hkf : ((Engine.requestStreamFin E i w).es i).requests := by
    rw [Estream.requests, hkeep.kind]
    exact hk
  refine ((requestStreamFin hE hk).trans (releaseForget hE hkf.ne_free hkf.not_critical ?_)).close fun hv => ?_
  · rw [hkeep.parkedEs]
    exact hp
  · refine hv.discharge (by rintro j ⟨⟨⟩, -⟩) ?_
    rintro j ⟨-, rfl⟩ hc
    simp [Estream.released] at hc

theorem conn_restoreParked (i : Nat) (w : World σ) :
    (Engine.restoreParked i w).conn = { w.conn with
      parkedEs := none
      parkedBuf := []
      parkedFin := false
      peer := Function.update w.conn.peer i { w.conn.peer i with setBuf := w.conn.parkedBuf } } := by
  simp [Engine.restoreParked, Engine.parkedRequestCancel, World.auditCopy]

theorem restoreParked (hE : E.Sound) {i : Nat} (hk : (w.es i).kind ≠ .free) :
    Leads E N D w (restoreParked i w) := by
  unfold Engine.restoreParked
  refine (auditCopy hE _ _ _ _).trans ((auditCopy hE _ _ _ _).trans
    ((parkedRequestCancel hE _).trans (modEs hE ?_ (by rfl))))
  simpa [Engine.parkedRequestCancel, World.auditCopy, World.es_updConn, World.es] using hk

/-- The SETTINGS decide the parked request, and its FIN follows. -/
theorem releaseParked (hE : E.Sound) {i : Nat} (tbl : PathTable) (hk : (w.es i).parkable)
    (hs : w.conn.settingsReceived) : Leads E N .none w (releaseParked E tbl i w) := by
  have hrestore := restoreParked (N := N) (D := .none) (w := w) hE (by simp [hk.1] : (w.es i).kind ≠ .free)
  have hconn := conn_restoreParked i w
  have hes : (Engine.restoreParked i w).es i = { w.es i with setBuf := w.conn.parkedBuf } := by
    simp [World.es, hconn]
  unfold Engine.releaseParked
  generalize Engine.restoreParked i w = v at hrestore hconn hes ⊢
  have hreq : (v.es i).kind = .request := by rw [hes]; exact hk.1
  have hpark : v.conn.parkedEs = none := by rw [hconn]
  have hdec : Deciding i v :=
    ⟨hreq, by rw [hes]; exact hk.2.2, by rw [hes]; exact hk.2.1, by simp [hpark]⟩
  have hkeep := Keeps.serverRequestDone (w := v) hE.toLawful hdec.requests.http tbl
    (by rw [hconn]; exact hs)
  refine hrestore.trans ((serverRequestDone hE hdec tbl).trans ?_)
  unfold Engine.applyDeferredFin
  split
  · exact finish hE (.inl (hkeep.kind.trans hreq)) (by rw [hkeep.parkedEs, hpark]; simp)
  · rfl

theorem settingsRelease (hE : E.Sound) (tbl : PathTable) (hs : w.conn.settingsReceived) :
    Leads E N .none w (settingsRelease E tbl w) := by
  unfold Engine.settingsRelease
  have hclient : Leads E N .none w
      (if w.conn.persp = .client ∧ w.conn.sessState = .pending then
        if w.conn.wtSupported then Engine.clientSendConnect E w
        else Engine.sessionFailed E .noWtSupport w
      else w) := by
    split
    · next h =>
      split
      · exact clientSendConnect hE h.2 h.1
      · exact sessionFailed hE (by rw [h.2]; rfl) h.1 fun hw i hk =>
          absurd hk ((hw.undialed (.inr h.2)).2 i)
    · rfl
  have hmask : (if w.conn.persp = .client ∧ w.conn.sessState = .pending then
        if w.conn.wtSupported then Engine.clientSendConnect E w
        else Engine.sessionFailed E .noWtSupport w
      else w).conn.settingsReceived := by
    split
    · split
      · exact (Frame.clientSendConnect hE.toLawful w).settingsReceived hs
      · exact (Frame.sessionFailed hE.toLawful _ w).settingsReceived hs
    · exact hs
  dsimp only
  generalize (if w.conn.persp = .client ∧ w.conn.sessState = .pending then
    if w.conn.wtSupported then Engine.clientSendConnect E w
    else Engine.sessionFailed E .noWtSupport w
    else w) = v at hclient hmask ⊢
  refine hclient.trans (intro fun hv => ?_)
  split
  · next i _ hi => exact releaseParked hE tbl (hv.parked i hi) hmask
  · rfl

theorem latchSettings (hE : E.Sound) (s : Settings.H3Settings) (w : World σ) :
    Leads E N D w (w.updConn (latchSettings s)) := by
  refine updConn hE ?_ ?_ ?_ ?_ ?_ ?_ <;> unfold Engine.latchSettings <;> split <;>
    first
    | rfl
    | exact fun _ => .inl

theorem controlSettings (hE : E.Sound) (tbl : PathTable) (i : Nat) (ho : w.conn.closed = false) :
    Leads E N .none w (controlSettings E tbl i w) := by
  unfold Engine.controlSettings
  split
  · exact connFatal hE _ _
  · exact connFatal hE _ _
  next s _ =>
  have hlatch := latchSettings (N := N) (D := .none) hE s w
  have hopen : (w.updConn (Engine.latchSettings s)).conn.closed = false := by
    rw [World.conn_updConn, Engine.latchSettings]
    split <;> exact ho
  have hrecv : (w.updConn (Engine.latchSettings s)).conn.settingsReceived := by
    rw [World.conn_updConn, Engine.latchSettings]
    split <;> rfl
  dsimp only
  generalize w.updConn (Engine.latchSettings s) = v at hlatch hopen hrecv ⊢
  refine hlatch.trans ((notify hE rfl hopen).trans (settingsRelease hE tbl ?_))
  exact (Frame.notify hE.toLawful _ v).settingsReceived hrecv

theorem controlFrameDone (hE : E.Sound) (tbl : PathTable) (i : Nat)
    (ho : w.conn.closed = false) : Leads E N .none w (controlFrameDone E tbl i w).2 := by
  unfold Engine.controlFrameDone
  split
  · exact controlOneVarint hE _ _
  · exact controlSettings hE _ _ ho
  · rfl
  · rfl

theorem controlWalk_acting (hE : E.Sound) (tbl : PathTable) (i : Nat) :
    (controlWalk E tbl i).Acting E N .none i control where
  occupied e he := by simp [show e.kind = .control from he]
  trunk e e' h he := (congrArg Estream.kind h :).trans he
  header h _ _ hP ho := controlHeader hE h hP ho
  payload bs _ _ hP ho := controlPayload hE bs hP ho
  finish w hw hP ho := by
    have hlead := controlFrameDone (N := N) hE tbl i ho
    have hk : (w.es i).kind = .control := hP
    have hkeep := (hlead.acts hw).critical hE.toLawful (j := i) (by rw [hk]; rfl)
    exact ⟨hlead, .inl hkeep, fun _ => .inr (hkeep.trans hk)⟩

theorem controlBytes (hE : E.Sound) (tbl : PathTable) {i : Nat} (data : Bytes)
    (hk : (w.es i).kind = .control) : Leads E N .none w (controlBytes E tbl i data w) :=
  intro fun hw => (frameLoop hE (controlWalk_acting hE tbl i) _ data hw (.inr hk)).1

/-! ## QPACK streams -/

theorem qpackBytes (hE : E.Sound) {i : Nat} (data : Bytes) (hk : (w.es i).kind ≠ .free) :
    Leads E N D w (qpackBytes E i data w) := by
  induction data generalizing w with
  | nil => rfl
  | cons b rest ih =>
    have hcopy : Leads E N D w (w.auditCopy .qpackBuf (w.es i).setBuf.length 1) := auditCopy hE _ _ _ w
    have hes : (w.auditCopy .qpackBuf (w.es i).setBuf.length 1).es i = w.es i := by
      simp [World.auditCopy]
    have htake : Leads E N D w ((w.auditCopy .qpackBuf (w.es i).setBuf.length 1).modEs i
        fun e => { e with setBuf := e.setBuf ++ [b] }) :=
      hcopy.trans (modEs hE (by rw [hes]; exact hk) (by rfl))
    have hkt : (((w.auditCopy .qpackBuf (w.es i).setBuf.length 1).modEs i
        fun e => { e with setBuf := e.setBuf ++ [b] }).es i).kind ≠ .free := by
      rw [World.es_modEs_self, hes]
      exact hk
    unfold Engine.qpackBytes
    dsimp only
    generalize ((w.auditCopy .qpackBuf (w.es i).setBuf.length 1).modEs i
      fun e => { e with setBuf := e.setBuf ++ [b] }) = v at htake hkt ⊢
    split
    · exact connFatal hE _ _
    split
    · exact connFatal hE _ _
    split
    · refine htake.trans ((modEs hE hkt (by rfl)).trans (ih ?_))
      rw [World.es_modEs_self]
      exact hkt
    · exact htake.trans (ih hkt)
    · exact htake.trans (connFatal hE _ _)

end Leads
end Wtquic.Engine
