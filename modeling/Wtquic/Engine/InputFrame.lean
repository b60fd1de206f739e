-- SUMMARY: Frames of the functions that process backend inputs.
import Wtquic.Engine.CallFrame

namespace Wtquic.Engine

/-! # Frames of the inputs

The functions that process a request stream stay on that stream. The control stream
reaches the parked request and the CONNECT stream as well, so its functions, and those
that may call them, have every slot in their scope. -/

variable {σ : Type} {E : Ctx σ} {S : Scope} {w : World σ}

namespace Frame

/-- A connection write of input processing. -/
theorem updConn_top (ht : S.top) {f : Conn → Conn} (hp : (f w.conn).peer = w.conn.peer)
    (hg : (f w.conn).streamGeneration = w.conn.streamGeneration)
    (hc : w.conn.closed → (f w.conn).closed)
    (hl : (f w.conn).profileLatched = w.conn.profileLatched)
    (hk : (f w.conn).config = w.conn.config) (hf : w.conn.Forward (f w.conn)) :
    Frame S w (w.updConn f) :=
  updConn hp hg hc hl hk hf fun hn => absurd ht hn

theorem auditSub (ht : S.top) (a b : Nat) (w : World σ) : Frame S w (w.auditSub a b) :=
  audit (.inl ht) _ _

theorem auditCopy (ht : S.top) (buf : Buffer) (fill n : Nat) (w : World σ) :
    Frame S w (w.auditCopy buf fill n) :=
  audit (.inl ht) _ _

/-! ## Requests and responses -/

theorem sessionEstablished (hE : E.Lawful) (ht : S.top) {i : Nat} (hi : S.slots i) (sel : Bytes)
    (w : World σ) : Frame S w (sessionEstablished E i sel w) := by
  unfold Engine.sessionEstablished
  split
  · exact connFatal hE _ _
  · have hsel : Frame S w (w.updConn fun c => { c with selected := sel }) :=
      updConn_top ht rfl rfl id rfl rfl (.of_eq rfl rfl)
    dsimp only
    split
    · exact hsel.trans (connFatal hE _ _)
    · have hmark : Frame S (w.updConn fun c => { c with selected := sel })
          ((((w.updConn fun c => { c with selected := sel }).updConn
            fun c => { c with sessionEstablished := true }).setSess .established).updConn
            fun c => { c with
              sessionId := ((w.updConn fun c => { c with selected := sel }).es i).id,
              sessionEs := some i }) :=
        Frame.trans (updConn_top ht rfl rfl id rfl rfl (.of_eq rfl rfl))
          (Frame.trans (setSess (by decide) _) (updConn_top ht rfl rfl id rfl rfl (.of_eq rfl rfl)))
      split
      · refine Frame.trans ?_ (sessionDraining hE _)
        refine Frame.trans ?_ (notify hE _ _)
        refine Frame.trans ?_ (updConn_top ht rfl rfl id rfl rfl (.of_eq rfl rfl))
        exact hsel.trans (hmark.trans (modEs_scope hi _ _ (by rfl)))
      · refine Frame.trans ?_ (notify hE _ _)
        refine Frame.trans ?_ (updConn_top ht rfl rfl id rfl rfl (.of_eq rfl rfl))
        exact hsel.trans (hmark.trans (modEs_scope hi _ _ (by rfl)))

theorem serverSendResponse (hE : E.Lawful) (ds status : Nat) (sel : Option Bytes)
    (w : World σ) : Frame S w (serverSendResponse E ds status sel w) := by
  unfold Engine.serverSendResponse
  split
  · exact connFatal hE _ _
  · dsimp only
    split
    · exact sendBoth _ _ _ _ _
    · exact (sendBoth _ _ _ _ _).trans (connFatal hE _ _)

theorem clientRefused (hE : E.Lawful) {i : Nat} (hi : S.slots i) (w : World σ) :
    Frame S w (clientRefused E i w) := by
  unfold Engine.clientRefused
  have hfail := (modEs_scope hi (fun e => { e with requestDead := true }) w (by rfl)).trans
    (sessionFailed hE .connection _)
  dsimp only
  split
  · exact hfail
  · exact hfail.trans (shutdownRaw hE _ _ _ _ _)

theorem clientMaybeEstablish (hE : E.Lawful) (ht : S.top) {i : Nat} (hi : S.slots i)
    (w : World σ) : Frame S w (clientMaybeEstablish E i w) := by
  unfold Engine.clientMaybeEstablish
  split
  · rfl
  split
  · exact clientRefused hE hi _
  · exact sessionEstablished hE ht hi _ _

theorem clientAccept (hE : E.Lawful) (ht : S.top) {i : Nat} (hi : S.slots i)
    (resp : Connect.Response) (w : World σ) : Frame S w (clientAccept E i resp w) := by
  unfold Engine.clientAccept
  split
  · exact sessionFailed hE _ _
  split
  · exact sessionFailed hE _ _
  split
  · exact sessionFailed hE _ _
  · refine Frame.trans ?_ (clientMaybeEstablish hE ht hi _)
    exact updConn_top ht rfl rfl id rfl rfl (.of_eq rfl rfl)

theorem clientResponseDone (hE : E.Lawful) (ht : S.top) {i : Nat} (hi : S.slots i)
    (w : World σ) : Frame S w (clientResponseDone E i w) := by
  unfold Engine.clientResponseDone
  split
  · exact (sessionFailed hE _ _).trans (connFatal hE _ _)
  split
  · split
    · exact (sessionFailed hE _ _).trans (connFatal hE _ _)
    · exact modEs_scope hi _ _ (by rfl)
  split
  · exact (setSess (by decide) _).trans (notify hE _ _)
  · exact clientAccept hE ht hi _ _

theorem requestStreamRefuseErr (hE : E.Lawful) {i : Nat} (hi : S.slots i) (err : Nat)
    (w : World σ) : Frame S w (requestStreamRefuseErr E i err w) :=
  (shutdownRaw hE _ _ _ _ _).trans (modEs_scope hi _ _ (by rfl))

theorem parkedRequestCancel (ht : S.top) (w : World σ) : Frame S w (parkedRequestCancel w) :=
  updConn_top ht rfl rfl id rfl rfl (.of_eq rfl rfl)

theorem forgetSessionEs (ht : S.top) (i : Nat) (w : World σ) :
    Frame S w (forgetSessionEs i w) := by
  unfold Engine.forgetSessionEs
  split
  · exact updConn_top ht rfl rfl id rfl rfl (.of_eq rfl rfl)
  · rfl

/-- A session stream lets go of the session and is released. -/
theorem release_forget (ht : S.top) {i : Nat} (hi : S.slots i) (w : World σ) :
    Frame S w (Engine.estreamRelease E i (Engine.forgetSessionEs i w)) :=
  (forgetSessionEs ht _ _).trans (estreamRelease (.inl hi))

theorem requestStreamFail (hE : E.Lawful) (ht : S.top) {i : Nat} (hi : S.slots i) (err : Nat)
    (w : World σ) : Frame S w (requestStreamFail E i err w) := by
  unfold Engine.requestStreamFail
  have hcancel : ∀ v : World σ,
      Frame S v (if v.conn.parkedEs = some i then Engine.parkedRequestCancel v else v) := by
    intro v
    split
    · exact parkedRequestCancel ht _
    · rfl
  have hrefuse := (requestStreamRefuseErr hE hi err w).trans (hcancel _)
  dsimp only
  generalize (if (Engine.requestStreamRefuseErr E i err w).conn.parkedEs = some i then
    Engine.parkedRequestCancel _ else _) = v at hrefuse ⊢
  split
  · exact hrefuse.trans ((release_forget ht hi _).trans (sessionClosed hE _ _ _ _))
  · exact hrefuse

theorem serverRefuse (hE : E.Lawful) {i : Nat} (hi : S.slots i) (status : Nat) (w : World σ) :
    Frame S w (serverRefuse E i status w) :=
  (serverSendResponse hE _ _ _ _).trans (modEs_scope hi _ _ (by rfl))

theorem serverPark (hE : E.Lawful) (ht : S.top) {i : Nat} (hi : S.slots i) (w : World σ) :
    Frame S w (serverPark E i w) := by
  unfold Engine.serverPark
  split
  · exact requestStreamRefuseErr hE hi _ _
  · exact (auditCopy ht _ _ _ _).trans (updConn_top ht rfl rfl id rfl rfl (.of_eq rfl rfl))

theorem serverPublish (hE : E.Lawful) (ht : S.top) {i : Nat} (hi : S.slots i)
    (req : Connect.Request) (sel : Option Bytes) (w : World σ) :
    Frame S w (serverPublish E i req sel w) := by
  unfold Engine.serverPublish
  split
  · exact connFatal hE _ _
  · have hpub : Frame S w (w.updConn fun c =>
        { c with reqPath := req.path, reqAuth := req.authority }) :=
      updConn_top ht rfl rfl id rfl rfl (.of_eq rfl rfl)
    have hsend := hpub.trans (serverSendResponse hE (w.es i).ds 200 sel _)
    dsimp only
    split
    · exact hsend
    · exact hsend.trans (sessionEstablished hE ht hi _ _)

theorem serverGates (hE : E.Lawful) (ht : S.top) {i : Nat} (hi : S.slots i) (tbl : PathTable)
    (pol : ProfilePolicy) (req : Connect.Request) (w : World σ) :
    Frame S w (serverGates E tbl i pol req w) := by
  unfold Engine.serverGates Engine.serverAdmit
  split
  · exact serverRefuse hE hi _ _
  split
  · exact requestStreamRefuseErr hE hi _ _
  split
  · exact serverRefuse hE hi _ _
  split
  · exact serverRefuse hE hi _ _
  split
  · exact serverRefuse hE hi _ _
  dsimp only
  split
  · exact serverRefuse hE hi _ _
  · exact serverPublish hE ht hi _ _ _

theorem serverRequestDone (hE : E.Lawful) (ht : S.top) {i : Nat} (hi : S.slots i)
    (tbl : PathTable) (w : World σ) : Frame S w (serverRequestDone E tbl i w) := by
  unfold Engine.serverRequestDone Engine.serverDecide
  split
  · exact serverPark hE ht hi _
  split
  · exact serverRefuse hE hi _ _
  dsimp only
  split
  · exact serverRefuse hE hi _ _
  · exact requestStreamRefuseErr hE hi _ _
  · exact connFatal hE _ _
  · exact requestStreamRefuseErr hE hi _ _
  · exact serverGates hE ht hi _ _ _ _

/-! ## Capsules -/

theorem sessionStreamPoisoned (hE : E.Lawful) (ht : S.top) {i : Nat} (hi : S.slots i)
    (w : World σ) : Frame S w (sessionStreamPoisoned E i w) :=
  (shutdownRaw hE _ _ _ _ _).trans (release_forget ht hi _)

theorem sessionCapsule (hE : E.Lawful) (ht : S.top) {i : Nat} (hi : S.slots i)
    (terminal more : Bool) (cap : Capsule.Decoded) (w : World σ) :
    Frame S w (sessionCapsule E i terminal more cap w).2 := by
  unfold Engine.sessionCapsule
  split
  · have hrx : Frame S w (w.updConn fun c => { c with closeCapsuleRx := true }) :=
      updConn_top ht rfl rfl id rfl rfl (.of_eq rfl rfl)
    have hclose : ∀ v : World σ, Frame S v
        (if terminal then v else Engine.sessionClosed E cap.closeCode cap.reason true v) := by
      intro v
      split
      · rfl
      · exact sessionClosed hE _ _ _ _
    dsimp only
    split
    · exact hrx.trans ((hclose _).trans (sessionStreamPoisoned hE ht hi _))
    · exact hrx.trans (hclose _)
  · dsimp only
    split
    · rfl
    · exact sessionDraining hE _
  · rfl

theorem capsuleLoop (hE : E.Lawful) (ht : S.top) {i : Nat} (hi : S.slots i) (n : Nat)
    (data : Bytes) (w : World σ) : Frame S w (capsuleLoop E i n data w) := by
  induction n generalizing data w with
  | zero => rfl
  | succ n ih =>
    unfold Engine.capsuleLoop
    split
    · rfl
    · have hfeed : ∀ (fill : Nat) (k : Nat) (d : Capsule.Dec), Frame S w
          (((w.auditSub data.length k).auditCopy .reason 0 fill).updConn
            fun c => { c with capsDec := d }) := fun _ _ _ =>
        (auditSub ht _ _ _).trans ((auditCopy ht _ _ _ _).trans (updConn_top ht rfl rfl id rfl rfl (.of_eq rfl rfl)))
      dsimp only
      split
      · exact hfeed _ _ _
      · split
        · exact (hfeed _ _ _).trans (requestStreamFail hE ht hi _ _)
        · exact (hfeed _ _ _).trans (connFatal hE _ _)
      · split
        · exact (hfeed _ _ _).trans ((sessionCapsule hE ht hi _ _ _ _).trans (ih _ _))
        · exact (hfeed _ _ _).trans (sessionCapsule hE ht hi _ _ _ _)

theorem sessionCapsuleBytes (hE : E.Lawful) (ht : S.top) {i : Nat} (hi : S.slots i)
    (data : Bytes) (w : World σ) : Frame S w (sessionCapsuleBytes E i data w) := by
  unfold Engine.sessionCapsuleBytes
  split
  · exact sessionStreamPoisoned hE ht hi _
  · exact capsuleLoop hE ht hi _ _ _

end Frame

/-! ## The frame walk -/

/-- The handlers of a walk stay in a scope. -/
structure FrameWalk.Framed (W : FrameWalk σ) (S : Scope) : Prop where
  header : ∀ h w, Frame S w (W.header h w).2
  payload : ∀ bs w, Frame S w (W.payload bs w).2
  finish : ∀ w, Frame S w (W.finish w).2

namespace Frame

theorem frameHead {W : FrameWalk σ} (hW : W.Framed S) (ht : S.top) {i : Nat} (hi : S.slots i)
    (data : Bytes) (w : World σ) : Frame S w (frameHead W i data w).2.2 := by
  unfold Engine.frameHead
  split
  · rfl
  · split <;> dsimp only
    · exact (auditSub ht _ _ _).trans ((hear hi _ _).trans (modEs_scope hi _ _ (by rfl)))
    · refine Frame.trans ?_ (hW.header _ _)
      exact (auditSub ht _ _ _).trans ((hear hi _ _).trans (modEs_scope hi _ _ (by rfl)))

theorem frameTake (ht : S.top) {i : Nat} (hi : S.slots i) (bs : Bytes) (w : World σ) :
    Frame S w (frameTake i bs w) :=
  (hear hi _ _).trans ((auditSub ht _ _ _).trans (modEs_scope hi _ _ (by rfl)))

theorem frameEnd {i : Nat} (hi : S.slots i) (w : World σ) : Frame S w (frameEnd i w) :=
  modEs_scope hi _ _ (by rfl)

theorem frameAdvance {W : FrameWalk σ} (hW : W.Framed S) (ht : S.top) {i : Nat} (hi : S.slots i)
    (slice rest : Bytes) (w : World σ) : Frame S w (frameAdvance W i slice rest w).2.2 := by
  unfold Engine.frameAdvance
  dsimp only
  split
  · exact (frameTake ht hi _ _).trans ((frameEnd hi _).trans (hW.finish _))
  · exact frameTake ht hi _ _

theorem frameBody {W : FrameWalk σ} (hW : W.Framed S) (ht : S.top) {i : Nat} (hi : S.slots i)
    (data : Bytes) (w : World σ) : Frame S w (frameBody W i data w).2.2 := by
  unfold Engine.frameBody
  dsimp only
  split
  · exact (hW.payload _ _).trans (frameAdvance hW ht hi _ _ _)
  · exact hW.payload _ _

theorem frameRound {W : FrameWalk σ} (hW : W.Framed S) (ht : S.top) {i : Nat} (hi : S.slots i)
    (data : Bytes) (w : World σ) : Frame S w (frameRound W i data w).2.2 := by
  unfold Engine.frameRound
  dsimp only
  split
  · exact (frameHead hW ht hi _ _).trans (frameBody hW ht hi _ _)
  · exact frameHead hW ht hi _ _

theorem frameLoop {W : FrameWalk σ} (hW : W.Framed S) (ht : S.top) {i : Nat} (hi : S.slots i)
    (n : Nat) (data : Bytes) (w : World σ) : Frame S w (frameLoop W i n data w) := by
  induction n generalizing data w with
  | zero => rfl
  | succ n ih =>
    unfold Engine.frameLoop
    split
    · rfl
    · dsimp only
      split
      · exact (frameRound hW ht hi _ _).trans (ih _ _)
      · exact frameRound hW ht hi _ _

theorem appendSetBuf (ht : S.top) {i : Nat} (hi : S.slots i) (bs : Bytes) (w : World σ) :
    Frame S w (appendSetBuf i bs w) :=
  (auditCopy ht _ _ _ _).trans (modEs_scope hi _ _ (by rfl))

/-! ## Request streams -/

theorem requestHeader (hE : E.Lawful) (ht : S.top) {i : Nat} (hi : S.slots i)
    (h : H3Frame.Header) (w : World σ) : Frame S w (requestHeader E i h w).2 := by
  unfold Engine.requestHeader Engine.requestHeaders Engine.requestData
  split
  · exact connFatal hE _ _
  split
  · split
    · exact connFatal hE _ _
    split
    · split
      · exact requestStreamFail hE ht hi _ _
      · exact connFatal hE _ _
    · dsimp only
      exact modEs_scope hi _ _ (by rfl)
  split
  · split
    · exact connFatal hE _ _
    split <;> dsimp only
    · exact (requestStreamRefuseErr hE hi _ _).trans (parkedRequestCancel ht _)
    · exact modEs_scope hi _ _ (by rfl)
  · dsimp only
    exact modEs_scope hi _ _ (by rfl)

theorem requestPayload (hE : E.Lawful) (ht : S.top) {i : Nat} (hi : S.slots i) (bs : Bytes)
    (w : World σ) : Frame S w (requestPayload E i bs w).2 := by
  unfold Engine.requestPayload
  split
  · rfl
  split
  · exact appendSetBuf ht hi _ _
  · exact sessionCapsuleBytes hE ht hi _ _
  · rfl
  · rfl

theorem requestTrailers (hE : E.Lawful) (ht : S.top) {i : Nat} (hi : S.slots i) (w : World σ) :
    Frame S w (requestTrailers E i w) := by
  unfold Engine.requestTrailers
  dsimp only
  split
  · exact (modEs_scope hi _ _ (by rfl)).trans (connFatal hE _ _)
  · exact (modEs_scope hi _ _ (by rfl)).trans (requestStreamFail hE ht hi _ _)
  · exact (modEs_scope hi _ _ (by rfl)).trans (requestStreamFail hE ht hi _ _)
  · exact modEs_scope hi _ _ (by rfl)

theorem requestFrameDone (hE : E.Lawful) (ht : S.top) {i : Nat} (hi : S.slots i)
    (tbl : PathTable) (w : World σ) : Frame S w (requestFrameDone E tbl i w).2 := by
  unfold Engine.requestFrameDone
  split
  · rfl
  dsimp only
  split
  · exact requestTrailers hE ht hi _
  split
  · exact (modEs_scope hi _ _ (by rfl)).trans (clientResponseDone hE ht hi _)
  · exact (modEs_scope hi _ _ (by rfl)).trans (serverRequestDone hE ht hi _ _)

theorem requestWalk (hE : E.Lawful) (ht : S.top) {i : Nat} (hi : S.slots i) (tbl : PathTable) :
    (requestWalk E tbl i).Framed S where
  header := requestHeader hE ht hi
  payload := requestPayload hE ht hi
  finish := requestFrameDone hE ht hi tbl

theorem requestStreamBytes (hE : E.Lawful) (ht : S.top) {i : Nat} (hi : S.slots i)
    (tbl : PathTable) (data : Bytes) (w : World σ) :
    Frame S w (requestStreamBytes E tbl i data w) := by
  unfold Engine.requestStreamBytes
  split
  · rfl
  · exact frameLoop (requestWalk hE ht hi tbl) ht hi _ _ _

theorem sessionStreamFin (hE : E.Lawful) (ht : S.top) {i : Nat} (hi : S.slots i)
    (w : World σ) : Frame S w (sessionStreamFin E i w) := by
  unfold Engine.sessionStreamFin
  have hforget := forgetSessionEs ht i w
  dsimp only
  split
  · exact hforget.trans (connFatal hE _ _)
  split
  · exact hforget
  split
  · split
    · exact hforget.trans (requestStreamRefuseErr hE hi _ _)
    · exact hforget.trans (connFatal hE _ _)
  · exact hforget.trans (sessionClosed hE _ _ _ _)

theorem requestStreamFin (hE : E.Lawful) (ht : S.top) {i : Nat} (hi : S.slots i)
    (w : World σ) : Frame S w (requestStreamFin E i w) := by
  unfold Engine.requestStreamFin
  dsimp only
  split
  · rfl
  split
  · exact sessionStreamFin hE ht hi _
  split
  · split
    · exact (sessionFailed hE _ _).trans (connFatal hE _ _)
    · exact connFatal hE _ _
  split
  · exact connFatal hE _ _
  split
  · exact sessionFailed hE _ _
  · rfl

/-! ## The control and QPACK streams -/

theorem openLocal {store : Nat → Conn → Conn} (bytes : Bytes) (w : World σ)
    (hs : ∀ ds (v : World σ), Frame S v (v.updConn (store ds))) :
    Frame S w (openLocal E store bytes w).2 := by
  unfold Engine.openLocal
  dsimp only
  split
  · exact op E _ w
  · exact Frame.trans ((op E _ w).trans (newDetachedDs _)) ((hs _ _).trans (op E _ _))

theorem connOpenLocals (ht : S.top) (w : World σ) : Frame S w (connOpenLocals E w).2 := by
  unfold Engine.connOpenLocals
  have htry : Frame S w (w.updConn fun c => { c with localsAttempted := true }) :=
    updConn_top ht rfl rfl id rfl rfl (.of_eq rfl rfl)
  have hctrl : ∀ bytes (v : World σ),
      Frame S v (Engine.openLocal E (fun ds c => { c with localCtrl := ds }) bytes v).2 :=
    fun bytes v => openLocal bytes v fun ds v =>
      updConn_top (w := v) (f := fun c => { c with localCtrl := ds }) ht rfl rfl id rfl rfl (.of_eq rfl rfl)
  have henc : ∀ bytes (v : World σ),
      Frame S v (Engine.openLocal E (fun ds c => { c with localQpkEnc := ds }) bytes v).2 :=
    fun bytes v => openLocal bytes v fun ds v =>
      updConn_top (w := v) (f := fun c => { c with localQpkEnc := ds }) ht rfl rfl id rfl rfl (.of_eq rfl rfl)
  have hdec : ∀ bytes (v : World σ),
      Frame S v (Engine.openLocal E (fun ds c => { c with localQpkDec := ds }) bytes v).2 :=
    fun bytes v => openLocal bytes v fun ds v =>
      updConn_top (w := v) (f := fun c => { c with localQpkDec := ds }) ht rfl rfl id rfl rfl (.of_eq rfl rfl)
  dsimp only
  split
  · rfl
  split
  · exact htry.trans (hctrl _ _)
  split
  · exact htry.trans ((hctrl _ _).trans (henc _ _))
  · exact htry.trans ((hctrl _ _).trans ((henc _ _).trans (hdec _ _)))

theorem start (ht : S.top) (w : World σ) : Frame S w (start E w).2 := by
  unfold Engine.start
  split
  · rfl
  have hstarted : Frame S w (w.updConn fun c => { c with started := true }) :=
    updConn_top ht rfl rfl id rfl rfl (.of_eq rfl rfl)
  dsimp only
  split
  · exact hstarted
  · exact hstarted.trans (connOpenLocals ht _)

theorem connOpenLocalsIfDeferred (hE : E.Lawful) (ht : S.top) (w : World σ) :
    Frame S w (connOpenLocalsIfDeferred E w).2 := by
  unfold Engine.connOpenLocalsIfDeferred
  split
  · rfl
  dsimp only
  split
  · exact (connOpenLocals ht _).trans (connFatal hE _ _)
  · exact connOpenLocals ht _

theorem controlHeader (hE : E.Lawful) {i : Nat} (hi : S.slots i) (h : H3Frame.Header)
    (w : World σ) : Frame S w (controlHeader E i h w).2 := by
  unfold Engine.controlHeader
  dsimp only
  repeat' split
  all_goals dsimp only
  all_goals first | exact connFatal hE _ _ | exact modEs_scope hi _ _ (by rfl)

theorem controlPayload (ht : S.top) {i : Nat} (hi : S.slots i) (bs : Bytes) (w : World σ) :
    Frame S w (controlPayload i bs w).2 := by
  unfold Engine.controlPayload
  split
  · exact appendSetBuf ht hi _ _
  · rfl

theorem controlMaxPushId (hE : E.Lawful) (ht : S.top) (v : Nat) (w : World σ) :
    Frame S w (controlMaxPushId E v w) := by
  unfold Engine.controlMaxPushId
  split
  · exact connFatal hE _ _
  next hv =>
  refine updConn_top ht rfl rfl id rfl rfl
    ⟨fun hs => ⟨hs, rfl⟩, fun g hg => ⟨g, hg, Nat.le_refl g⟩, fun m hm => ⟨v, rfl, ?_⟩⟩
  exact Nat.not_lt.mp (by simpa [hm] using hv)

theorem controlGoaway (hE : E.Lawful) (v : Nat) (w : World σ) :
    Frame .all w (controlGoaway E v w) := by
  unfold Engine.controlGoaway
  have hall : ∀ i, Scope.all.slots i := fun _ => trivial
  split
  · exact connFatal hE _ _
  next hv =>
  · have hgo : Frame .all w (w.updConn fun c => { c with goaway := some v }) := by
      refine updConn_top trivial rfl rfl id rfl rfl
        ⟨fun hs => ⟨hs, rfl⟩, fun g hg => ⟨v, rfl, ?_⟩, fun m hm => ⟨m, hm, Nat.le_refl m⟩⟩
      rw [not_or, hg] at hv
      exact Nat.not_lt.mp (by simpa using hv.2)
    refine Frame.trans ?_ (sessionDraining hE _)
    split
    · split
      · exact hgo.trans (clientRefused hE (hall _) _)
      · exact hgo
    · exact hgo

theorem controlOneVarint (hE : E.Lawful) (i : Nat) (w : World σ) :
    Frame .all w (controlOneVarint E i w) := by
  unfold Engine.controlOneVarint
  dsimp only
  split
  · exact connFatal hE _ _
  split
  · exact connFatal hE _ _
  split
  · exact connFatal hE _ _
  split
  · exact controlMaxPushId hE trivial _ _
  split
  · exact controlGoaway hE _ _
  · rfl

theorem applyDeferredFin (hE : E.Lawful) (ht : S.top) {i : Nat} (hi : S.slots i) (fin : Bool)
    (w : World σ) : Frame S w (applyDeferredFin E i fin w) := by
  unfold Engine.applyDeferredFin
  split
  · exact (requestStreamFin hE ht hi _).trans (release_forget ht hi _)
  · rfl

theorem restoreParked (ht : S.top) {i : Nat} (hi : S.slots i) (w : World σ) :
    Frame S w (restoreParked i w) := by
  unfold Engine.restoreParked
  exact (auditCopy ht _ _ _ _).trans ((auditCopy ht _ _ _ _).trans
    ((parkedRequestCancel ht _).trans (modEs_scope hi _ _ (by rfl))))

theorem releaseParked (hE : E.Lawful) (ht : S.top) {i : Nat} (hi : S.slots i) (tbl : PathTable)
    (w : World σ) : Frame S w (releaseParked E tbl i w) :=
  (restoreParked ht hi w).trans ((serverRequestDone hE ht hi tbl _).trans
    (applyDeferredFin hE ht hi _ _))

/-- A connection write that latches the profile, if the profile has been reported since. -/
theorem latch {f : Conn → Conn} (ht : S.top) (hp : (f w.conn).peer = w.conn.peer)
    (hg : (f w.conn).streamGeneration = w.conn.streamGeneration)
    (hc : (f w.conn).closed = w.conn.closed) (hk : (f w.conn).config = w.conn.config)
    (hw : w.conn.Forward (f w.conn)) (h : Frame S (w.updConn f) w')
    (hl : w'.conn.profileLatched ∧ .cb (.peerSettings true) ∈ w'.trace) : Frame S w w' := by
  have hes : (w.updConn f).es = w.es := by
    funext j
    simp [World.es, hp]
  have hf : w.Fresh → (w.updConn f).Fresh := by
    rintro ⟨hgen, hx⟩
    exact ⟨by simpa [hes, hg] using hgen, by simpa [hg] using hx⟩
  exact
    { trace := h.trace
      closed := fun hw => h.closed (by simpa [hc] using hw)
      latched := .inr hl
      gen := by simpa [hg] using h.gen
      nextDs := h.nextDs
      config := h.config.trans hk
      forward := hw.trans h.forward
      http := hes ▸ h.http
      held := hes ▸ h.held
      rx := h.rx
      fresh := h.fresh ∘ hf
      born := fun hw => hes ▸ h.born (hf hw)
      calm := fun hn => absurd ht hn }

/-- Latching the SETTINGS and reporting them. -/
theorem latchSettings (hE : E.Lawful) (ht : S.top) (s : Settings.H3Settings) (w : World σ) :
    Frame S w (E.notify (.peerSettings (latchSettings s w.conn).wtSupported)
      (w.updConn (latchSettings s))) := by
  cases hsel : Settings.selectProfile s (w.conn.persp == .client) w.conn.wtProfiles with
  | none =>
    refine Frame.trans ?_ (notify hE _ _)
    refine updConn_top ht ?_ ?_ ?_ ?_ ?_ (.of_eq ?_ ?_) <;> simp only [Engine.latchSettings, hsel]
    · exact id
    all_goals rfl
  | some p =>
    have hsup : (Engine.latchSettings s w.conn).wtSupported = true := by
      simp only [Engine.latchSettings, hsel]
    have hlat : (Engine.latchSettings s w.conn).profileLatched = true := by
      simp only [Engine.latchSettings, hsel]
    rw [hsup]
    refine latch ht ?_ ?_ ?_ ?_ (.of_eq ?_ ?_) (notify hE _ _)
      ⟨(notify (S := S) hE _ _).latched_mono hlat, (hE.logs _ _).subset (List.mem_cons_self ..)⟩ <;>
      simp only [Engine.latchSettings, hsel]
    all_goals rfl

theorem settingsRelease (hE : E.Lawful) (tbl : PathTable) (w : World σ) :
    Frame .all w (settingsRelease E tbl w) := by
  unfold Engine.settingsRelease
  have hall : ∀ i, Scope.all.slots i := fun _ => trivial
  have hclient : Frame .all w
      (if w.conn.persp = .client ∧ w.conn.sessState = .pending then
        if w.conn.wtSupported then Engine.clientSendConnect E w
        else Engine.sessionFailed E .noWtSupport w
      else w) := by
    split
    · split
      · exact clientSendConnect hE _
      · exact sessionFailed hE _ _
    · rfl
  dsimp only
  generalize (if w.conn.persp = .client ∧ w.conn.sessState = .pending then
    if w.conn.wtSupported then Engine.clientSendConnect E w
    else Engine.sessionFailed E .noWtSupport w
    else w) = v at hclient ⊢
  refine hclient.trans ?_
  split
  · exact releaseParked hE trivial (hall _) _ _
  · rfl

theorem controlSettings (hE : E.Lawful) (tbl : PathTable) (i : Nat) (w : World σ) :
    Frame .all w (controlSettings E tbl i w) := by
  unfold Engine.controlSettings
  split
  · exact connFatal hE _ _
  · exact connFatal hE _ _
  · exact (latchSettings hE trivial _ _).trans (settingsRelease hE _ _)

theorem controlFrameDone (hE : E.Lawful) (tbl : PathTable) (i : Nat) (w : World σ) :
    Frame .all w (controlFrameDone E tbl i w).2 := by
  unfold Engine.controlFrameDone
  split
  · exact controlOneVarint hE _ _
  · exact controlSettings hE _ _ _
  · rfl
  · rfl

theorem controlWalk (hE : E.Lawful) (tbl : PathTable) (i : Nat) :
    (controlWalk E tbl i).Framed .all where
  header := controlHeader hE trivial
  payload := controlPayload trivial trivial
  finish := controlFrameDone hE tbl i

theorem controlBytes (hE : E.Lawful) (tbl : PathTable) (i : Nat) (data : Bytes) (w : World σ) :
    Frame .all w (controlBytes E tbl i data w) :=
  frameLoop (controlWalk hE tbl i) trivial trivial _ _ _

theorem qpackBytes (hE : E.Lawful) (ht : S.top) {i : Nat} (hi : S.slots i) (data : Bytes)
    (w : World σ) :
    Frame S w (qpackBytes E i data w) := by
  induction data generalizing w with
  | nil => rfl
  | cons b rest ih =>
    unfold Engine.qpackBytes
    have htake : Frame S w ((w.auditCopy .qpackBuf (w.es i).setBuf.length 1).modEs i
        fun e => { e with setBuf := e.setBuf ++ [b] }) :=
      (auditCopy ht _ _ _ _).trans (modEs_scope hi _ _ (by rfl))
    dsimp only
    split
    · exact connFatal hE _ _
    split
    · exact connFatal hE _ _
    split
    · exact htake.trans ((modEs_scope hi (fun e => { e with setBuf := [] }) _ (by rfl)).trans (ih _))
    · exact htake.trans (ih _)
    · exact htake.trans (connFatal hE _ _)

end Frame
end Wtquic.Engine
