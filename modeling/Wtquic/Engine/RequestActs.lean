-- SUMMARY: The acts of requests, responses and capsules.
import Wtquic.Engine.Nesting
import Wtquic.Engine.InputFrame

namespace Wtquic.Engine

/-! # The acts of request streams -/

variable {σ : Type} {E : Ctx σ} {N : News} {D : Doomed} {w w' w'' : World σ}

/-- A CONNECT or request stream. -/
def Estream.requests (e : Estream) : Prop := e.kind = .request ∨ e.kind = .connect

theorem Estream.requests.http {e : Estream} (h : e.requests) : e.kind.http := by
  rcases h with h | h <;> simp [h, EsKind.http]

theorem Estream.requests.ne_free {e : Estream} (h : e.requests) : e.kind ≠ .free :=
  EsKind.ne_free_of_http h.http

theorem Estream.requests.ne_btype {e : Estream} (h : e.requests) : e.kind ≠ .btype := by
  rcases h with h | h <;> simp [h]

theorem Estream.requests.not_critical {e : Estream} (h : e.requests) :
    e.kind ≠ .control ∧ e.kind ≠ .qpack := by
  rcases h with h | h <;> simp [h]

/-- The stream in slot `i` and the parked request are left alone. -/
structure Spares (i : Nat) (w w' : World σ) : Prop where
  es : w'.es i = w.es i
  parkedEs : w'.conn.parkedEs = w.conn.parkedEs

theorem Frame.spares {i : Nat} (h : Frame .call w w') (hk : (w.es i).kind.http) : Spares i w w' :=
  ⟨h.http i id hk, by
    change w'.conn.mask.parkedEs = w.conn.mask.parkedEs
    rw [(h.calm id).1]⟩

/-- The part of a request stream that only the progress of its frames leaves alone. -/
def Estream.gist (e : Estream) : Estream :=
  { e with frameKind := .settings, headersDone := false, requestDead := false }.trunk

/-- A write to the progress of a request stream. -/
theorem WriteOk.of_gist {i : Nat} {e : Estream} (h : Coherent D w) (hk : (w.es i).requests)
    (he : e.gist = (w.es i).gist)
    (hcapsule : e.frameKind = .capsule → (w.es i).isSessionStream)
    (hasked : (w.es i).kind = .connect →
      e.headersDone ∨ e.requestDead ∨ D .connect i ∨ w.conn.closed ∨ w.conn.sessState = .sent)
    (hanswered : (w.es i).kind = .connect → w.conn.clientResponseOk → e.headersDone)
    (hdone : (w.es i).kind = .request → (w.es i).headersDone → e.headersDone) :
    WriteOk D w i e := by
  have ho := h.slots i hk.ne_free
  have hne : (w.es i).kind ≠ .wt := EsKind.ne_wt_of_http hk.http
  simp only [Estream.gist, Estream.trunk, Estream.mk.injEq] at he
  obtain ⟨hres, hgen, -, hkind, -, -, -, -, -, -, -, -, -, -, -, -, hss, hbidi, hloc, hso, hcom, hfp,
    -, hro, hrd, -, hds, hid, hown⟩ := he
  exact
    { occupied := hk.ne_free
      kind := hkind ▸ .same _
      ok :=
        { linked := hds ▸ ho.linked
          bound := ho.bound
          shaped := by
            obtain ⟨hc, hp, hs, hr⟩ := ho.shaped
            constructor <;> simpa [hbidi, hloc, hso, hcom, hfp, hro]
          foreign := fun hw => hloc.trans (ho.foreign (hkind ▸ hw))
          owes := fun hl => by
            rw [hown, hid]
            exact ho.owes (hl.imp (hkind ▸ ·) (hloc ▸ ·))
          resident := fun hb => hres ▸ ho.resident hb
          alive := fun hw => absurd (hkind ▸ hw) hne
          quiet := fun hw => absurd (hkind ▸ hw) hne
          asked := fun hc => hasked (hkind ▸ hc)
          answered := fun hc => hanswered (hkind ▸ hc)
          capsule := fun hf => hss ▸ hcapsule hf
          served := fun hr => ho.served (hkind ▸ hr)
          opened := fun hr hs => hdone (hkind ▸ hr) (ho.opened (hkind ▸ hr) (hss ▸ hs))
          unread := fun hu => hss ▸ ho.unread (hkind ▸ hu)
          typed := fun hb => by
            rcases hk with hk | hk <;> simp [hkind, hk] at hb }
      ds := hds
      generation := hgen
      parked := fun hp => by
        obtain ⟨hr, hs, hh⟩ := h.parked i hp
        exact ⟨hkind.trans hr, hss.trans hs, hdone hr hh⟩
      id := hid
      session := hss
      opener := hloc
      bidi := fun _ => hbidi }

namespace Leads

/-! ## Writes to a request stream -/

/-- The class of a frame. -/
theorem markFrame (hE : E.Sound) {i : Nat} (hk : (w.es i).requests) {k : FrameKind}
    (hc : k = .capsule → (w.es i).isSessionStream) :
    Leads E N D w (w.modEs i fun e => { e with frameKind := k }) :=
  write hE fun hw =>
    have ho := hw.slots i hk.ne_free
    .of_gist hw hk rfl hc ho.asked ho.answered fun _ h => h

theorem markDead (hE : E.Sound) {i : Nat} (hk : (w.es i).requests) :
    Leads E N D w (w.modEs i fun e => { e with requestDead := true }) :=
  write hE fun hw =>
    have ho := hw.slots i hk.ne_free
    .of_gist hw hk rfl ho.capsule (fun _ => .inr (.inl rfl)) ho.answered fun _ h => h

theorem markHeaders (hE : E.Sound) {i : Nat} (hk : (w.es i).requests) :
    Leads E N D w (w.modEs i fun e => { e with headersDone := true }) :=
  write hE fun hw =>
    have ho := hw.slots i hk.ne_free
    .of_gist hw hk rfl ho.capsule (fun _ => .inl rfl) (fun _ _ => rfl) fun _ _ => rfl

/-- An interim response. -/
theorem unmarkHeaders (hE : E.Sound) {i : Nat} (hk : (w.es i).kind = .connect)
    (hs : w.conn.sessState = .sent) (hr : w.conn.clientResponseOk = false) :
    Leads E N D w (w.modEs i fun e => { e with headersDone := false }) :=
  write hE fun hw =>
    have ho := hw.slots i (by simp [hk])
    .of_gist hw (.inr hk) rfl ho.capsule (fun _ => .inr (.inr (.inr (.inr hs))))
      (fun _ h => by simp [hr] at h) fun h => by simp [hk] at h

theorem parkedRequestCancel (hE : E.Sound) (w : World σ) :
    Leads E N D w (parkedRequestCancel w) :=
  act hE (.conn _ rfl rfl rfl rfl .inl fun _ h => nomatch h)

theorem forgetSessionEs (hE : E.Sound) (i : Nat) (w : World σ) :
    Leads E N D w (forgetSessionEs i w) := by
  unfold Engine.forgetSessionEs
  split
  · exact updConn hE rfl rfl rfl rfl rfl fun _ => .inl
  · rfl

/-! ## Responses -/

theorem serverSendResponse (hE : E.Sound) (ds status : Nat) (sel : Option Bytes)
    (w : World σ) : Leads E N D w (serverSendResponse E ds status sel w) := by
  unfold Engine.serverSendResponse
  split
  · exact connFatal hE _ _
  dsimp only
  split
  · exact sendBoth hE _ _ _ _ _
  · exact (sendBoth hE _ _ _ _ _).trans (connFatal hE _ _)

theorem sessionFailed (hE : E.Sound) {r : FailReason} (hs : w.conn.sessState.early)
    (hp : w.conn.persp = .client) (hj : Coherent D w → ∀ i, (w.es i).judged D i) :
    Leads E N D w (sessionFailed E r w) :=
  intro fun hw => act hE (.failed r hs hp (hj hw))

/-- All other streams are judged when one CONNECT stream is. -/
theorem judged_of_single {i : Nat} (hw : Coherent D w) (hk : (w.es i).kind = .connect)
    (hj : (w.es i).headersDone ∨ (w.es i).requestDead ∨ D .connect i) (j : Nat) : (w.es j).judged D j := by
  intro hjk
  cases hw.single j i hjk hk
  exact hj

/-- The stream of a CONNECT that was given up is aborted. -/
theorem refuse (hE : E.Sound) {i : Nat} {u : World σ}
    (h : Leads E N D w (Engine.sessionFailed E .connection
      (u.modEs i fun e => { e with requestDead := true }))) :
    Leads E N D w (Engine.clientRefused E i u) := by
  unfold Engine.clientRefused
  dsimp only
  split
  · exact h
  · exact h.trans (shutdownRaw hE _ _ _ _ _)

theorem clientRefused (hE : E.Sound) {i : Nat} (hk : (w.es i).kind = .connect)
    (hs : w.conn.sessState = .sent) : Leads E N D w (clientRefused E i w) := by
  refine intro fun hw => refuse hE ((markDead hE (.inr hk)).trans
    (sessionFailed hE (by simp [hs, SessState.early]) ?_ fun hv =>
      judged_of_single hv (i := i) (by simpa using hk) (.inr (.inl (by simp)))))
  simpa using hw.client i hk

theorem sessionEstablished (hE : E.Sound) {i : Nat} (sel : Bytes)
    (hs : w.conn.sessState.early)
    (hk : ((w.es i).kind = .request ∧ (w.es i).headersDone) ∨ (w.es i).kind = .connect)
    (hparked : Coherent D w → w.conn.parkedEs ≠ some i)
    (hj : Coherent D w → ∀ j, (w.es j).judged D j)
    (hgo : (w.es i).kind = .connect → ∀ g, w.conn.goaway = some g → (w.es i).id < g) :
    Leads E N D w (sessionEstablished E i sel w) := by
  refine intro fun hw => ?_
  unfold Engine.sessionEstablished
  split
  · exact connFatal hE _ _
  have hsel : Leads E N D w (w.updConn fun c => { c with selected := sel }) := updConn hE rfl rfl rfl rfl rfl fun _ => .inl
  dsimp only
  split
  · exact hsel.trans (connFatal hE _ _)
  next hid =>
    exact hsel.trans (act hE (.established i _ hs hk (hparked hw) (hj hw) hid hgo))

/-- No request is parked on a CONNECT stream. -/
theorem not_parked_of_connect {i : Nat} (hw : Coherent D w) (hk : (w.es i).kind = .connect) :
    w.conn.parkedEs ≠ some i := by
  intro hp
  have := (hw.parked i hp).1
  simp [hk] at this

theorem clientMaybeEstablish (hE : E.Sound) {i : Nat} (hk : (w.es i).kind = .connect) :
    Leads E N D w (clientMaybeEstablish E i w) := by
  unfold Engine.clientMaybeEstablish
  split
  · rfl
  next h =>
  simp only [ne_eq, not_or, not_not, Bool.not_eq_true', Bool.not_eq_false] at h
  split
  · exact clientRefused hE hk h.1
  next hgo =>
    refine sessionEstablished hE _ (by simp [h.1, SessState.early]) (.inr hk)
      (fun hw => not_parked_of_connect hw hk) (fun hw => judged_of_single hw hk (.inl ?_))
      fun _ g hg => by simpa [hg] using hgo
    exact (hw.slots i (by simp [hk])).answered hk h.2.1

theorem clientAccept (hE : E.Sound) {i : Nat} (resp : Connect.Response)
    (hk : (w.es i).kind = .connect) (hs : w.conn.sessState = .sent) (hd : (w.es i).headersDone) :
    Leads E N D w (clientAccept E i resp w) := by
  refine intro fun hw => ?_
  have hearly : w.conn.sessState.early := by simp [hs, SessState.early]
  have hfail : ∀ r, Leads E N D w (Engine.sessionFailed E r w) := fun r =>
    sessionFailed hE hearly (hw.client i hk) fun hv => judged_of_single hv hk (.inl hd)
  unfold Engine.clientAccept
  split
  · exact hfail _
  split
  · exact hfail _
  split
  · exact hfail _
  · refine Leads.trans (act hE (.conn _ rfl rfl rfl rfl (fun _ => .inr ⟨hs, fun j hj => ?_⟩)
      fun _ => .inl)) (clientMaybeEstablish hE hk)
    cases hw.single j i hj hk
    exact hd

theorem clientResponseDone (hE : E.Sound) {i : Nat} (hk : (w.es i).kind = .connect)
    (hs : w.conn.sessState = .sent) (hd : (w.es i).headersDone)
    (hr : w.conn.clientResponseOk = false) : Leads E N D w (clientResponseDone E i w) := by
  refine intro fun hw => ?_
  have hearly : w.conn.sessState.early := by simp [hs, SessState.early]
  have hfail : Leads E N D w (Engine.sessionFailed E .badResponse w) :=
    sessionFailed hE hearly (hw.client i hk) fun hv => judged_of_single hv hk (.inl hd)
  unfold Engine.clientResponseDone
  split
  · exact hfail.trans (connFatal hE _ _)
  split
  · split
    · exact hfail.trans (connFatal hE _ _)
    · exact unmarkHeaders hE hk hs hr
  split
  · exact act hE (.rejected _ hs (judged_of_single hw hk (.inl hd)))
  · exact clientAccept hE _ hk hs hd

/-! ## Refusals -/

theorem spares_shutdownRaw (hE : E.Lawful) {i : Nat} (hk : (w.es i).kind.http) (ds : Nat)
    (a r : Bool) (code : Nat) : Spares i w (Engine.shutdownRaw E ds a r code w) :=
  (Frame.shutdownRaw hE ds a r code w).spares hk

theorem requestStreamRefuseErr (hE : E.Sound) {i : Nat} (hk : (w.es i).requests) (err : Nat) :
    Leads E N D w (requestStreamRefuseErr E i err w) :=
  (shutdownRaw hE _ _ _ _ w).trans
    (markDead hE (by rw [(spares_shutdownRaw hE.toLawful hk.http _ _ _ _).es]; exact hk))

end Leads

/-- The kind of the stream in slot `i` and the parked request are left alone. -/
structure Keeps (i : Nat) (w w' : World σ) : Prop where
  kind : (w'.es i).kind = (w.es i).kind
  parkedEs : w'.conn.parkedEs = w.conn.parkedEs

theorem Spares.keeps {i : Nat} (h : Spares i w w') : Keeps i w w' := ⟨by rw [h.es], h.parkedEs⟩

theorem Frame.keeps {i : Nat} (h : Frame .call w w') (hk : (w.es i).kind.http) : Keeps i w w' :=
  (h.spares hk).keeps

namespace Keeps

variable {i : Nat}

@[refl] theorem refl (w : World σ) : Keeps i w w := ⟨rfl, rfl⟩

theorem trans (h : Keeps i w w') (h' : Keeps i w' w'') : Keeps i w w'' :=
  ⟨h'.kind.trans h.kind, h'.parkedEs.trans h.parkedEs⟩

/-- Then a function that leaves HTTP streams alone. -/
theorem call {v u : World σ} (h : Keeps i w v) (h' : Frame .call v u) (hk : (w.es i).kind.http) :
    Keeps i w u :=
  h.trans (h'.keeps (h.kind ▸ hk))

theorem modEs {f : Estream → Estream} (hk : (f (w.es i)).kind = (w.es i).kind) :
    Keeps i w (w.modEs i f) :=
  ⟨by simp [hk], by simp⟩

theorem updConn {f : Conn → Conn} (hp : (f w.conn).peer = w.conn.peer)
    (hk : (f w.conn).parkedEs = w.conn.parkedEs) : Keeps i w (w.updConn f) :=
  ⟨by rw [World.es_updConn, hp]; rfl, hk⟩

theorem requestStreamRefuseErr (hE : E.Lawful) (hk : (w.es i).kind.http) (err : Nat) :
    Keeps i w (requestStreamRefuseErr E i err w) :=
  ((Frame.shutdownRaw hE _ _ _ _ w).keeps hk).trans (modEs (by rfl))

theorem serverRefuse (hE : E.Lawful) (hk : (w.es i).kind.http) (status : Nat) :
    Keeps i w (serverRefuse E i status w) :=
  ((Frame.serverSendResponse hE _ _ _ w).keeps hk).trans (modEs (by rfl))

theorem clientRefused (hE : E.Lawful) (hk : (w.es i).kind.http) :
    Keeps i w (clientRefused E i w) := by
  unfold Engine.clientRefused
  have hdead : Keeps i w (w.modEs i fun e => { e with requestDead := true }) := modEs rfl
  have hfail := hdead.call (Frame.sessionFailed hE .connection _) hk
  dsimp only
  split
  · exact hfail
  · exact hfail.call (Frame.shutdownRaw hE _ _ _ _ _) hk

theorem establish (i id : Nat) (w : World σ) : Keeps i w (establish i id w) :=
  ⟨by simp [World.es, conn_establish], by simp [conn_establish]⟩

theorem sessionEstablished (hE : E.Lawful) (hk : (w.es i).kind.http) (sel : Bytes) :
    Keeps i w (sessionEstablished E i sel w) := by
  unfold Engine.sessionEstablished
  split
  · exact (Frame.connFatal hE _ w).keeps hk
  have hsel : Keeps i w (w.updConn fun c => { c with selected := sel }) := updConn rfl rfl
  dsimp only
  split
  · exact hsel.call (Frame.connFatal hE _ _) hk
  · have hest := fun ev =>
      (hsel.trans (establish i (w.es i).id _)).call (Frame.notify hE (.sessionEstablished ev) _) hk
    split
    · exact (hest _).call (Frame.sessionDraining hE _) hk
    · exact hest _

theorem clientMaybeEstablish (hE : E.Lawful) (hk : (w.es i).kind.http) :
    Keeps i w (clientMaybeEstablish E i w) := by
  unfold Engine.clientMaybeEstablish
  split
  · rfl
  split
  · exact clientRefused hE hk
  · exact sessionEstablished hE hk _

theorem clientResponseDone (hE : E.Lawful) (hk : (w.es i).kind.http) :
    Keeps i w (clientResponseDone E i w) := by
  have hfail : ∀ r, Keeps i w (sessionFailed E r w) := fun r => (Frame.sessionFailed hE r w).keeps hk
  have haccept : ∀ resp, Keeps i w (clientAccept E i resp w) := by
    intro resp
    unfold clientAccept
    split
    · exact hfail _
    split
    · exact hfail _
    split
    · exact hfail _
    · exact Keeps.trans (updConn rfl rfl) (clientMaybeEstablish hE hk)
  unfold Engine.clientResponseDone
  split
  · exact (hfail _).call (Frame.connFatal hE _ _) hk
  split
  · split
    · exact (hfail _).call (Frame.connFatal hE _ _) hk
    · exact modEs (by rfl)
  split
  · refine Keeps.call (v := w.setSess .rejected) ⟨rfl, rfl⟩ (Frame.notify hE _ _) hk
  · exact haccept _

theorem serverGates (hE : E.Lawful) (hk : (w.es i).kind.http) (tbl : PathTable)
    (pol : ProfilePolicy) (req : Connect.Request) : Keeps i w (serverGates E tbl i pol req w) := by
  have hpublish : ∀ sel, Keeps i w (serverPublish E i req sel w) := by
    intro sel
    unfold serverPublish
    split
    · exact (Frame.connFatal hE _ w).keeps hk
    have hpub : Keeps i w (w.updConn fun c =>
        { c with reqPath := req.path, reqAuth := req.authority }) := updConn rfl rfl
    have hsend := hpub.call (Frame.serverSendResponse hE (w.es i).ds 200 sel _) hk
    dsimp only
    split
    · exact hsend
    · exact hsend.trans (sessionEstablished hE (hsend.kind ▸ hk) _)
  unfold Engine.serverGates serverAdmit
  split
  · exact serverRefuse hE hk _
  split
  · exact requestStreamRefuseErr hE hk _
  split
  · exact serverRefuse hE hk _
  split
  · exact serverRefuse hE hk _
  split
  · exact serverRefuse hE hk _
  dsimp only
  split
  · exact serverRefuse hE hk _
  · exact hpublish _

theorem serverDecide (hE : E.Lawful) (hk : (w.es i).kind.http) (tbl : PathTable) :
    Keeps i w (serverDecide E tbl i w) := by
  unfold Engine.serverDecide
  dsimp only
  split
  · exact serverRefuse hE hk _
  · exact requestStreamRefuseErr hE hk _
  · exact (Frame.connFatal hE _ w).keeps hk
  · exact requestStreamRefuseErr hE hk _
  · exact serverGates hE hk _ _ _

/-- After the SETTINGS no request is parked. -/
theorem serverRequestDone (hE : E.Lawful) (hk : (w.es i).kind.http) (tbl : PathTable)
    (hs : w.conn.settingsReceived) : Keeps i w (serverRequestDone E tbl i w) := by
  unfold Engine.serverRequestDone
  rw [if_neg (by simp [hs])]
  split
  · exact serverRefuse hE hk _
  · exact serverDecide hE hk _

end Keeps

theorem kind_serverRequestDone (hE : E.Lawful) {i : Nat} (hk : (w.es i).kind.http)
    (tbl : PathTable) : ((serverRequestDone E tbl i w).es i).kind = (w.es i).kind := by
  by_cases hs : w.conn.settingsReceived
  · exact (Keeps.serverRequestDone hE hk tbl hs).kind
  · unfold serverRequestDone serverPark
    rw [if_pos (by simp [hs])]
    split
    · exact (Keeps.requestStreamRefuseErr hE hk _).kind
    · simp [World.es, World.auditCopy]

namespace Leads

/-- The end of a stream lets go of the session. -/
theorem releaseForget (hE : E.Sound) {i : Nat} (hk : (w.es i).kind ≠ .free)
    (hcrit : (w.es i).kind ≠ .control ∧ (w.es i).kind ≠ .qpack) (hp : w.conn.parkedEs ≠ some i) :
    Leads E N D w (Engine.estreamRelease E i (Engine.forgetSessionEs i w)) := by
  have hes : ∀ v : World σ, (Engine.forgetSessionEs i v).es = v.es := by
    intro v
    unfold Engine.forgetSessionEs
    split <;> rfl
  have hpark : (Engine.forgetSessionEs i w).conn.parkedEs = w.conn.parkedEs := by
    unfold Engine.forgetSessionEs
    split <;> rfl
  refine (forgetSessionEs hE i w).trans (estreamRelease hE ?_ ?_ ?_)
  · rwa [hes]
  · rwa [hes]
  · rwa [hpark]

theorem requestStreamFail (hE : E.Sound) {i : Nat} (hk : (w.es i).requests) (err : Nat) :
    Leads E N D w (requestStreamFail E i err w) := by
  unfold Engine.requestStreamFail
  have hrefuse := requestStreamRefuseErr (N := N) (D := D) hE hk err
  have hkeep := Keeps.requestStreamRefuseErr hE.toLawful hk.http err
  dsimp only
  generalize Engine.requestStreamRefuseErr E i err w = v at hrefuse hkeep ⊢
  have hcancel : Leads E N D v
      (if v.conn.parkedEs = some i then Engine.parkedRequestCancel v else v) := by
    split
    · exact parkedRequestCancel hE _
    · rfl
  have hes : (if v.conn.parkedEs = some i then Engine.parkedRequestCancel v else v).es = v.es := by
    split <;> rfl
  have hfree : (if v.conn.parkedEs = some i then Engine.parkedRequestCancel v else v).conn.parkedEs
      ≠ some i := by
    split
    · exact fun h => nomatch h
    · assumption
  generalize (if v.conn.parkedEs = some i then Engine.parkedRequestCancel v else v) = u
    at hcancel hes hfree ⊢
  split
  · have hu : (u.es i).requests := by
      rw [hes]
      exact hk.imp hkeep.kind.trans hkeep.kind.trans
    exact (hrefuse.trans hcancel).trans
      ((releaseForget hE hu.ne_free hu.not_critical hfree).trans (sessionClosed hE _ _ _ _))
  · exact hrefuse.trans hcancel

theorem sessionStreamPoisoned (hE : E.Sound) {i : Nat} (hk : (w.es i).requests)
    (hs : (w.es i).isSessionStream) : Leads E N D w (sessionStreamPoisoned E i w) := by
  refine intro fun hw => ?_
  have hsp := spares_shutdownRaw (w := w) hE.toLawful hk.http (w.es i).ds true true H3Err.messageError
  refine (shutdownRaw hE _ _ _ _ w).trans (releaseForget hE ?_ ?_ ?_)
  · rw [hsp.es]
    exact hk.ne_free
  · rw [hsp.es]
    exact hk.not_critical
  · rw [hsp.parkedEs]
    intro hp
    have := (hw.parked i hp).2.1
    simp [hs] at this

/-! ## The server's decision -/

theorem serverRefuse (hE : E.Sound) {i : Nat} (hk : (w.es i).requests) (status : Nat) :
    Leads E N D w (serverRefuse E i status w) := by
  have hsp := (Frame.serverSendResponse hE.toLawful (w.es i).ds status none w).spares hk.http
  refine (serverSendResponse hE _ _ _ w).trans (markDead hE ?_)
  rw [hsp.es]
  exact hk

theorem serverPark (hE : E.Sound) {i : Nat} (hk : (w.es i).parkable) :
    Leads E N D w (serverPark E i w) := by
  unfold Engine.serverPark
  split
  · exact requestStreamRefuseErr hE (.inl hk.1) _
  · refine (auditCopy hE _ _ _ w).trans (act hE (.conn _ rfl rfl rfl rfl .inl fun j hj => ?_))
    cases hj
    exact .inr (by simpa [World.auditCopy] using hk)

/-- A request stream on which the server decides. -/
structure Deciding (i : Nat) (w : World σ) : Prop where
  request : (w.es i).kind = .request
  headersDone : (w.es i).headersDone
  plain : (w.es i).isSessionStream = false
  parkedEs : w.conn.parkedEs ≠ some i

theorem Deciding.requests {i : Nat} (h : Deciding i w) : (w.es i).requests := .inl h.request

theorem serverPublish (hE : E.Sound) {i : Nat} (h : Deciding i w)
    (hest : w.conn.sessionEstablished = false) (req : Connect.Request) (sel : Option Bytes) :
    Leads E N D w (serverPublish E i req sel w) := by
  refine intro fun hw => ?_
  unfold Engine.serverPublish
  split
  · exact connFatal hE _ _
  have hpub : Leads E N D w (w.updConn fun c =>
      { c with reqPath := req.path, reqAuth := req.authority }) := updConn hE rfl rfl rfl rfl rfl fun _ => .inl
  have hdec : Deciding i (w.updConn fun c =>
      { c with reqPath := req.path, reqAuth := req.authority }) :=
    ⟨h.request, h.headersDone, h.plain, h.parkedEs⟩
  have hest : (w.updConn fun c => { c with
      reqPath := req.path, reqAuth := req.authority }).conn.sessionEstablished = false := hest
  dsimp only
  generalize (w.updConn fun c => { c with reqPath := req.path, reqAuth := req.authority }) = u
    at hpub hdec hest ⊢
  refine hpub.trans (intro fun hu => ?_)
  have hsend := serverSendResponse (N := N) (D := D) hE (u.es i).ds 200 sel u
  have hframe : Frame .call u _ := Frame.serverSendResponse hE.toLawful (u.es i).ds 200 sel u
  have hsp := hframe.spares (i := i) hdec.requests.http
  have hmask := (hframe.calm id).1
  generalize Engine.serverSendResponse E (u.es i).ds 200 sel u = v at hsend hsp hmask ⊢
  split
  · exact hsend
  next hopen =>
  have hflag : v.conn.sessionEstablished = false := by
    change v.conn.mask.sessionEstablished = false
    rw [hmask]
    exact hest
  have hpersp : v.conn.persp = .server := by
    change v.conn.mask.persp = .server
    rw [hmask]
    exact (hu.slots i hdec.requests.ne_free).served hdec.request
  refine hsend.trans (intro fun hv => ?_)
  have hidle := hv.server hpersp hflag (by simpa using hopen)
  refine sessionEstablished hE _ (by rw [hidle]; rfl)
    (.inl ⟨by rw [hsp.es, hdec.request], by rw [hsp.es]; exact hdec.headersDone⟩)
    (fun _ => ?_) (fun hv j hj => ?_) fun hc => by simp [hsp.es, hdec.request] at hc
  · rw [hsp.parkedEs]
    exact hdec.parkedEs
  · exact absurd hj ((hv.undialed (.inl hidle)).2 j)

theorem serverGates (hE : E.Sound) {i : Nat} (h : Deciding i w) (tbl : PathTable)
    (pol : ProfilePolicy) (req : Connect.Request) :
    Leads E N D w (serverGates E tbl i pol req w) := by
  unfold Engine.serverGates Engine.serverAdmit
  split
  · exact serverRefuse hE h.requests _
  split
  · exact requestStreamRefuseErr hE h.requests _
  next hest =>
  split
  · exact serverRefuse hE h.requests _
  split
  · exact serverRefuse hE h.requests _
  split
  · exact serverRefuse hE h.requests _
  dsimp only
  split
  · exact serverRefuse hE h.requests _
  · exact serverPublish hE h (by simpa using hest) _ _

theorem serverDecide (hE : E.Sound) {i : Nat} (h : Deciding i w) (tbl : PathTable) :
    Leads E N D w (serverDecide E tbl i w) := by
  unfold Engine.serverDecide
  dsimp only
  split
  · exact serverRefuse hE h.requests _
  · exact requestStreamRefuseErr hE h.requests _
  · exact connFatal hE _ _
  · exact requestStreamRefuseErr hE h.requests _
  · exact serverGates hE h _ _ _

theorem serverRequestDone (hE : E.Sound) {i : Nat} (h : Deciding i w) (tbl : PathTable) :
    Leads E N D w (serverRequestDone E tbl i w) := by
  unfold Engine.serverRequestDone
  split
  · exact serverPark hE ⟨h.request, h.plain, h.headersDone⟩
  split
  · exact serverRefuse hE h.requests _
  · exact serverDecide hE h _

/-! ## Capsules -/

theorem sessionCapsule (hE : E.Sound) {i : Nat} (hk : (w.es i).requests)
    (hs : (w.es i).isSessionStream) (terminal more : Bool) (cap : Capsule.Decoded) :
    Leads E N D w (sessionCapsule E i terminal more cap w).2 ∧
      ((sessionCapsule E i terminal more cap w).1 →
        (sessionCapsule E i terminal more cap w).2.es i = w.es i) := by
  unfold Engine.sessionCapsule
  split
  · have hrx : Leads E N D w (w.updConn fun c => { c with closeCapsuleRx := true }) := updConn hE rfl rfl rfl rfl rfl fun _ => .inl
    have hes : (w.updConn fun c => { c with closeCapsuleRx := true }).es i = w.es i := rfl
    generalize (w.updConn fun c => { c with closeCapsuleRx := true }) = v at hrx hes ⊢
    have hclose : Leads E N D v
        (if terminal then v else Engine.sessionClosed E cap.closeCode cap.reason true v) := by
      split
      · rfl
      · exact sessionClosed hE _ _ _ _
    have hkeep :
        (if terminal then v else Engine.sessionClosed E cap.closeCode cap.reason true v).es i
          = w.es i := by
      rw [← hes]
      split
      · rfl
      · exact (Frame.sessionClosed (S := .call) hE.toLawful _ _ _ v).http i id
          (by rw [hes]; exact hk.http)
    dsimp only
    generalize (if terminal then v
      else Engine.sessionClosed E cap.closeCode cap.reason true v) = u at hclose hkeep ⊢
    split
    · refine ⟨(hrx.trans hclose).trans (sessionStreamPoisoned hE ?_ ?_), fun h => nomatch h⟩
      · rw [hkeep]
        exact hk
      · rw [hkeep]
        exact hs
    · exact ⟨hrx.trans hclose, fun _ => hkeep⟩
  · dsimp only
    split
    · exact ⟨.refl _, fun _ => rfl⟩
    · exact ⟨sessionDraining hE _, fun _ =>
        (Frame.sessionDraining (S := .call) hE.toLawful w).http i id hk.http⟩
  · exact ⟨.refl _, fun _ => rfl⟩

theorem capsuleLoop (hE : E.Sound) {i : Nat} (n : Nat) (data : Bytes)
    (hk : (w.es i).requests) (hs : (w.es i).isSessionStream) :
    Leads E N D w (capsuleLoop E i n data w) := by
  induction n generalizing data w with
  | zero => rfl
  | succ n ih =>
    unfold Engine.capsuleLoop
    split
    · rfl
    dsimp only
    obtain ⟨res, dec, c⟩ := Capsule.decFeed w.conn.capsDec data
    have hfeed : Leads E N D w (((w.auditSub data.length c).auditCopy .reason 0
        (reasonFill res dec)).updConn fun k => { k with capsDec := dec }) :=
      (auditSub hE _ _ w).trans ((auditCopy hE _ _ _ _).trans (updConn hE rfl rfl rfl rfl rfl fun _ => .inl))
    have hes : (((w.auditSub data.length c).auditCopy .reason 0
        (reasonFill res dec)).updConn fun k => { k with capsDec := dec }).es i = w.es i := by
      simp [World.auditSub, World.auditCopy, World.es]
    dsimp only
    generalize (((w.auditSub data.length c).auditCopy .reason 0
        (reasonFill res dec)).updConn fun k => { k with capsDec := dec }) = v at hfeed hes ⊢
    have hkv : (v.es i).requests := by
      rw [hes]
      exact hk
    have hsv : (v.es i).isSessionStream := by
      rw [hes]
      exact hs
    split
    · exact hfeed
    · split
      · exact hfeed.trans (requestStreamFail hE hkv _)
      · exact hfeed.trans (connFatal hE _ _)
    · next cap =>
      obtain ⟨hcap, hsame⟩ := sessionCapsule (N := N) (D := D) hE hkv hsv (w.conn.sessState == .closed)
        (!(data.drop c).isEmpty) cap
      split
      · next hgo =>
        have hu := hsame hgo
        exact hfeed.trans (hcap.trans (ih _ (by rw [hu]; exact hkv) (by rw [hu]; exact hsv)))
      · exact hfeed.trans hcap

theorem sessionCapsuleBytes (hE : E.Sound) {i : Nat} (data : Bytes) (hk : (w.es i).requests)
    (hs : (w.es i).isSessionStream) : Leads E N D w (sessionCapsuleBytes E i data w) := by
  unfold Engine.sessionCapsuleBytes
  split
  · exact sessionStreamPoisoned hE hk hs
  · exact capsuleLoop hE _ _ hk hs

end Leads

end Wtquic.Engine
