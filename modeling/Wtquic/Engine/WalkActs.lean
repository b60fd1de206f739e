-- SUMMARY: The acts of the walks over request and control streams, and of QPACK bytes.
import Wtquic.Engine.RequestActs
import Wtquic.Engine.StreamFrame

namespace Wtquic.Engine

/-! # The acts of frame walks -/

variable {σ : Type} {E : Ctx σ} {N : News} {D : Doomed} {w w' w'' : World σ}

/-! ## What a dead connection and a free slot keep -/

theorem closed_notify (hE : E.Lawful) {c : Callback} (hc : w.conn.closed) :
    (E.notify c w).conn.closed :=
  (Frame.notify (S := .call) hE c w).closed hc

theorem closed_sessionConnLost (hE : E.Lawful) (hc : w.conn.closed) :
    (sessionConnLost E w).conn.closed :=
  (Frame.sessionConnLost (S := .call) hE w).closed hc

theorem closed_connFatal (hE : E.Lawful) (err : Nat) (w : World σ) :
    (connFatal E err w).conn.closed := by
  unfold connFatal
  split
  · assumption
  · exact closed_notify hE (closed_sessionConnLost hE rfl)

/-- A free slot stays free while a session ends. -/
theorem free_sessionClosed (hE : E.Sound) {i : Nat} (hi : (w.es i).kind = .free)
    (code : UInt32) (reason : Bytes) (clean : Bool) :
    ((sessionClosed E code reason clean w).es i).kind = .free := by
  rw [sessionClosed, sessionClosedWith_eq]
  split
  · exact hi
  obtain ⟨ht, -⟩ := TornDown.loop (E := E) (fatalOk_connFatal hE.toLawful)
    (List.range w.conn.streamCapacity) (show (w.setSess .closed).conn.sessState = .closed from rfl)
  have hover : (teardown E (connFatal E) (List.range w.conn.streamCapacity)
      (w.setSess .closed)).conn.sessState.over := by
    have := congrArg Core.sessState ht.core
    simp only [Conn.core] at this
    rw [this]
    rfl
  have hfree : ((teardown E (connFatal E) (List.range w.conn.streamCapacity)
      (w.setSess .closed)).es i).kind = .free := by
    rcases (ht.slot i).kind with hk | hk
    · exact hk.trans hi
    · exact hk.2
  exact ((hE.barren _ _ hover).2 i).elim (·.1.trans hfree) id

/-! ## The frame walk -/

/-- The stream in slot `i` keeps its kind, or is gone. -/
def Stays (i : Nat) (w w' : World σ) : Prop :=
  (w'.es i).kind = (w.es i).kind ∨ (w'.es i).kind = .free

namespace Stays

variable {i : Nat}

theorem of_es_eq (h : w'.es i = w.es i) : Stays i w w' := .inl (by rw [h])

@[refl] theorem refl (w : World σ) : Stays i w w := .inl rfl

theorem trans (h : Stays i w w') (hk : (w'.es i).kind ≠ .free) (h' : Stays i w' w'') :
    Stays i w w'' :=
  h'.imp_left fun e => e.trans (h.resolve_right hk)

theorem modEs {f : Estream → Estream} (hf : (f (w.es i)).kind = (w.es i).kind) :
    Stays i w (w.modEs i f) :=
  .inl (by rw [World.es_modEs_self, hf])

/-- A call leaves HTTP streams alone. -/
theorem of_call (h : Frame .call w w') (hk : (w.es i).kind.http) : Stays i w w' :=
  of_es_eq (h.http i id hk)

theorem requests (h : Stays i w w') (hr : (w.es i).requests) (hk : (w'.es i).kind ≠ .free) :
    (w'.es i).requests := by
  rw [Estream.requests, h.resolve_right hk]
  exact hr

end Stays

/-- A handler that acts, and lets the walk go on only where `P` holds of the stream. -/
structure Goes (E : Ctx σ) (N : News) (D : Doomed) (i : Nat) (P : Estream → Prop) (w : World σ)
    (go : Bool) (w' : World σ) : Prop where
  leads : Leads E N D w w'
  stays : Stays i w w'
  goes : go → P (w'.es i) ∧ w'.conn.closed = false

/-- The same of a handler behind which the walk looks at the connection. -/
structure Completes (E : Ctx σ) (N : News) (D : Doomed) (i : Nat) (P : Estream → Prop) (w : World σ)
    (go : Bool) (w' : World σ) : Prop where
  leads : Leads E N D w w'
  stays : Stays i w w'
  goes : go → w'.conn.closed ∨ P (w'.es i)

/-- The handlers of a walk over slot `i` act as long as `P` holds of its stream. -/
structure FrameWalk.Acting (E : Ctx σ) (N : News) (D : Doomed) (W : FrameWalk σ) (i : Nat)
    (P : Estream → Prop) : Prop where
  occupied : ∀ e, P e → e.kind ≠ .free ∧ e.kind ≠ .btype
  trunk : ∀ e e', e'.trunk = e.trunk → P e → P e'
  header : ∀ h w, Coherent D w → P (w.es i) → w.conn.closed = false →
    Goes E N D i P w (W.header h w).1 (W.header h w).2
  payload : ∀ bs w, Coherent D w → P (w.es i) → w.conn.closed = false →
    Goes E N D i P w (W.payload bs w).1 (W.payload bs w).2
  finish : ∀ w, Coherent D w → P (w.es i) → w.conn.closed = false →
    Completes E N D i P w (W.finish w).1 (W.finish w).2

section Walk

variable {W : FrameWalk σ} {i : Nat} {P : Estream → Prop}

theorem Goes.stop (h : Leads E N D w w') (hs : Stays i w w') : Goes E N D i P w false w' :=
  ⟨h, hs, fun h => nomatch h⟩

theorem Goes.stay (hP : P (w.es i)) (ho : w.conn.closed = false) : Goes E N D i P w true w :=
  ⟨.refl w, .refl w, fun _ => ⟨hP, ho⟩⟩

theorem Goes.after {go : Bool} (h : Leads E N D w w') (hs : Stays i w w')
    (hk : (w'.es i).kind ≠ .free) (h' : Goes E N D i P w' go w'') : Goes E N D i P w go w'' :=
  ⟨h.trans h'.leads, hs.trans hk h'.stays, h'.goes⟩

theorem Goes.completes {go : Bool} (h : Goes E N D i P w go w') : Completes E N D i P w go w' :=
  ⟨h.leads, h.stays, fun hg => .inr (h.goes hg).1⟩

theorem Completes.after {go : Bool} (h : Leads E N D w w') (hs : Stays i w w')
    (hk : (w'.es i).kind ≠ .free) (h' : Completes E N D i P w' go w'') :
    Completes E N D i P w go w'' :=
  ⟨h.trans h'.leads, hs.trans hk h'.stays, h'.goes⟩

/-- A frame begins or ends on a stream that is classified. -/
theorem Estream.trunk_startFrame {e : Estream} (hb : e.kind ≠ .btype) (h : H3Frame.Header)
    (dec : H3Frame.Dec) : (e.startFrame h dec).trunk = e.trunk := by
  simp [Estream.trunk, Estream.startFrame, hb]

theorem Estream.trunk_stopFrame {e : Estream} (hb : e.kind ≠ .btype) :
    ({ e with frameActive := false } : Estream).trunk = e.trunk := by
  simp [Estream.trunk, hb]

namespace Leads

theorem frameHead (hE : E.Sound) (hW : W.Acting E N D i P) (data : Bytes) (hw : Coherent D w)
    (hP : P (w.es i)) (ho : w.conn.closed = false) :
    Goes E N D i P w (frameHead W i data w).1 (frameHead W i data w).2.2 := by
  unfold Engine.frameHead
  split
  · exact .stay hP ho
  have hheard : ∀ c, Leads E N D w ((w.auditSub data.length c).hear i (data.take c)) := fun c =>
    (auditSub hE _ _ w).trans (hear hE _ _ _)
  have hes : ∀ c, ((w.auditSub data.length c).hear i (data.take c)).es i = w.es i := fun c => by
    simp [World.auditSub]
  obtain ⟨hfree, hb⟩ := hW.occupied _ hP
  have hstore : ∀ c (f : Estream → Estream), (f (w.es i)).trunk = (w.es i).trunk →
      Leads E N D w (((w.auditSub data.length c).hear i (data.take c)).modEs i f) ∧
        Stays i w (((w.auditSub data.length c).hear i (data.take c)).modEs i f) := by
    intro c f hf
    refine ⟨(hheard c).trans (modEs hE (by rw [hes]; exact hfree) (by rw [hes, hf])), ?_⟩
    exact .inl (by rw [World.es_modEs_self, hes]; exact (congrArg Estream.kind hf :))
  split
  · next dec c _ =>
    obtain ⟨hlead, hstay⟩ := hstore c (fun e => { e with frameDec := dec }) rfl
    exact .stop hlead hstay
  · next h dec c _ =>
    have htrunk := Estream.trunk_startFrame hb h dec
    obtain ⟨hlead, hstay⟩ := hstore c (Estream.startFrame h dec) htrunk
    have hPs : P ((((w.auditSub data.length c).hear i (data.take c)).modEs i
        (Estream.startFrame h dec)).es i) := by
      rw [World.es_modEs_self, hes]
      exact hW.trunk (w.es i) _ htrunk hP
    refine .after hlead hstay (hW.occupied _ hPs).1 (hW.header h _ (hlead.coherent hw) hPs ?_)
    simpa [World.auditSub] using ho

theorem frameTake (hE : E.Sound) (hk : (w.es i).kind ≠ .free) (bs : Bytes) :
    Leads E N D w (frameTake i bs w) :=
  (hear hE _ _ w).trans ((auditSub hE _ _ _).trans
    (modEs hE (by simpa [World.auditSub] using hk) rfl))

theorem frameEnd (hE : E.Sound) (hk : (w.es i).kind ≠ .free) (hb : (w.es i).kind ≠ .btype) :
    Leads E N D w (frameEnd i w) :=
  modEs hE hk (Estream.trunk_stopFrame hb)

theorem frameAdvance (hE : E.Sound) (hW : W.Acting E N D i P) (slice rest : Bytes)
    (hw : Coherent D w) (hP : P (w.es i)) (ho : w.conn.closed = false) :
    Completes E N D i P w (frameAdvance W i slice rest w).1 (frameAdvance W i slice rest w).2.2 := by
  have htake := frameTake (N := N) (D := D) hE (hW.occupied _ hP).1 slice
  have hes : (Engine.frameTake i slice w).es i
      = { w.es i with frameRemaining := (w.es i).frameRemaining - slice.length } := by
    simp [Engine.frameTake, World.auditSub]
  have hot : (Engine.frameTake i slice w).conn.closed = false := by
    simpa [Engine.frameTake, World.auditSub] using ho
  unfold Engine.frameAdvance
  dsimp only
  generalize Engine.frameTake i slice w = v at htake hes hot ⊢
  have hPt : P (v.es i) := hW.trunk (w.es i) _ (by rw [hes]; rfl) hP
  have hstay : Stays i w v := .inl (by rw [hes])
  split
  · obtain ⟨hfree, hb⟩ := hW.occupied _ hPt
    have hend := frameEnd (N := N) (D := D) hE hfree hb
    have hese : (Engine.frameEnd i v).es i = { v.es i with frameActive := false } := by
      simp [Engine.frameEnd]
    have hoe : (Engine.frameEnd i v).conn.closed = false := by simpa [Engine.frameEnd] using hot
    generalize Engine.frameEnd i v = u at hend hese hoe ⊢
    have hPe : P (u.es i) :=
      hW.trunk (v.es i) _ (by rw [hese]; exact Estream.trunk_stopFrame hb) hPt
    have hstaye : Stays i v u := .inl (by rw [hese])
    exact .after (htake.trans hend) (hstay.trans hfree hstaye) (hW.occupied _ hPe).1
      (hW.finish u ((htake.trans hend).coherent hw) hPe hoe)
  · exact ⟨htake, hstay, fun _ => .inr hPt⟩

theorem frameBody (hE : E.Sound) (hW : W.Acting E N D i P) (data : Bytes) (hw : Coherent D w)
    (hP : P (w.es i)) (ho : w.conn.closed = false) :
    Completes E N D i P w (frameBody W i data w).1 (frameBody W i data w).2.2 := by
  have hpay := hW.payload (data.take (w.es i).frameRemaining) w hw hP ho
  unfold Engine.frameBody
  dsimp only
  split
  · next hgo =>
    obtain ⟨hPu, hou⟩ := hpay.goes hgo
    exact .after hpay.leads hpay.stays (hW.occupied _ hPu).1
      (frameAdvance hE hW _ _ (hpay.leads.coherent hw) hPu hou)
  · exact ⟨hpay.leads, hpay.stays, fun h => nomatch h⟩

theorem frameRound (hE : E.Sound) (hW : W.Acting E N D i P) (data : Bytes) (hw : Coherent D w)
    (hP : P (w.es i)) (ho : w.conn.closed = false) :
    Completes E N D i P w (frameRound W i data w).1 (frameRound W i data w).2.2 := by
  have hhead := frameHead hE hW data hw hP ho
  unfold Engine.frameRound
  dsimp only
  split
  · next hgo =>
    obtain ⟨hPv, hov⟩ := hhead.goes hgo
    exact .after hhead.leads hhead.stays (hW.occupied _ hPv).1
      (frameBody hE hW _ (hhead.leads.coherent hw) hPv hov)
  · exact ⟨hhead.leads, hhead.stays, fun h => nomatch h⟩

theorem frameLoop (hE : E.Sound) (hW : W.Acting E N D i P) (n : Nat) (data : Bytes)
    (hw : Coherent D w) (hP : w.conn.closed ∨ P (w.es i)) :
    Leads E N D w (frameLoop W i n data w) ∧ Stays i w (frameLoop W i n data w) := by
  induction n generalizing data w with
  | zero => exact ⟨.refl w, .refl w⟩
  | succ n ih =>
    unfold Engine.frameLoop
    split
    · exact ⟨.refl w, .refl w⟩
    next h =>
    simp only [Bool.or_eq_true, not_or, Bool.not_eq_true] at h
    have hP : P (w.es i) := hP.resolve_left (by simp [h.2])
    have hround := frameRound hE hW data hw hP h.2
    dsimp only
    generalize Engine.frameRound W i data w = x at hround ⊢
    obtain ⟨go, rest, v⟩ := x
    dsimp only at hround ⊢
    cases go with
    | false => exact ⟨hround.leads, hround.stays⟩
    | true =>
      -- a closed connection ends the loop, whatever became of the slot
      by_cases hc : v.conn.closed
      · have hdone : Engine.frameLoop W i n rest v = v := by
          cases n <;> simp [Engine.frameLoop, hc]
        simp only [if_true, hdone]
        exact ⟨hround.leads, hround.stays⟩
      · obtain hgo := (hround.goes rfl).resolve_left hc
        obtain ⟨hlead, hstay⟩ := ih rest (hround.leads.coherent hw) (.inr hgo)
        exact ⟨hround.leads.trans hlead, hround.stays.trans (hW.occupied _ hgo).1 hstay⟩

end Leads
end Walk

/-! ## Request streams -/

/-- A stream error releases the session's stream, and leaves another its kind. -/
theorem kind_requestStreamFail (hE : E.Sound) {i : Nat} (hk : (w.es i).kind.http) (err : Nat) :
    ((requestStreamFail E i err w).es i).kind
      = if (w.es i).isSessionStream then .free else (w.es i).kind := by
  have hrefuse : (requestStreamRefuseErr E i err w).es i = { w.es i with requestDead := true } := by
    rw [requestStreamRefuseErr, World.es_modEs_self,
      (Leads.spares_shutdownRaw hE.toLawful hk _ _ _ _).es]
  unfold requestStreamFail
  dsimp only
  generalize requestStreamRefuseErr E i err w = v at hrefuse ⊢
  have hes : (if v.conn.parkedEs = some i then parkedRequestCancel v else v).es = v.es := by
    split <;> rfl
  generalize (if v.conn.parkedEs = some i then parkedRequestCancel v else v) = u at hes ⊢
  rw [hes, hrefuse]
  dsimp only
  split
  · exact free_sessionClosed hE (by simp [Estream.released]) _ _ _
  · rw [hes, hrefuse]

theorem stays_requestStreamFail (hE : E.Sound) {i : Nat} (hk : (w.es i).kind.http) (err : Nat) :
    Stays i w (requestStreamFail E i err w) := by
  rw [Stays, kind_requestStreamFail hE hk]
  split
  · exact .inr rfl
  · exact .inl rfl

theorem free_sessionStreamPoisoned (i : Nat) (w : World σ) :
    ((sessionStreamPoisoned E i w).es i).kind = .free := by
  simp [sessionStreamPoisoned, Estream.released]

/-- A capsule behind which the walk does not go on released the slot. -/
theorem free_sessionCapsule {i : Nat} {terminal more : Bool} {cap : Capsule.Decoded}
    (h : (sessionCapsule E i terminal more cap w).1 = false) :
    ((sessionCapsule E i terminal more cap w).2.es i).kind = .free := by
  unfold sessionCapsule at h ⊢
  split at h
  · dsimp only at h ⊢
    split at h
    · next hm =>
      rw [if_pos hm]
      exact free_sessionStreamPoisoned _ _
    · exact absurd h (by simp)
  · exact absurd h (by simp)
  · exact absurd h (by simp)

/-- What the capsules of a session stream leave behind. -/
def AfterCapsules (i : Nat) (w w' : World σ) : Prop :=
  (w'.es i).kind = .free ∨ w'.es i = w.es i

theorem AfterCapsules.stays {i : Nat} (h : AfterCapsules i w w') : Stays i w w' :=
  h.elim .inr .of_es_eq

theorem capsuleLoop_after (hE : E.Sound) {i : Nat} (n : Nat) (data : Bytes)
    (hk : (w.es i).requests) (hs : (w.es i).isSessionStream) :
    AfterCapsules i w (capsuleLoop E i n data w) := by
  induction n generalizing data w with
  | zero => exact .inr rfl
  | succ n ih =>
    unfold capsuleLoop
    split
    · exact .inr rfl
    dsimp only
    obtain ⟨res, dec, c⟩ := Capsule.decFeed w.conn.capsDec data
    have hes : (((w.auditSub data.length c).auditCopy .reason 0
        (reasonFill res dec)).updConn fun k => { k with capsDec := dec }).es i = w.es i := by
      simp [World.auditSub, World.auditCopy, World.es]
    dsimp only
    generalize (((w.auditSub data.length c).auditCopy .reason 0
        (reasonFill res dec)).updConn fun k => { k with capsDec := dec }) = v at hes ⊢
    have hkv : (v.es i).requests := by
      rw [hes]
      exact hk
    split
    · exact .inr hes
    · split
      · refine .inl ?_
        rw [kind_requestStreamFail hE hkv.http, hes, if_pos hs]
      · exact .inr (((Frame.connFatal (S := .call) hE.toLawful _ v).http i id hkv.http).trans hes)
    · next cap =>
      split
      · next hgo =>
        have hu := ((Leads.sessionCapsule (N := .call) (D := .none) hE hkv (by rw [hes]; exact hs)
          (w.conn.sessState == .closed) (!(data.drop c).isEmpty) cap).2 hgo).trans hes
        exact (ih (data.drop c) (by rw [hu]; exact hk) (by rw [hu]; exact hs)).imp_right
          fun h => h.trans hu
      · next hgo => exact .inl (free_sessionCapsule (by simpa using hgo))

theorem sessionCapsuleBytes_after (hE : E.Sound) {i : Nat} (data : Bytes)
    (hk : (w.es i).requests) (hs : (w.es i).isSessionStream) :
    AfterCapsules i w (sessionCapsuleBytes E i data w) := by
  unfold sessionCapsuleBytes
  split
  · exact .inl (free_sessionStreamPoisoned _ _)
  · exact capsuleLoop_after hE _ _ hk hs

/-- A request stream whose frames are still walked. -/
def Estream.walking (e : Estream) : Prop := e.requests ∧ e.requestDead = false

theorem Estream.walking_of_trunk {e e' : Estream} (h : e'.trunk = e.trunk) (he : e.walking) :
    e'.walking := by
  simp only [Estream.trunk, Estream.mk.injEq] at h
  obtain ⟨-, -, -, hkind, -, -, -, -, -, -, -, -, -, -, -, hdead, -⟩ := h
  exact ⟨by rw [Estream.requests, hkind]; exact he.1, by rw [hdead]; exact he.2⟩

namespace Leads

theorem appendSetBuf (hE : E.Sound) {i : Nat} (hk : (w.es i).kind ≠ .free) (bs : Bytes) :
    Leads E N D w (appendSetBuf i bs w) :=
  (auditCopy hE _ _ _ w).trans (modEs hE (by simpa [World.auditCopy] using hk) rfl)

theorem requestHeader (hE : E.Sound) {i : Nat} (h : H3Frame.Header) (hP : (w.es i).walking)
    (ho : w.conn.closed = false) :
    Goes E N D i Estream.walking w (requestHeader E i h w).1 (requestHeader E i h w).2 := by
  have hmark : ∀ k, (k = .capsule → (w.es i).isSessionStream) →
      Goes E N D i Estream.walking w true (w.modEs i fun e => { e with frameKind := k }) := by
    intro k hk
    refine ⟨markFrame hE hP.1 hk, .modEs rfl, fun _ => ⟨?_, by simpa using ho⟩⟩
    rw [World.es_modEs_self]
    exact hP
  have hdie : ∀ err, Goes E N D i Estream.walking w false (Engine.connFatal E err w) := fun err =>
    .stop (connFatal hE err w) (.of_call (Frame.connFatal hE.toLawful err w) hP.1.http)
  unfold Engine.requestHeader
  split
  · exact hdie _
  split
  · unfold requestHeaders
    split
    · exact hdie _
    split
    · split
      · exact .stop (requestStreamFail hE hP.1 _) (stays_requestStreamFail hE hP.1.http _)
      · exact hdie _
    · exact hmark _ (fun h => nomatch h)
  split
  · unfold requestData
    split
    · exact hdie _
    split
    · have hrefuse : Keeps i w (requestStreamRefuse E i w) :=
        .requestStreamRefuseErr hE.toLawful hP.1.http _
      have hcancel : ∀ v : World σ, (Engine.parkedRequestCancel v).es = v.es := fun _ => rfl
      refine .stop ((requestStreamRefuseErr hE hP.1 _).trans (parkedRequestCancel hE _)) (.inl ?_)
      rw [hcancel]
      exact hrefuse.kind
    · have := hmark (if (w.es i).isSessionStream then .capsule else .skip) (by split <;> simp_all)
      exact this
  · exact hmark _ (fun h => nomatch h)

theorem requestPayload (hE : E.Sound) {i : Nat} (bs : Bytes) (hw : Coherent D w)
    (hP : (w.es i).walking) (ho : w.conn.closed = false) :
    Goes E N D i Estream.walking w (requestPayload E i bs w).1 (requestPayload E i bs w).2 := by
  unfold Engine.requestPayload
  split
  · exact .stay hP ho
  split
  · refine ⟨appendSetBuf hE hP.1.ne_free bs, .inl ?_, fun _ => ⟨?_, ?_⟩⟩
    · simp [Engine.appendSetBuf, World.auditCopy]
    · simpa [Engine.appendSetBuf, World.auditCopy, Estream.walking, Estream.requests] using hP
    · simpa [Engine.appendSetBuf, World.auditCopy] using ho
  · next hfk =>
    have hss := (hw.slots i hP.1.ne_free).capsule hfk
    have hafter := sessionCapsuleBytes_after hE bs hP.1 hss
    refine ⟨sessionCapsuleBytes hE bs hP.1 hss, hafter.stays, fun hgo => ?_⟩
    simp only [Bool.not_eq_true', Bool.or_eq_false_iff, beq_eq_false_iff_ne] at hgo
    refine ⟨?_, hgo.1⟩
    rw [hafter.resolve_left hgo.2]
    exact hP
  · exact .stay hP ho
  · exact .stay hP ho

theorem requestTrailers (hE : E.Sound) {i : Nat} (hk : (w.es i).requests) :
    Leads E N D w (requestTrailers E i w) := by
  have htrail : Leads E N D w (w.modEs i fun e => { e with trailersDone := true, setBuf := [] }) :=
    modEs hE hk.ne_free rfl
  have hkt : ((w.modEs i fun e => { e with trailersDone := true, setBuf := [] }).es i).requests := by
    rw [World.es_modEs_self]
    exact hk
  unfold Engine.requestTrailers
  dsimp only
  split
  · exact htrail.trans (connFatal hE _ _)
  · exact htrail.trans (requestStreamFail hE hkt _)
  · exact htrail.trans (requestStreamFail hE hkt _)
  · exact htrail

theorem stays_requestTrailers (hE : E.Sound) {i : Nat} (hk : (w.es i).requests) :
    Stays i w (Engine.requestTrailers E i w) := by
  unfold Engine.requestTrailers
  have htrail : Stays i w (w.modEs i fun e => { e with trailersDone := true, setBuf := [] }) :=
    .modEs rfl
  have hv : ((w.modEs i fun e => { e with trailersDone := true, setBuf := [] }).es i).kind.http := by
    rw [World.es_modEs_self]
    exact hk.http
  have hne := EsKind.ne_free_of_http hv
  dsimp only
  split
  · exact htrail.trans hne (.of_call (Frame.connFatal hE.toLawful _ _) hv)
  · exact htrail.trans hne (stays_requestStreamFail hE hv _)
  · exact htrail.trans hne (stays_requestStreamFail hE hv _)
  · exact htrail

/-- The request stream in slot `i` answers its first HEADERS. -/
theorem firstHeaders (hE : E.Sound) {i : Nat} (tbl : PathTable) (hP : (w.es i).walking)
    (hd : (w.es i).headersDone = false) (ho : w.conn.closed = false) :
    let v := w.modEs i fun e => { e with headersDone := true }
    Leads E N .none w
      (if (v.es i).kind = .connect then Engine.clientResponseDone E i v
        else Engine.serverRequestDone E tbl i v) := by
  intro v
  refine intro fun hw => ?_
  have hi := hw.slots i hP.1.ne_free
  have hes : v.es i = { w.es i with headersDone := true } := by simp [v]
  refine (markHeaders hE hP.1).trans ?_
  change Leads E N .none v _
  rw [hes]
  split
  · next hk =>
    have hs : w.conn.sessState = .sent := by
      rcases hi.asked hk with h | h | h | h | h
      · simp [hd] at h
      · simp [hP.2] at h
      · exact h.elim
      · simp [ho] at h
      · exact h
    refine clientResponseDone hE (by rw [hes]; exact hk) (by simpa [v] using hs) (by rw [hes]) ?_
    by_contra hr
    have := hi.answered hk (by simpa [v] using hr)
    simp [hd] at this
  · next hk =>
    have hr : (w.es i).kind = .request := hP.1.resolve_right hk
    refine serverRequestDone hE ⟨by rw [hes]; exact hr, by rw [hes], ?_, ?_⟩ tbl
    · rw [hes]
      by_contra hss
      have := hi.opened hr (by simpa using hss)
      simp [hd] at this
    · intro hp
      have := (hw.parked i (by simpa [v] using hp)).2.2
      simp [hd] at this

theorem kind_firstHeaders (hE : E.Sound) {i : Nat} (tbl : PathTable) (hk : (w.es i).requests) :
    let v := w.modEs i fun e => { e with headersDone := true }
    ((if (v.es i).kind = .connect then Engine.clientResponseDone E i v
      else Engine.serverRequestDone E tbl i v).es i).kind = (w.es i).kind := by
  intro v
  have hkv : (v.es i).kind = (w.es i).kind := by simp [v]
  have hhttp : (v.es i).kind.http := by
    rw [hkv]
    exact hk.http
  split
  · exact (Keeps.clientResponseDone hE.toLawful hhttp).kind.trans hkv
  · exact (kind_serverRequestDone hE.toLawful hhttp tbl).trans hkv

theorem requestFrameDone (hE : E.Sound) {i : Nat} (tbl : PathTable) (hP : (w.es i).walking)
    (ho : w.conn.closed = false) :
    Completes E N .none i Estream.walking w (requestFrameDone E tbl i w).1
      (requestFrameDone E tbl i w).2 := by
  -- the walk goes on only on a stream that is occupied and not refused
  have hgo : ∀ v : World σ, Leads E N .none w v → Stays i w v →
      Completes E N .none i Estream.walking w
        (!(v.conn.closed || (v.es i).kind == .free || (v.es i).requestDead)) v := by
    intro v hlead hstay
    refine ⟨hlead, hstay, fun hg => .inr ?_⟩
    simp only [Bool.not_eq_true', Bool.or_eq_false_iff, beq_eq_false_iff_ne] at hg
    exact ⟨hstay.requests hP.1 hg.1.2, hg.2⟩
  unfold Engine.requestFrameDone
  split
  · exact (Goes.stay hP ho).completes
  dsimp only
  by_cases hd : (w.es i).headersDone
  · rw [if_pos hd]
    exact hgo _ (requestTrailers hE hP.1) (stays_requestTrailers hE hP.1)
  · rw [if_neg hd]
    exact hgo _ (firstHeaders hE tbl hP (by simpa using hd) ho)
      (.inl (kind_firstHeaders hE tbl hP.1))

theorem requestWalk_acting (hE : E.Sound) (tbl : PathTable) (i : Nat) :
    (requestWalk E tbl i).Acting E N .none i Estream.walking where
  occupied _ he := ⟨he.1.ne_free, he.1.ne_btype⟩
  trunk _ _ := Estream.walking_of_trunk
  header h _ _ hP ho := requestHeader hE h hP ho
  payload bs _ hw hP ho := requestPayload hE bs hw hP ho
  finish _ _ hP ho := requestFrameDone hE tbl hP ho

theorem requestStreamBytes (hE : E.Sound) (tbl : PathTable) {i : Nat} (data : Bytes)
    (hw : Coherent .none w) (hk : (w.es i).requests) :
    Leads E N .none w (requestStreamBytes E tbl i data w) ∧
      Stays i w (Engine.requestStreamBytes E tbl i data w) := by
  unfold Engine.requestStreamBytes
  split
  · exact ⟨.refl w, .refl w⟩
  next hd =>
  exact frameLoop hE (requestWalk_acting hE tbl i) _ data hw (.inr ⟨hk, by simpa using hd⟩)

/-! ## The FIN of a request stream -/

theorem sessionStreamFin (hE : E.Sound) {i : Nat} (hk : (w.es i).requests) :
    Leads E N D w (sessionStreamFin E i w) := by
  have hforget := forgetSessionEs (N := N) (D := D) hE i w
  have hkf : ((Engine.forgetSessionEs i w).es i).requests := by
    unfold Engine.forgetSessionEs
    split <;> exact hk
  unfold Engine.sessionStreamFin
  dsimp only
  split
  · exact hforget.trans (connFatal hE _ _)
  split
  · exact hforget
  split
  · split
    · exact hforget.trans (requestStreamRefuseErr hE hkf _)
    · exact hforget.trans (connFatal hE _ _)
  · exact hforget.trans (sessionClosed hE _ _ _ _)

/-- The FIN ends the stream, so a CONNECT without an answer is doomed. -/
theorem requestStreamFin (hE : E.Sound) {i : Nat} (hk : (w.es i).requests) :
    Leads E N (.slot .connect i) w (requestStreamFin E i w) := by
  refine intro fun hw => ?_
  have hfail : (w.es i).kind == .connect && !w.conn.sessionEstablished && w.conn.sessState == .sent →
      Leads E N (.slot .connect i) w (Engine.sessionFailed E .badResponse w) := by
    intro h
    simp only [Bool.and_eq_true, beq_iff_eq] at h
    exact sessionFailed hE (by simp [h.2, SessState.early]) (hw.client i h.1.1)
      fun hv => judged_of_single hv h.1.1 (.inr (.inr ⟨rfl, rfl⟩))
  unfold Engine.requestStreamFin
  dsimp only
  split
  · rfl
  split
  · exact sessionStreamFin hE hk
  split
  · split
    · next h => exact (hfail h).trans (connFatal hE _ _)
    · exact connFatal hE _ _
  split
  · exact connFatal hE _ _
  split
  · next h => exact hfail h
  · rfl

end Leads

/-! ## Critical streams -/

/-- A control or QPACK stream. -/
def EsKind.critical : EsKind → Bool
  | .control | .qpack => true
  | _ => false

theorem EsKind.http_of_critical {k : EsKind} (h : k.critical) : k.http := by
  cases k <;> first | rfl | cases h

theorem EsKind.ne_free_of_critical {k : EsKind} (h : k.critical) : k ≠ .free :=
  EsKind.ne_free_of_http (EsKind.http_of_critical h)

theorem KindStep.critical {k k' : EsKind} (h : KindStep k k') (hk : k.critical) : k' = k := by
  cases h with
  | same => rfl
  | classified hc => rcases hc with rfl | rfl <;> cases hk
  | refused => cases hk

/-- A call leaves critical streams alone. -/
theorem Frame.critical (h : Frame .call w w') {i : Nat} (hk : (w.es i).kind.critical) :
    (w'.es i).kind = (w.es i).kind := by
  rw [h.http i id (EsKind.http_of_critical hk)]

theorem kind_putEs_critical {i j : Nat} {e : Estream} (hj : (w.es j).kind.critical)
    (h : (w.es i).kind.critical = false) : ((w.putEs i e).es j).kind = (w.es j).kind := by
  rw [World.es_putEs_of_ne]
  rintro rfl
  simp [h] at hj

theorem kind_claim_critical {i j : Nat} {e : Estream} (hj : (w.es j).kind.critical)
    (h : (w.es i).kind = .free) : ((w.claim i e).es j).kind = (w.es j).kind :=
  kind_putEs_critical (w := w.updConn fun c =>
    { c with streamGeneration := w.conn.streamGeneration + 1 }) hj (by
      change (w.es i).kind.critical = false
      rw [h]
      rfl)

theorem Dialed.critical {u : World σ} {i : Nat} {e : Estream} {res : DrvRes}
    (h : Dialed w i e res u) {j : Nat} (hj : (w.es j).kind.critical) :
    (u.es j).kind = (w.es j).kind := by
  simp only [World.es, h.conn]
  rw [Function.update_of_ne]
  rintro rfl
  simp [h.free, EsKind.critical] at hj

/-- No act moves a critical stream. -/
theorem Act.critical (hE : E.Lawful) (h : Act E N D w w') {j : Nat}
    (hj : (w.es j).kind.critical) : (w'.es j).kind = (w.es j).kind := by
  cases h with
  | fault | hear | op | detached | forget | record | enroll | pending | aged => rfl
  | conn f _ hpeer => rw [World.es_updConn, hpeer]; rfl
  | letGo i => simp
  | write i e hw =>
    by_cases hji : j = i
    · subst hji
      rw [World.es_putEs_self]
      exact hw.kind.critical hj
    · rw [World.es_putEs_of_ne hji]
  | spoil i e hold he => exact kind_putEs_critical hj (by rw [hold]; rfl)
  | born i e hold => exact kind_claim_critical (w := (w.newDs i).2) hj hold
  | opened i bidi e hold =>
    exact kind_claim_critical (w := ((w.op E (World.openOp bidi i)).2.newDs i).2) hj hold
  | entry r i p e hp hw hold =>
    exact kind_claim_critical hj hold
  | release i e hold hcrit hpark he =>
    have hes : (admissionLetGo i (detachEs E i w)).es = w.es := by simp
    rw [kind_putEs_critical] <;> rw [hes]
    · exact hj
    · revert hcrit
      generalize (w.es i).kind = k
      cases k <;> simp [EsKind.critical]
  | named i id hok hn hh =>
    by_cases hji : j = i
    · subst hji
      rw [World.es_putEs_self]
    · rw [World.es_putEs_of_ne hji]
  | givenUp i id go hs hk hgo hid =>
    have hke : ((giveUp i id go w).es j).kind = (w.es j).kind :=
      kind_putEs_critical (w := w.updConn fun c => { c with goaway := go }) hj
        (by change (w.es i).kind.critical = false; simp [hk, EsKind.critical])
    exact ((Frame.sessionFailed hE .connection _).critical (by rw [hke]; exact hj)).trans hke
  | goaway v hv hj' =>
    exact (Frame.sessionDraining hE (w.updConn fun c => { c with goaway := some v })).critical hj
  | drained => exact (Frame.sessionDraining hE w).critical hj
  | dialed i e hs hp hd => exact hd.critical hj
  | undialed i err e hs hp hd =>
    have hk := hd.critical hj
    exact ((Frame.connFatal hE err _).critical (by rw [hk]; exact hj)).trans hk
  | notify c hc ho => exact (Frame.notify hE c w).critical hj
  | failed r => exact (Frame.sessionFailed hE r w).critical hj
  | rejected status => exact (Frame.notify hE _ (w.setSess .rejected)).critical hj
  | established i ev hs hk hpark hja =>
    have hk : ((establish i (w.es i).id w).es j).kind = (w.es j).kind := by
      simp only [World.es, conn_establish, Function.update_apply]
      split
      · next h => rw [h]
      · rfl
    have hn := ((Frame.notify hE (.sessionEstablished ev) _).critical
      (by rw [hk]; exact hj)).trans hk
    unfold drainUnderGoaway
    split
    · exact ((Frame.sessionDraining hE _).critical (by rw [hn]; exact hj)).trans hn
    · exact hn
  | ended code reason clean hs => exact (Frame.sessionClosed hE code reason clean w).critical hj
  | died err hc => exact (Frame.connFatal hE err w).critical hj
  | lost err remote hc => exact (Frame.onConnClosed hE err remote w).critical hj

theorem Acts.critical (hE : E.Lawful) (h : Acts E N w w') {j : Nat}
    (hj : (w.es j).kind.critical) : (w'.es j).kind = (w.es j).kind := by
  induction h with
  | refl => rfl
  | tail _ hmove ih =>
    obtain ⟨_, -, ha⟩ := hmove
    exact (ha.critical hE (by rw [ih]; exact hj)).trans ih

end Wtquic.Engine
