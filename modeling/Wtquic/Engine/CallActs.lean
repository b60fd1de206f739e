-- SUMMARY: The acts of the session functions and of the application calls.
import Wtquic.Engine.Coherence

namespace Wtquic.Engine

/-! # The acts of calls -/

variable {σ : Type} {E : Ctx σ} {N : News} {D : Doomed} {w w' w'' : World σ}

theorem Estream.not_done_of_live {e : Estream} (h : e.wtLive) : e.wtDone = false := by
  simp only [Estream.wtLive, Bool.or_eq_true] at h
  rcases h with (h | h) | h <;> simp [Estream.wtDone, h]

/-- A shutdown request that is accepted finds a live half. -/
theorem normalizeShutdown_live {e : Estream} {caps : DrvCaps} {req eff : Shutdown}
    (h : normalizeShutdown e caps req = .ok eff) : e.wtLive := by
  by_contra hl
  simp only [Estream.wtLive, Bool.or_eq_true, not_or, Bool.not_eq_true] at hl
  obtain ⟨⟨hs, hf⟩, hr⟩ := hl
  simp only [normalizeShutdown, hs, hf, hr, Bool.or_self, Bool.not_false, Bool.and_true] at h
  cases hm : req.mode with
  | other => simp [hm] at h
  | wholeStream =>
    simp only [hm] at h
    split at h <;> simp at h
  | exactHalves =>
    simp only [hm] at h
    cases ha : req.abortSend <;> cases hb : req.abortRecv <;> simp [ha, hb] at h

/-- From a coherent world, acts lead on to a coherent world. -/
structure Leads (E : Ctx σ) (N : News) (D : Doomed) (w w' : World σ) : Prop where
  acts : Coherent D w → Acts E N w w'
  coherent : Coherent D w → Coherent D w'

/-- The part of a stream that the invariants read. -/
def Estream.trunk (e : Estream) : Estream :=
  { e with
    recvPaused := false
    qpackType := 0
    frameDec := {}
    frameActive := e.frameActive && e.kind == .btype
    frameType := 0
    frameRemaining := 0
    setBuf := []
    trailersDone := false
    wtApplicationSent := false
    user := none }

/-- A write outside the trunk. -/
theorem WriteOk.of_trunk {i : Nat} {e : Estream} (h : Coherent D w) (hk : (w.es i).kind ≠ .free)
    (he : e.trunk = (w.es i).trunk) : WriteOk D w i e := by
  have ho := h.slots i hk
  simp only [Estream.trunk, Estream.mk.injEq] at he
  obtain ⟨hres, hgen, -, hkind, -, hpre, hbuf, -, hfa, hfk, -, -, -, hhd, -, hdead, hss, hbidi, hloc,
    hso, hcom, hfp, -, hro, hrd, -, hds, hid, hown⟩ := he
  have hdone : e.wtDone = (w.es i).wtDone := by simp [Estream.wtDone, hkind, hso, hfp, hro, hrd]
  have hlive : e.wtLive = (w.es i).wtLive := by simp [Estream.wtLive, hso, hfp, hro]
  exact
    { occupied := hk
      kind := hkind ▸ .same _
      ok :=
        { linked := hds ▸ ho.linked
          bound := ho.bound
          shaped := by
            obtain ⟨hc, hp, hs, hr⟩ := ho.shaped
            constructor <;> simpa [hbidi, hloc, hso, hcom, hfp, hro]
          foreign := fun hw => hloc.trans (ho.foreign (hkind ▸ hw))
          owes := fun hl => by
            rw [hown, hid]
            exact ho.owes (hl.imp (hkind ▸ ·) (hloc ▸ ·))
          resident := fun hb => hres ▸ ho.resident hb
          alive := fun hw => hdone ▸ ho.alive (hkind ▸ hw)
          quiet := fun hw ha => hlive ▸ ho.quiet (hkind ▸ hw) ha
          asked := fun hc => by
            rw [hhd, hdead]
            exact ho.asked (hkind ▸ hc)
          answered := fun hc hr => hhd ▸ ho.answered (hkind ▸ hc) hr
          capsule := fun hf => hss ▸ ho.capsule (hfk ▸ hf)
          served := fun hr => ho.served (hkind ▸ hr)
          opened := fun hr hs => hhd ▸ ho.opened (hkind ▸ hr) (hss ▸ hs)
          unread := fun hu => hss ▸ ho.unread (hkind ▸ hu)
          typed := fun hb => by
            have hfa : e.frameActive = (w.es i).frameActive := by
              simpa [hb, ← hkind] using hfa
            rw [Estream.typed, hpre, hbuf, hfa]
            exact ho.typed (hkind ▸ hb) }
      ds := hds
      generation := hgen
      parked := fun hp => by
        obtain ⟨hr, hs, hh⟩ := h.parked i hp
        exact ⟨hkind.trans hr, hss.trans hs, hhd ▸ hh⟩
      id := hid
      session := hss
      opener := hloc
      bidi := fun _ => hbidi }

/-- Halves that close keep the shape. -/
theorem Estream.Shaped.less {e e' : Estream} (h : e.Shaped) (hb : e'.wtBidi = e.wtBidi)
    (hl : e'.wtLocal = e.wtLocal) (hc : e'.wtSendCommit = e.wtSendCommit)
    (hp : e'.wtFinPending → e.wtSendCommit) (hs : e'.wtSendOpen → e.wtSendOpen)
    (hr : e'.wtRecvOpen → e.wtRecvOpen) : e'.Shaped where
  commit := fun h' => by
    rw [hb, hl]
    exact h.commit (hc ▸ h')
  pending := fun h' => hc ▸ hp h'
  sending := fun hb' hl' => by
    have := h.sending (hb ▸ hb') (hl ▸ hl')
    simpa [this] using hr
  receiving := fun hb' hl' => by
    have := h.receiving (hb ▸ hb') (hl ▸ hl')
    simpa [this] using hs

/-- The stream with both halves shut. -/
def Estream.shut (e : Estream) : Estream :=
  { e with wtSendOpen := false, wtFinPending := false, wtRecvOpen := false, wtRecvDrain := false }

/-- A write to the halves of a WT stream that opens nothing. -/
theorem WriteOk.of_halves {i : Nat} {e : Estream} (h : Coherent D w) (hk : (w.es i).kind = .wt)
    (he : e.shut.trunk = (w.es i).shut.trunk) (hshape : (w.es i).Shaped → e.Shaped)
    (hlive : (w.es i).wtLive = false → e.wtLive = false)
    (halive : e.wtDone = false ∨ D .wt i) : WriteOk D w i e := by
  have ho := h.slots i (by simp [hk])
  simp only [Estream.trunk, Estream.shut, Estream.mk.injEq] at he
  obtain ⟨hres, hgen, -, hkind, -, -, -, -, -, hfk, -, -, -, -, -, -, hss, hbidi, hloc, -, -, -, -, -, -,
    -, hds, hid, hown⟩ := he
  exact
    { occupied := by simp [hk]
      kind := hkind ▸ .same _
      ok :=
        { linked := hds ▸ ho.linked
          bound := ho.bound
          shaped := hshape ho.shaped
          foreign := fun hw => absurd (hkind.trans hk) hw
          owes := fun hl => by
            rw [hown, hid]
            exact ho.owes (hl.imp (hkind ▸ ·) (hloc ▸ ·))
          resident := fun hb => hres ▸ ho.resident hb
          alive := fun _ => halive
          quiet := fun _ ha => hlive (ho.quiet hk ha)
          asked := by simp [hkind, hk]
          answered := by simp [hkind, hk]
          capsule := fun hf => hss ▸ ho.capsule (hfk ▸ hf)
          served := by simp [hkind, hk]
          opened := by simp [hkind, hk]
          unread := by simp [hkind, hk]
          typed := by simp [hkind, hk] }
      ds := hds
      generation := hgen
      parked := fun hp => by
        have := (h.parked i hp).1
        simp [hk] at this
      id := hid
      session := hss
      opener := hloc
      bidi := fun _ => hbidi }

namespace Leads

@[refl] theorem refl (w : World σ) : Leads E N D w w := ⟨fun _ => .refl, id⟩

theorem trans (h : Leads E N D w w') (h' : Leads E N D w' w'') : Leads E N D w w'' :=
  ⟨fun hw => (h.acts hw).trans (h'.acts (h.coherent hw)), h'.coherent ∘ h.coherent⟩

/-- The start may be taken as coherent. -/
theorem intro (h : Coherent D w → Leads E N D w w') : Leads E N D w w' :=
  ⟨fun hw => (h hw).acts hw, fun hw => (h hw).coherent hw⟩

/-- The end of a stream that was about to end. -/
theorem close (h : Leads E N D w w') (hd : Coherent D w' → Coherent .none w') :
    Leads E N .none w w' :=
  ⟨fun hw => h.acts (hw.doom D), fun hw => hd (h.coherent (hw.doom D))⟩

theorem act (hE : E.Sound) (h : Act E N D w w') : Leads E N D w w' :=
  ⟨fun hw => .single ⟨D, hw, h⟩, fun hw => h.coherent hE hw⟩

/-! ## Primitives -/

theorem audit (hE : E.Sound) {f : Fault} (hf : f.isMemory) (b : Bool) (w : World σ) :
    Leads E N D w (w.audit b f) := by
  cases b with
  | true => rfl
  | false => exact act hE (.fault f hf)

theorem auditSub (hE : E.Sound) (a b : Nat) (w : World σ) : Leads E N D w (w.auditSub a b) :=
  audit hE rfl _ w

theorem auditCopy (hE : E.Sound) (buf : Buffer) (fill n : Nat) (w : World σ) :
    Leads E N D w (w.auditCopy buf fill n) :=
  audit hE rfl _ w

theorem hear (hE : E.Sound) (i : Nat) (bs : Bytes) (w : World σ) : Leads E N D w (w.hear i bs) :=
  act hE (.hear i bs)

theorem op (hE : E.Sound) {o : DrvOp} (ho : o.isDetach = false) (w : World σ) :
    Leads E N D w (w.op E o).2 :=
  act hE (.op o ho)

theorem newDetachedDs (hE : E.Sound) (w : World σ) : Leads E N D w w.newDetachedDs.2 :=
  act hE .detached

/-- A connection write that coherence does not notice. -/
theorem updConn (hE : E.Sound) {f : Conn → Conn} (hcore : (f w.conn).core = w.conn.core)
    (hpeer : (f w.conn).peer = w.conn.peer)
    (hrec : (f w.conn).admissionPeers = w.conn.admissionPeers)
    (hclosed : (f w.conn).closed = w.conn.closed)
    (hans : (f w.conn).clientResponseOk = w.conn.clientResponseOk)
    (hparked : ∀ i, (f w.conn).parkedEs = some i →
      w.conn.parkedEs = some i ∨ (w.es i).parkable) :
    Leads E N D w (w.updConn f) :=
  act hE (.conn f hcore hpeer hrec hclosed (fun h => .inl (hans ▸ h)) hparked)

theorem write (hE : E.Sound) {i : Nat} {f : Estream → Estream}
    (h : Coherent D w → WriteOk D w i (f (w.es i))) : Leads E N D w (w.modEs i f) := by
  refine intro fun hw => ?_
  rw [World.modEs_of_occupied (h hw).occupied]
  exact act hE (.write i _ (h hw))

/-- A write outside the trunk of a stream. -/
theorem modEs (hE : E.Sound) {i : Nat} {f : Estream → Estream} (hk : (w.es i).kind ≠ .free)
    (hf : (f (w.es i)).trunk = (w.es i).trunk) : Leads E N D w (w.modEs i f) :=
  write hE fun hw => .of_trunk hw hk hf

theorem notify (hE : E.Sound) {c : Callback} (hc : c.casual) (ho : w.conn.closed = false) :
    Leads E N D w (E.notify c w) :=
  act hE (.notify c hc (.inl ho))

/-! ## Session -/

theorem connFatal (hE : E.Sound) (err : Nat) (w : World σ) : Leads E N D w (connFatal E err w) := by
  by_cases hc : w.conn.closed
  · simp only [Engine.connFatal, hc, if_true]
    rfl
  · exact act hE (.died err (by simpa using hc))

theorem onConnClosed (hE : E.Sound) (err : Nat) (remote : Bool) (w : World σ) :
    Leads E N D w (onConnClosed E err remote w) := by
  by_cases hc : w.conn.closed
  · simp only [Engine.onConnClosed, hc, if_true]
    rfl
  · exact act hE (.lost err remote (by simpa using hc))

theorem shutdownRaw (hE : E.Sound) (ds : Nat) (a r : Bool) (code : Nat) (w : World σ) :
    Leads E N D w (shutdownRaw E ds a r code w) := by
  unfold Engine.shutdownRaw shutdownRawWith
  dsimp only
  split
  · exact (op hE rfl w).trans (connFatal hE _ _)
  · exact op hE rfl w

theorem sessionClosed (hE : E.Sound) (code : UInt32) (reason : Bytes) (clean : Bool)
    (w : World σ) : Leads E N D w (sessionClosed E code reason clean w) := by
  by_cases ha : sessionActive w
  · exact act hE (.ended code reason clean ha)
  · rw [Engine.sessionClosed, sessionClosedWith_eq, if_pos (by simpa using ha)]

theorem sessionDraining (hE : E.Sound) (w : World σ) : Leads E N D w (sessionDraining E w) :=
  act hE .drained

theorem connLatchError (hE : E.Sound) (e : TransportError) (w : World σ) :
    Leads E N D w (connLatchError e w) := by
  unfold Engine.connLatchError
  split
  · rfl
  · exact updConn hE rfl rfl rfl rfl rfl fun _ => .inl

theorem send (hE : E.Sound) (ds : Nat) (data : Bytes) (fin : Bool) (w : World σ) :
    Leads E N D w (w.send E ds data fin).2 :=
  op hE rfl w

theorem sendBoth (hE : E.Sound) (ds : Nat) (a b : Bytes) (fin : Bool) (w : World σ) :
    Leads E N D w (w.sendBoth E ds a b fin).2 := by
  unfold World.sendBoth
  dsimp only
  split
  · exact (send hE ds a false w).trans (send hE ds b fin _)
  · exact send hE ds a false w

/-- The release of a slot whose stream is neither parked nor critical. -/
theorem estreamRelease (hE : E.Sound) {i : Nat} (hk : (w.es i).kind ≠ .free)
    (hcrit : (w.es i).kind ≠ .control ∧ (w.es i).kind ≠ .qpack)
    (hpark : w.conn.parkedEs ≠ some i) : Leads E N D w (estreamRelease E i w) := by
  have hrel : Engine.estreamRelease E i w
      = (admissionLetGo i (detachEs E i w)).putEs i (w.es i).released := by
    simp [Engine.estreamRelease, hk]
  rw [hrel]
  exact act hE (.release i _ hk hcrit hpark rfl)

/-- A write to the halves of a WT stream that releases it when both are done. -/
theorem settle (hE : E.Sound) {i : Nat} {f : Estream → Estream} (hk : (w.es i).kind = .wt)
    (hshape : (w.es i).Shaped → (f (w.es i)).Shaped)
    (hlive : (w.es i).wtLive = false → (f (w.es i)).wtLive = false)
    (hf : (f (w.es i)).shut.trunk = (w.es i).shut.trunk) :
    Leads E N D w (wtReleaseIfDone E i (w.modEs i f)) := by
  refine intro fun hw => ?_
  have hds : (f (w.es i)).ds = (w.es i).ds := by
    change (f (w.es i)).shut.trunk.ds = (w.es i).shut.trunk.ds
    rw [hf]
  rw [wtReleaseIfDone_modEs (by simp [hk]) hds]
  split
  · refine act hE (.release i _ (by simp [hk]) (by simp [hk]) (fun hp => ?_) rfl)
    have := (hw.parked i hp).1
    simp [hk] at this
  · next hd =>
    exact act hE (.write i _ (.of_halves hw hk hf hshape hlive (.inl (by simpa using hd))))

theorem isDetach_openOp (bidi : Bool) (i : Nat) : (World.openOp bidi i).isDetach = false := by
  cases bidi <;> rfl

/-- A slot that was claimed for nothing. -/
theorem spoiled (hE : E.Sound) {i : Nat} (hi : (w.es i).kind = .free) {bidi : Bool}
    (e : Estream) {e' : Estream} (he : e'.kind = .free) :
    Leads E N D w (((w.claim i e).op E (World.openOp bidi i)).2.putEs i e') := by
  have hgen : Leads E N D w (w.updConn fun c => { c with
      streamGeneration := w.conn.streamGeneration + 1 }) := act hE .aged
  have hclaim : ((w.claim i e).op E (World.openOp bidi i)).2
      = (((w.updConn fun c => { c with
          streamGeneration := w.conn.streamGeneration + 1 }).op E (World.openOp bidi i)).2).putEs i
            { e with generation := w.conn.streamGeneration + 1 } := rfl
  rw [hclaim, putEs_putEs]
  exact hgen.trans ((op hE (isDetach_openOp _ _) _).trans (act hE (.spoil i e' hi he)))

end Leads

/-! ## Sending the CONNECT -/

namespace Dialed

variable {i : Nat} {e : Estream} {res : DrvRes} {u : World σ}

theorem send (h : Dialed w i e res u) (ds : Nat) (data : Bytes) (fin : Bool) :
    Dialed w i e res (u.send E ds data fin).2 := by
  obtain ⟨sends, hs, ht⟩ := h.trace
  refine { h with trace := ⟨.op (.send ds data fin) (E.drv u.trace (.send ds data fin)) :: sends,
    ?_, ?_⟩ }
  · intro o ho
    rcases List.mem_cons.mp ho with rfl | ho
    · exact ⟨_, _, _, _, rfl⟩
    · exact hs o ho
  · simp [World.send, World.op_snd, ht]

theorem sendBoth (h : Dialed w i e res u) (ds : Nat) (a b : Bytes) (fin : Bool) :
    Dialed w i e res (u.sendBoth E ds a b fin).2 := by
  unfold World.sendBoth
  dsimp only
  split
  · exact (h.send ds a false).send ds b fin
  · exact h.send ds a false

/-- The stream `client_send_connect` puts into its slot. -/
def blank (w : World σ) : Estream :=
  { kind := .connect, resident := w.conn.budgeted, id := streamIdUnknown }

/-- The CONNECT stream right after its open. -/
theorem of_open (hi : (w.es i).kind = .free) (hb : i < w.conn.streamCapacity)
    (hg : w.conn.goaway = none) (hr : (E.drv w.trace (.openBidi i)).rc = .ok) :
    ∃ e, Dialed w i e (E.drv w.trace (.openBidi i))
      ((((((w.claim i (blank w)).op E (World.openOp true i)).2.newDs i).2.updConn
        fun c => { c with connectDs := w.nextDs }).modEs i fun e =>
          { e with
            ds := w.nextDs
            id := (E.drv w.trace (.openBidi i)).id
            nativeIdPending := (E.drv w.trace (.openBidi i)).id == streamIdUnknown })) := by
  have hmod : ∀ (v : World σ) (f : Estream → Estream), (v.es i).kind = .connect →
      v.modEs i f = v.putEs i (f (v.es i)) := fun v f hv =>
    World.modEs_of_occupied (by simp [hv]) f
  rw [hmod _ _ (by simp [World.es, World.newDs, World.op_snd, World.claim, blank])]
  refine ⟨_, ⟨hi, hb, hg, hr, rfl, ?_, ⟨[], ?_, rfl⟩, rfl, rfl, rfl⟩⟩
  · simp [World.newDs, World.op_snd, World.claim, World.es, blank]
  · simp

end Dialed

namespace Leads

/-- The slot of the CONNECT exists. -/
theorem connectSlots_le (hw : Coherent D w) (hp : w.conn.persp = .client) :
    (connectSlots w.conn).2 ≤ w.conn.streamCapacity := by
  have hcap := hw.capacity
  rw [if_pos hp] at hcap
  unfold connectSlots
  dsimp only
  split
  · split
    · exact hcap
    · next hb =>
      rw [(hw.legacy (by simpa using hb)).2]
      decide
  · exact Nat.le_refl _

theorem clientSendConnect (hE : E.Sound) (hs : w.conn.sessState = .pending)
    (hp : w.conn.persp = .client) : Leads E N D w (clientSendConnect E w) := by
  have hearly : w.conn.sessState.early := by simp [hs, SessState.early]
  refine intro fun hw => ?_
  unfold Engine.clientSendConnect
  split
  · refine act hE (.failed _ hearly hp fun i hk => ?_)
    exact absurd hk ((hw.undialed (.inr hs)).2 i)
  next hgo =>
  split
  · exact connFatal hE _ _
  next i hf =>
  obtain ⟨-, hlt, hi, -⟩ := World.findFree_some hf
  have hbound : i < w.conn.streamCapacity := Nat.lt_of_lt_of_le hlt (connectSlots_le hw hp)
  dsimp only
  generalize hx : World.openFor E true i _ = x
  obtain ⟨r, ds, u⟩ := x
  have hrdrv : r = E.drv w.trace (.openBidi i) := by
    have := World.openFor_fst E true i (w.claim i (Dialed.blank w))
    rw [Dialed.blank, hx] at this
    exact this
  rcases World.openFor_inv hx with ⟨hr, hu⟩ | ⟨hr, hds, hu⟩
  · have hrel : Engine.estreamRelease E i u
        = (admissionLetGo i u).putEs i (u.es i).released := by
      have hes : u.es i = { Dialed.blank w with
          generation := w.conn.streamGeneration + 1 } := by
        rw [hu]
        simp [World.op_snd, World.claim, Dialed.blank]
      simp [Engine.estreamRelease, detachEs, hes, Dialed.blank]
    rw [if_pos hr, hrel, hu, putEs_letGo]
    exact ((spoiled hE hi _ (by rfl)).trans (act hE (.letGo i))).trans (connFatal hE _ _)
  · obtain ⟨e, hd⟩ : ∃ e, Dialed w i e (E.drv w.trace (.openBidi i))
        ((u.updConn fun c => { c with connectDs := ds }).modEs i fun e =>
          { e with ds, id := r.id, nativeIdPending := r.id == streamIdUnknown }) := by
      subst hds hu hrdrv
      exact Dialed.of_open hi hbound (by simpa using hgo) hr
    rw [if_neg (by simp [hr])]
    dsimp only
    generalize World.modEs i _ (u.updConn fun c => { c with connectDs := ds }) = v at hd ⊢
    have hsent := hd.sendBoth (E := E) ds
      (frameHeader H3Frame.typeHeaders v.conn.connectSection.length) v.conn.connectSection false
    split
    · exact act hE (.dialed i e hs hp hsent)
    · exact act hE (.undialed i _ e hs hp hsent)

theorem clientConnect (hE : E.Sound) (cfg : ClientConnectCfg) (w : World σ) :
    Leads E N D w (clientConnect E cfg w).2 := by
  unfold Engine.clientConnect
  split
  · rfl
  split
  · rfl
  next hp =>
  have hp : w.conn.persp = .client := by simpa using hp
  split
  · rfl
  next hidle =>
  simp only [Bool.or_eq_true, not_or, bne_iff_ne, ne_eq, not_not, Bool.not_eq_true] at hidle
  obtain ⟨⟨-, hs⟩, -⟩ := hidle
  split
  · rfl
  split
  · rfl
  · next sec hsec =>
    have hlatch : Leads E N D w ((w.updConn fun c => { c with
        wtProfile := cfg.profile, wtProfiles := ProfileSet.bit cfg.profile,
        offered := cfg.protocols, requireProtocol := cfg.requireProtocol,
        connectSection := sec, clientResponseOk := false,
        clientSelectedOffer := none }).setSess .pending) :=
      (act hE (.conn _ rfl rfl rfl rfl (fun h => by cases h) fun _ => Or.inl)).trans
        (act hE (.pending hs hp))
    dsimp only
    split
    · exact hlatch
    split
    · refine hlatch.trans (intro fun hw => act hE (.failed _ rfl hp fun i hk => ?_))
      exact absurd hk ((hw.undialed (.inr rfl)).2 i)
    · exact hlatch.trans (clientSendConnect hE rfl hp)

/-! ## Session close and drain -/

theorem sessionSendCapsule (hE : E.Sound) (es : Nat) (cap : Bytes) (fin : Bool) (w : World σ) :
    Leads E N D w (sessionSendCapsule E es cap fin w).2 := by
  unfold Engine.sessionSendCapsule
  split
  · rfl
  split
  · rfl
  dsimp only
  split
  · exact send hE _ _ _ w
  · exact (send hE _ _ _ w).trans (connFatal hE _ _)

theorem sessionClose (hE : E.Sound) (code : UInt32) (reason : Bytes) (w : World σ) :
    Leads E N D w (sessionClose E code reason w).2 := by
  unfold Engine.sessionClose
  split
  · rfl
  split
  · rfl
  split
  · rfl
  split
  · rfl
  split
  · rfl
  dsimp only
  split
  · exact sessionSendCapsule hE _ _ _ w
  · exact (sessionSendCapsule hE _ _ _ w).trans (sessionClosed hE _ _ _ _)

theorem sessionDrain (hE : E.Sound) (w : World σ) : Leads E N D w (sessionDrain E w).2 := by
  unfold Engine.sessionDrain
  repeat' split
  all_goals first | exact sessionSendCapsule hE _ _ _ w | rfl

/-! ## WT streams -/

theorem wtEnableSendCommit (hE : E.Sound) (i : Nat) (w : World σ) :
    Leads E N D w (wtEnableSendCommit i w).2 := by
  unfold Engine.wtEnableSendCommit
  dsimp only
  split
  · rfl
  next h =>
  split
  · rfl
  · simp only [Bool.or_eq_true, not_or, bne_iff_ne, ne_eq, not_not, Bool.not_eq_true',
      Bool.not_eq_true, Bool.not_eq_false] at h
    obtain ⟨⟨⟨⟨⟨-, hk⟩, hloc⟩, hbidi⟩, -⟩, -⟩ := h
    -- only a local uni stream enters the mode
    dsimp only
    refine write hE fun hw => ?_
    have hsame := WriteOk.of_trunk hw (e := w.es i) (by simp [hk]) rfl
    have ho := hsame.ok
    exact
      { hsame with
        ok :=
          { ho with
            shaped := ⟨fun _ => ⟨hbidi, hloc⟩, fun _ => rfl, ho.shaped.sending,
              ho.shaped.receiving⟩ } }

theorem wtSend (hE : E.Sound) (i : Nat) (spans : List Bytes) (fin : Bool) (cookie : Nat)
    (w : World σ) : Leads E N D w (wtSend E i spans fin cookie w).2 := by
  unfold Engine.wtSend
  dsimp only
  split
  · rfl
  split
  · rfl
  next hopen =>
  split
  · rfl
  split
  · rfl
  simp only [ne_eq, not_or, not_not, Bool.not_eq_true', Bool.not_eq_false] at hopen
  have hop : Leads E N D w (w.op E (.sendGather (w.es i).ds spans fin cookie)).2 := op hE rfl w
  have hes : (w.op E (.sendGather (w.es i).ds spans fin cookie)).2.es i = w.es i := rfl
  generalize (w.op E (.sendGather (w.es i).ds spans fin cookie)) = x at hop hes ⊢
  obtain ⟨r, v⟩ := x
  dsimp only at hop hes ⊢
  split
  · have hsent : Leads E N D v (v.modEs i fun e => { e with wtApplicationSent := true }) :=
      modEs hE (by simp [hes, hopen.1]) rfl
    refine hop.trans ?_
    split
    · refine hsent.trans (settle hE ?_ (fun h => ?_) ?_ (by rfl))
      · simp [hes, hopen.1]
      · exact h.less rfl rfl rfl id nofun id
      · simp [Estream.wtLive, hes, hopen.2]
    · exact hsent
  · exact hop

theorem wtShutdownWith (hE : E.Sound) (i : Nat) (req : Shutdown) (app : Bool) (w : World σ) :
    Leads E N D w (wtShutdownWith E i req app w).2 := by
  unfold Engine.wtShutdownWith
  dsimp only
  split
  · rfl
  split
  · rfl
  next hk =>
  have hk : (w.es i).kind = .wt := by simpa using hk
  split
  · rfl
  next eff heff =>
  have hlive := normalizeShutdown_live heff
  have hop : ∀ q, Leads E N D w (w.op E (.shutdownStream (w.es i).ds q)).2 := fun _ => op hE rfl w
  split
  · exact hop _
  split
  · exact (hop _).trans (connFatal hE _ _)
  split
  · exact hop _
  · refine (hop _).trans (settle hE hk (fun h => ?_) (fun h => ?_) (by rfl))
    · refine h.less rfl rfl rfl (fun hp => h.pending ?_) (fun hs => ?_) fun hr => ?_
      · exact (Bool.and_eq_true_iff.mp hp).1
      · exact (Bool.and_eq_true_iff.mp hs).1
      · exact (Bool.and_eq_true_iff.mp hr).1
    have h : (w.es i).wtLive = false := h
    simp [hlive] at h

theorem wtShutdownCode (hE : E.Sound) (i : Nat) (code : UInt32) (req : Nat → Shutdown)
    (w : World σ) : Leads E N D w (wtShutdownCode E i code req w).2 := by
  unfold Engine.wtShutdownCode
  split
  · rfl
  · exact wtShutdownWith hE _ _ _ _

theorem wtReject (hE : E.Sound) (i : Nat) (w : World σ) : Leads E N D w (wtReject E i w) := by
  unfold Engine.wtReject
  split
  · rfl
  · next h =>
    simp only [Bool.or_eq_true, not_or, bne_iff_ne, ne_eq, not_not] at h
    refine Leads.trans ?_ (wtShutdownWith hE _ _ _ _)
    exact modEs hE (by simp [h.2]) rfl

theorem wtRecvEnable (hE : E.Sound) (i : Nat) (enabled : Bool) (w : World σ) :
    Leads E N D w (wtRecvEnable E i enabled w).2 := by
  unfold Engine.wtRecvEnable
  dsimp only
  split
  · rfl
  split
  · rfl
  next h =>
  simp only [ne_eq, not_or, not_not] at h
  split
  · rfl
  have hpause : Leads E N D w (w.modEs i fun e => { e with recvPaused := !enabled }) :=
    modEs hE (by simp [h.1]) rfl
  have hop : Leads E N D w ((w.modEs i fun e => { e with recvPaused := !enabled }).op E
      (.recvEnable (w.es i).ds enabled)).2 := hpause.trans (op hE rfl _)
  split
  · dsimp only
    refine hop.trans (modEs hE ?_ (by rfl))
    simp [World.op_snd, h.1]
  · exact hop

theorem setUser (hE : E.Sound) {i : Nat} (hk : (w.es i).kind = .wt) (user : Option Nat) :
    Leads E N D w (setUser i user w) :=
  modEs hE (by simp [hk]) rfl

theorem dgramSend (hE : E.Sound) (spans : List Bytes) (w : World σ) :
    Leads E N D w (dgramSend E spans w).2 := by
  have hop : ∀ (o : DrvOp) (v : World σ), o.isDetach = false → Leads E N D v (v.op E o).2 :=
    fun _ v ho => op hE ho v
  unfold Engine.dgramSend
  dsimp only
  repeat' split
  all_goals first | rfl | exact hop _ w rfl | exact (hop _ w rfl).trans (hop _ _ rfl)

theorem dgramMaxSize (hE : E.Sound) (w : World σ) : Leads E N D w (dgramMaxSize E w).2 := by
  unfold Engine.dgramMaxSize
  split
  · rfl
  · exact op hE rfl w

/-- The stream `wt_open` puts into its slot. -/
def opening (c : Conn) : Estream where
  id := streamIdUnknown
  resident := c.budgeted
  kind := if c.admissionEnabled then .reserved else .free

theorem wtOpenSlots_le (hw : Coherent D w) : (wtOpenSlots w.conn).2 ≤ w.conn.streamCapacity := by
  unfold wtOpenSlots
  split
  · exact hw.capacity_le
  split <;> exact Nat.le_refl _

/-- The birth of a local WT stream. -/
theorem wtBorn (hE : E.Sound) {bidi : Bool} {i : Nat} (ha : w.conn.sessState.active)
    (hi : (w.es i).kind = .free) (hb : i < (wtOpenSlots w.conn).2)
    (hr : (E.drv w.trace (World.openOp bidi i)).rc = .ok) :
    Leads E N D w
      ((((w.claim i (opening w.conn)).op E (World.openOp bidi i)).2.newDs i).2.putEs i
        (((((w.claim i (opening w.conn)).op E (World.openOp bidi i)).2.newDs i).2.es i).opened
          bidi w.nextDs (E.drv w.trace (World.openOp bidi i)).id)) := by
  have hborn : (((w.claim i (opening w.conn)).op E (World.openOp bidi i)).2.newDs i).2.putEs i
      (((((w.claim i (opening w.conn)).op E (World.openOp bidi i)).2.newDs i).2.es i).opened
        bidi w.nextDs (E.drv w.trace (World.openOp bidi i)).id)
      = (((w.op E (World.openOp bidi i)).2.newDs i).2.claim i
          ((opening w.conn).opened bidi w.nextDs (E.drv w.trace (World.openOp bidi i)).id)) := by
    simp [World.claim, World.putEs, World.updConn, World.op_snd, World.newDs, World.log, World.es,
      Estream.opened]
  rw [hborn]
  refine intro fun hw => act hE (.opened i bidi _ hi rfl rfl ?_ hr rfl rfl rfl)
  exact
    { linked := hw.named
      bound := Nat.lt_of_lt_of_le hb (wtOpenSlots_le hw)
      shaped := ⟨by rintro ⟨⟩, by rintro ⟨⟩, fun h _ => h, by rintro - ⟨⟩⟩
      foreign := fun h => absurd rfl h
      owes := fun _ => rfl
      resident := fun h => h
      alive := fun _ => .inl (by simp [Estream.opened, Estream.wtDone])
      quiet := fun _ h => by simp [ha] at h
      asked := by simp [Estream.opened]
      answered := by simp [Estream.opened]
      capsule := by simp [Estream.opened, opening]
      served := by simp [Estream.opened]
      opened := by simp [Estream.opened]
      unread := by simp [Estream.opened]
      typed := by simp [Estream.opened] }

theorem wtOpen (hE : E.Sound) (bidi : Bool) (w : World σ) :
    Leads E N D w (wtOpen E bidi w).2.2 := by
  unfold Engine.wtOpen
  split
  · rfl
  next hopen =>
  split
  · rfl
  next hact =>
  split
  · rfl
  split
  · rfl
  next i hf =>
  have ha : w.conn.sessState.active := by simpa [sessionActive] using hact
  obtain ⟨-, hlt, hi, -⟩ := World.findFree_some hf
  dsimp only
  generalize hx : World.openFor E bidi i _ = x
  obtain ⟨r, ds, u⟩ := x
  have hrdrv : r = E.drv w.trace (World.openOp bidi i) := by
    have := World.openFor_fst E bidi i (w.claim i (opening w.conn))
    rw [opening, hx] at this
    exact this
  rcases World.openFor_inv hx with ⟨hr, hu⟩ | ⟨hr, hds, hu⟩
  · rw [if_pos hr, hu]
    exact spoiled hE hi _ rfl
  · have hopen : w.conn.closed = false := by simpa using hopen
    have hconn : u.conn.closed = false ∧ sessionActive u := by
      rw [hu]
      exact ⟨hopen, ha⟩
    have hborn : Leads E N D w (u.putEs i ((u.es i).opened bidi ds r.id)) := by
      subst hds hu hrdrv
      exact wtBorn hE ha hi hlt hr
    have hrel : ∀ v : World σ, v.es i = (u.es i).opened bidi ds r.id →
        Leads E N D v (Engine.estreamRelease E i v) := by
      intro v hv
      refine intro fun hw => estreamRelease hE ?_ ?_ fun hp => ?_
      · simp [hv, Estream.opened]
      · simp [hv, Estream.opened]
      · have := (hw.parked i hp).1
        simp [hv, Estream.opened] at this
    rw [if_neg (by simp [hr]), if_neg (by simp [hconn])]
    unfold wtOpened
    have hes := World.es_putEs_self i ((u.es i).opened bidi ds r.id) u
    generalize u.putEs i ((u.es i).opened bidi ds r.id) = v at hborn hes ⊢
    dsimp only
    split
    · exact hborn.trans ((hrel v hes).trans (connFatal hE _ _))
    split
    · exact hborn.trans (send hE _ _ _ _)
    · refine (hborn.trans (send hE _ _ _ _)).trans (Leads.trans (hrel _ ?_) (connFatal hE _ _))
      simpa [World.send, World.op_snd] using hes

/-! ## Calls -/

theorem apply (hE : E.Sound) (a : AppCall) (hh : handleOk w a.slot) :
    Leads E N D w (a.apply E w) := by
  cases a with
  | clientConnect cfg => exact clientConnect hE cfg w
  | sessionClose code reason => exact sessionClose hE code reason w
  | sessionDrain => exact sessionDrain hE w
  | wtOpen bidi => exact wtOpen hE bidi w
  | wtEnableSendCommit i => exact wtEnableSendCommit hE i w
  | wtSend i spans fin cookie => exact wtSend hE i spans fin cookie w
  | wtShutdown i req => exact wtShutdownWith hE i req true w
  | wtReset i code => exact wtShutdownCode hE i code _ w
  | wtStop i code => exact wtShutdownCode hE i code _ w
  | wtAbort i code => exact wtShutdownCode hE i code _ w
  | wtReject i => exact wtReject hE i w
  | wtRecvEnable i enabled => exact wtRecvEnable hE i enabled w
  | setUser i user =>
    simp only [AppCall.slot, handleOk, Bool.and_eq_true, beq_iff_eq] at hh
    exact setUser hE hh.2 user
  | dgramSend spans => exact dgramSend hE spans w
  | dgramMaxSize => exact dgramMaxSize hE w
  | sealTransportError => exact connLatchError hE _ w

theorem call (hE : E.Sound) (a : AppCall) (w : World σ) : Leads E N D w (a.run E w) := by
  unfold AppCall.run
  split
  · next h => exact apply hE a h
  · rfl

end Leads

end Wtquic.Engine
