-- SUMMARY: What calls and callbacks leave to the inputs: hails, a server's profile, admission prefixes.
import Wtquic.Engine.CallFrame

namespace Wtquic.Engine

/-! # Discretion

A call, also one from inside a callback, never reports a session as established, never touches
the profile of a server, and never writes the prefix of an admission record. -/

variable {σ : Type} {E : Ctx σ} {w w' w'' : World σ}

/-- A report that the session is established. -/
def Out.isHail : Out → Bool
  | .cb (.sessionEstablished _) => true
  | _ => false

/-- The hails in a trace. -/
def hails (t : List Out) : List Out := t.filter Out.isHail

theorem hails_cons {o : Out} (h : o.isHail = false) (t : List Out) : hails (o :: t) = hails t := by
  simp [hails, h]

/-- The fields that a discreet step keeps. -/
structure Reserve where
  persp : Perspective
  profile : Profile
  profiles : ProfileSet
  records : Nat → Option Admission

def Conn.reserve (c : Conn) : Reserve := ⟨c.persp, c.wtProfile, c.wtProfiles, c.admissionPeers⟩

/-- What is left of a record: its prefix, and whether it still reads. -/
structure Admission.Kept (p q : Admission) : Prop where
  pfx : q.pfx = p.pfx
  decoder : q.decoder = p.decoder
  reading : q.state = .reading → p.state = .reading

structure Discreet (w w' : World σ) : Prop where
  hails : hails w'.trace = hails w.trace
  persp : w'.conn.persp = w.conn.persp
  profile : w.conn.persp = .server →
    w'.conn.wtProfile = w.conn.wtProfile ∧ w'.conn.wtProfiles = w.conn.wtProfiles
  records : ∀ r q, w'.conn.admissionPeers r = some q →
    ∃ p, w.conn.admissionPeers r = some p ∧ p.Kept q

namespace Discreet

theorem of_eq (ht : w'.trace = w.trace) (hc : w'.conn.reserve = w.conn.reserve) :
    Discreet w w' := by
  simp only [Conn.reserve, Reserve.mk.injEq] at hc
  obtain ⟨hp, hone, hset, hrec⟩ := hc
  refine ⟨by rw [ht], hp, fun _ => ⟨hone, hset⟩, fun r q hq => ⟨q, hrec ▸ hq, rfl, rfl, id⟩⟩

@[refl] theorem refl (w : World σ) : Discreet w w := of_eq rfl rfl

theorem trans (h : Discreet w w') (h' : Discreet w' w'') : Discreet w w'' where
  hails := h'.hails.trans h.hails
  persp := h'.persp.trans h.persp
  profile hs := by
    obtain ⟨hone, hset⟩ := h.profile hs
    obtain ⟨hone', hset'⟩ := h'.profile (h.persp.trans hs)
    exact ⟨hone'.trans hone, hset'.trans hset⟩
  records r q hq := by
    obtain ⟨p, hp, hkept⟩ := h'.records r q hq
    obtain ⟨p', hp', hkept'⟩ := h.records r p hp
    exact ⟨p', hp', hkept.pfx.trans hkept'.pfx, hkept.decoder.trans hkept'.decoder,
      hkept'.reading ∘ hkept.reading⟩

/-! ## Primitives -/

theorem log {o : Out} (ho : o.isHail = false) (w : World σ) : Discreet w (w.log o) :=
  { refl w with hails := hails_cons ho _ }

theorem op (o : DrvOp) (w : World σ) : Discreet w (w.op E o).2 := log rfl w

theorem updConn {f : Conn → Conn} (hc : (f w.conn).reserve = w.conn.reserve) :
    Discreet w (w.updConn f) :=
  of_eq rfl hc

theorem setSess (s : SessState) (w : World σ) : Discreet w (w.setSess s) :=
  (updConn (f := fun c => { c with sessState := s }) rfl).trans (log rfl _)

theorem putEs (i : Nat) (e : Estream) (w : World σ) : Discreet w (w.putEs i e) := of_eq rfl rfl

theorem modEs (i : Nat) (f : Estream → Estream) (w : World σ) : Discreet w (w.modEs i f) :=
  of_eq (by simp) (by simp [Conn.reserve])

theorem claim (i : Nat) (e : Estream) (w : World σ) : Discreet w (w.claim i e) := of_eq rfl rfl

theorem audit (b : Bool) (f : Fault) (w : World σ) : Discreet w (w.audit b f) :=
  of_eq (by simp) (by simp)

theorem newDs (i : Nat) (w : World σ) : Discreet w (w.newDs i).2 :=
  ⟨hails_cons rfl _, rfl, fun _ => ⟨rfl, rfl⟩, fun _ q hq => ⟨q, hq, rfl, rfl, id⟩⟩

theorem openFor (bidi : Bool) (i : Nat) (w : World σ) : Discreet w (w.openFor E bidi i).2.2 := by
  unfold World.openFor
  generalize (if bidi then DrvOp.openBidi i else .openUni (some i)) = o
  dsimp only
  split
  · exact (op o w).trans (newDs i _)
  · exact op o w

theorem send (ds : Nat) (data : Bytes) (fin : Bool) (w : World σ) :
    Discreet w (w.send E ds data fin).2 :=
  op _ w

theorem sendBoth (ds : Nat) (a b : Bytes) (fin : Bool) (w : World σ) :
    Discreet w (w.sendBoth E ds a b fin).2 := by
  unfold World.sendBoth
  dsimp only
  split
  · exact (send ds a false w).trans (send ds b fin _)
  · exact send ds a false w

/-! ## Sessions -/

theorem admissionLetGo (i : Nat) (w : World σ) : Discreet w (admissionLetGo i w) := by
  unfold Engine.admissionLetGo
  split
  · refine ⟨rfl, rfl, fun _ => ⟨rfl, rfl⟩, fun r q hq => ?_⟩
    simp only [World.conn_updConn] at hq
    split at hq
    · obtain ⟨p, hp, hlet⟩ := Option.map_eq_some_iff.mp hq
      refine ⟨p, hp, ?_⟩
      subst hlet
      unfold Admission.letGo
      split
      · exact ⟨rfl, rfl, fun h => by cases h⟩
      · exact ⟨rfl, rfl, id⟩
    · exact ⟨q, hq, rfl, rfl, id⟩
  · rfl

theorem detachEs (i : Nat) (w : World σ) : Discreet w (detachEs E i w) := by
  unfold Engine.detachEs
  split
  · exact op _ w
  · rfl

theorem estreamRelease (i : Nat) (w : World σ) : Discreet w (estreamRelease E i w) := by
  unfold Engine.estreamRelease
  exact (audit _ _ w).trans ((detachEs i _).trans ((admissionLetGo i _).trans (putEs _ _ _)))

theorem wtReleaseIfDone (i : Nat) (w : World σ) : Discreet w (wtReleaseIfDone E i w) := by
  unfold Engine.wtReleaseIfDone
  split
  · exact estreamRelease i w
  · rfl

end Discreet

/-- A context whose callbacks, but for a hail itself, are discreet. -/
def Ctx.Discreet (E : Ctx σ) : Prop := ∀ c w, Engine.Discreet (w.log (.cb c)) (E.notify c w)

namespace Discreet

theorem notify (hE : E.Discreet) {c : Callback} (hc : (Out.cb c).isHail = false) (w : World σ) :
    Discreet w (E.notify c w) :=
  (log hc w).trans (hE c w)

theorem connLatchError (e : TransportError) (w : World σ) : Discreet w (connLatchError e w) := by
  unfold Engine.connLatchError
  split
  · rfl
  · exact updConn rfl

theorem sessionFailed (hE : E.Discreet) (r : FailReason) (w : World σ) :
    Discreet w (sessionFailed E r w) :=
  (setSess _ w).trans (notify hE rfl _)

theorem sessionDraining (hE : E.Discreet) (w : World σ) : Discreet w (sessionDraining E w) := by
  unfold Engine.sessionDraining
  split
  · rfl
  · have hmark : Discreet w (w.updConn fun c => { c with drainRx := true }) := updConn rfl
    refine Discreet.trans ?_ (notify hE rfl _)
    split
    · exact hmark.trans (setSess _ _)
    · exact hmark

/-- The teardown, when what it calls on a failure is discreet. -/
theorem teardownSlot {fatal : Nat → World σ → World σ} (hf : ∀ err w, Discreet w (fatal err w))
    (w : World σ) (i : Nat) : Discreet w (teardownSlot E fatal w i) := by
  have hraw : ∀ ds a r code w, Discreet w (shutdownRawWith E fatal ds a r code w) := by
    intro ds a r code w
    unfold shutdownRawWith
    dsimp only
    split
    · exact (op _ w).trans (hf _ _)
    · exact op _ w
  unfold Engine.teardownSlot
  dsimp only
  split
  · rfl
  refine Discreet.trans ?_ ((modEs i _ _).trans (wtReleaseIfDone i _))
  split
  · exact hraw _ _ _ _ w
  · rfl

theorem sessionClosedWith (hE : E.Discreet) {fatal : Nat → World σ → World σ}
    (hf : ∀ err w, Discreet w (fatal err w)) (code : UInt32) (reason : Bytes) (clean : Bool)
    (w : World σ) : Discreet w (sessionClosedWith E fatal code reason clean w) := by
  have hloop : ∀ (is : List Nat) (w : World σ), Discreet w (is.foldl (Engine.teardownSlot E fatal) w) := by
    intro is
    induction is with
    | nil => exact fun w => refl w
    | cons i is ih => exact fun w => (teardownSlot hf w i).trans (ih _)
  unfold Engine.sessionClosedWith
  split
  · rfl
  · exact (setSess _ w).trans ((hloop _ _).trans (notify hE rfl _))

theorem sessionConnLost (hE : E.Discreet) (w : World σ) : Discreet w (sessionConnLost E w) := by
  have hskip : ∀ (err : Nat) (w : World σ), Discreet w w := fun _ w => refl w
  unfold Engine.sessionConnLost
  split
  all_goals first
    | exact sessionClosedWith hE hskip _ _ _ w
    | exact sessionFailed hE _ w
    | rfl

theorem die (e : TransportError) (err : Nat) (w : World σ) :
    Discreet w ((Engine.connLatchError e w).updConn fun c =>
      { c with closed := true, closeCode := err }) :=
  (connLatchError e w).trans (updConn rfl)

theorem connFatal (hE : E.Discreet) (err : Nat) (w : World σ) : Discreet w (connFatal E err w) := by
  unfold Engine.connFatal
  split
  · rfl
  · exact (die _ err w).trans ((op _ _).trans ((sessionConnLost hE _).trans (notify hE rfl _)))

theorem shutdownRaw (hE : E.Discreet) (ds : Nat) (a r : Bool) (code : Nat) (w : World σ) :
    Discreet w (shutdownRaw E ds a r code w) := by
  unfold Engine.shutdownRaw shutdownRawWith
  dsimp only
  split
  · exact (op _ w).trans (connFatal hE _ _)
  · exact op _ w

theorem sessionClosed (hE : E.Discreet) (code : UInt32) (reason : Bytes) (clean : Bool)
    (w : World σ) : Discreet w (sessionClosed E code reason clean w) :=
  sessionClosedWith hE (connFatal hE) code reason clean w

theorem onConnClosed (hE : E.Discreet) (err : Nat) (remote : Bool) (w : World σ) :
    Discreet w (onConnClosed E err remote w) := by
  unfold Engine.onConnClosed
  split
  · rfl
  · exact (die _ err w).trans ((sessionConnLost hE _).trans (notify hE rfl _))

/-! ## Calls -/

theorem clientSendConnect (hE : E.Discreet) (w : World σ) :
    Discreet w (clientSendConnect E w) := by
  unfold Engine.clientSendConnect
  split
  · exact sessionFailed hE _ w
  split
  · exact connFatal hE _ w
  next i _ =>
  have hclaim := claim i { kind := .connect, resident := w.conn.budgeted, id := streamIdUnknown } w
  dsimp only
  generalize w.claim i _ = v at hclaim ⊢
  have hopen := openFor (E := E) true i v
  generalize v.openFor E true i = x at hopen ⊢
  obtain ⟨r, ds, u⟩ := x
  dsimp only at hopen ⊢
  refine hclaim.trans (hopen.trans ?_)
  split
  · exact (estreamRelease i u).trans (connFatal hE _ _)
  · have hlinked : Discreet u (u.updConn fun c => { c with connectDs := ds }) := updConn rfl
    have hnamed := hlinked.trans (modEs i (fun e =>
      { e with ds, id := r.id, nativeIdPending := r.id == streamIdUnknown }) _)
    split
    · exact hnamed.trans ((sendBoth _ _ _ _ _).trans (setSess _ _))
    · exact hnamed.trans ((sendBoth _ _ _ _ _).trans (connFatal hE _ _))

/-- Only a client connects. -/
theorem clientConnect (hE : E.Discreet) (cfg : ClientConnectCfg) (w : World σ) :
    Discreet w (clientConnect E cfg w).2 := by
  unfold Engine.clientConnect
  split
  · rfl
  split
  · rfl
  next hp =>
  have hclient : w.conn.persp = .client := not_not.mp hp
  split
  · rfl
  split
  · rfl
  split
  · rfl
  next sec _ =>
  have hplaced : Discreet w (w.updConn fun c => { c with
      wtProfile := cfg.profile, wtProfiles := ProfileSet.bit cfg.profile,
      offered := cfg.protocols, requireProtocol := cfg.requireProtocol,
      connectSection := sec, clientResponseOk := false, clientSelectedOffer := none }) :=
    ⟨rfl, rfl, fun hs => by simp [hclient] at hs, fun r q hq => ⟨q, hq, rfl, rfl, id⟩⟩
  have hpending := hplaced.trans (setSess .pending _)
  dsimp only
  split
  · exact hpending
  split
  · exact hpending.trans (sessionFailed hE _ _)
  · exact hpending.trans (clientSendConnect hE _)

theorem sessionSendCapsule (hE : E.Discreet) (es : Nat) (cap : Bytes) (fin : Bool) (w : World σ) :
    Discreet w (sessionSendCapsule E es cap fin w).2 := by
  unfold Engine.sessionSendCapsule
  split
  · rfl
  split
  · rfl
  dsimp only
  split
  · exact send _ _ _ w
  · exact (send _ _ _ w).trans (connFatal hE _ _)

theorem sessionClose (hE : E.Discreet) (code : UInt32) (reason : Bytes) (w : World σ) :
    Discreet w (sessionClose E code reason w).2 := by
  unfold Engine.sessionClose
  split
  · rfl
  split
  · rfl
  split
  · rfl
  split
  · rfl
  split
  · rfl
  dsimp only
  split
  · exact sessionSendCapsule hE _ _ _ w
  · exact (sessionSendCapsule hE _ _ _ w).trans (sessionClosed hE _ _ _ _)

theorem sessionDrain (hE : E.Discreet) (w : World σ) : Discreet w (sessionDrain E w).2 := by
  unfold Engine.sessionDrain
  repeat' split
  all_goals first | exact sessionSendCapsule hE _ _ _ w | rfl

theorem wtOpened (hE : E.Discreet) (bidi : Bool) (i ds id : Nat) (w : World σ) :
    Discreet w (wtOpened E bidi i ds id w).2.2 := by
  unfold Engine.wtOpened
  dsimp only
  split
  · exact (putEs _ _ w).trans ((estreamRelease _ _).trans (connFatal hE _ _))
  split
  · exact (putEs _ _ w).trans (send _ _ _ _)
  · exact (putEs _ _ w).trans ((send _ _ _ _).trans ((estreamRelease _ _).trans (connFatal hE _ _)))

theorem wtOpen (hE : E.Discreet) (bidi : Bool) (w : World σ) : Discreet w (wtOpen E bidi w).2.2 := by
  unfold Engine.wtOpen
  split
  · rfl
  split
  · rfl
  split
  · rfl
  split
  · rfl
  next i _ =>
  have hclaim := claim i { id := streamIdUnknown, resident := w.conn.budgeted
                           kind := if w.conn.admissionEnabled then .reserved else .free } w
  dsimp only
  generalize w.claim i _ = v at hclaim ⊢
  have hopen := openFor (E := E) bidi i v
  generalize v.openFor E bidi i = x at hopen ⊢
  obtain ⟨r, ds, u⟩ := x
  dsimp only at hopen ⊢
  refine hclaim.trans (hopen.trans ?_)
  split
  · exact putEs _ _ _
  split
  · exact (modEs _ _ _).trans (estreamRelease _ _)
  · exact wtOpened hE bidi _ _ _ _

theorem wtEnableSendCommit (i : Nat) (w : World σ) : Discreet w (wtEnableSendCommit i w).2 := by
  unfold Engine.wtEnableSendCommit
  dsimp only
  split
  · rfl
  split
  · rfl
  · exact modEs i (fun e => { e with wtSendCommit := true }) w

theorem wtSend (i : Nat) (spans : List Bytes) (fin : Bool) (cookie : Nat) (w : World σ) :
    Discreet w (wtSend E i spans fin cookie w).2 := by
  unfold Engine.wtSend
  dsimp only
  split
  · rfl
  split
  · rfl
  split
  · rfl
  split
  · rfl
  have hsent := (op (E := E) (.sendGather (w.es i).ds spans fin cookie) w)
  split
  · have hmarked := hsent.trans (modEs i (fun e => { e with wtApplicationSent := true }) _)
    split
    · exact hmarked.trans ((modEs i (fun e =>
        { e with wtSendOpen := false, wtFinPending := e.wtSendCommit }) _).trans
          (wtReleaseIfDone i _))
    · exact hmarked
  · exact hsent

theorem wtShutdownWith (hE : E.Discreet) (i : Nat) (req : Shutdown) (app : Bool) (w : World σ) :
    Discreet w (wtShutdownWith E i req app w).2 := by
  unfold Engine.wtShutdownWith
  dsimp only
  split
  · rfl
  split
  · rfl
  split
  · rfl
  split
  · exact op _ w
  split
  · exact (op _ w).trans (connFatal hE _ _)
  split
  · exact op _ w
  · exact (op _ w).trans ((modEs i _ _).trans (wtReleaseIfDone i _))

theorem wtShutdownCode (hE : E.Discreet) (i : Nat) (code : UInt32) (req : Nat → Shutdown)
    (w : World σ) : Discreet w (wtShutdownCode E i code req w).2 := by
  unfold Engine.wtShutdownCode
  split
  · rfl
  · exact wtShutdownWith hE _ _ _ w

theorem wtReject (hE : E.Discreet) (i : Nat) (w : World σ) : Discreet w (wtReject E i w) := by
  unfold Engine.wtReject
  split
  · rfl
  · exact (modEs i (fun e => { e with user := none }) w).trans (wtShutdownWith hE _ _ _ _)

theorem wtRecvEnable (i : Nat) (enabled : Bool) (w : World σ) :
    Discreet w (wtRecvEnable E i enabled w).2 := by
  unfold Engine.wtRecvEnable
  dsimp only
  split
  · rfl
  split
  · rfl
  split
  · rfl
  have hasked := (modEs i (fun e => { e with recvPaused := !enabled }) w).trans
    (op (E := E) (.recvEnable (w.es i).ds enabled) _)
  split
  · exact hasked.trans (modEs i (fun k => { k with recvPaused := (w.es i).recvPaused }) _)
  · exact hasked

theorem dgramSend (spans : List Bytes) (w : World σ) : Discreet w (dgramSend E spans w).2 := by
  unfold Engine.dgramSend
  dsimp only
  repeat' split
  all_goals first | rfl | exact op _ w | exact (op _ w).trans (op _ _)

theorem dgramMaxSize (w : World σ) : Discreet w (dgramMaxSize E w).2 := by
  unfold Engine.dgramMaxSize
  split
  · rfl
  · exact op _ w

theorem call (hE : E.Discreet) (a : AppCall) (w : World σ) : Discreet w (a.run E w) := by
  unfold AppCall.run
  split
  · cases a with
    | clientConnect cfg => exact clientConnect hE cfg w
    | sessionClose code reason => exact sessionClose hE code reason w
    | sessionDrain => exact sessionDrain hE w
    | wtOpen bidi => exact wtOpen hE bidi w
    | wtEnableSendCommit i => exact wtEnableSendCommit i w
    | wtSend i spans fin cookie => exact wtSend i spans fin cookie w
    | wtShutdown i req => exact wtShutdownWith hE i req true w
    | wtReset i code => exact wtShutdownCode hE i code _ w
    | wtStop i code => exact wtShutdownCode hE i code _ w
    | wtAbort i code => exact wtShutdownCode hE i code _ w
    | wtReject i => exact wtReject hE i w
    | wtRecvEnable i enabled => exact wtRecvEnable i enabled w
    | setUser i user => exact modEs i (fun e => { e with user }) w
    | dgramSend spans => exact dgramSend spans w
    | dgramMaxSize => exact dgramMaxSize w
    | sealTransportError => exact connLatchError _ w
  · rfl

end Discreet

/-- Whatever the application does inside callbacks, it does by calls. -/
theorem Ctx.Nested.discreet (hE : E.Nested) : E.Discreet := by
  have hext : ∀ (w : World σ) (e : σ), Engine.Discreet w { w with ext := e } :=
    fun _ _ => .of_eq rfl rfl
  induction hE with
  | leaf h =>
    intro c w
    obtain ⟨e, he⟩ := h c w
    rw [he]
    exact (hext _ e).trans (.log rfl _)
  | node _ h ih =>
    intro c w
    obtain ⟨w', hcalls, he⟩ := h c w
    rw [he]
    exact (hcalls.rel Engine.Discreet.refl Engine.Discreet.trans hext
      fun a w => .call ih a w).trans (.log rfl _)

end Wtquic.Engine
