-- SUMMARY: Steps beside the walks: they read no byte, copy no byte and decide nothing.
import Wtquic.Engine.Discreet
import Wtquic.Engine.StreamFrame

namespace Wtquic.Engine

/-! # Asides

An aside may report, refuse, release and die. It leaves the walk of every stream where it is. -/

variable {σ : Type} {E : Ctx σ} {w w' w'' : World σ}

/-- The kinds of streams whose bytes the engine interprets. -/
def EsKind.walks : EsKind → Bool
  | .type | .btype | .control | .qpack | .connect | .request => true
  | .free | .drain | .wt | .reserved => false

theorem EsKind.http_of_walks {k : EsKind} (h : k.walks) : k.http := by
  cases k <;> first | rfl | cases h

/-- The fields of a stream that a walk reads and writes. -/
structure Track where
  kind : EsKind
  generation : Nat
  pre : Preamble.Dec
  btypeBuf : Bytes
  frameDec : H3Frame.Dec
  frameActive : Bool
  frameKind : FrameKind
  frameType : Nat
  frameRemaining : Nat
  setBuf : Bytes
  headersDone : Bool
  isSessionStream : Bool

def Estream.track (e : Estream) : Track where
  kind := e.kind
  generation := e.generation
  pre := e.pre
  btypeBuf := e.btypeBuf
  frameDec := e.frameDec
  frameActive := e.frameActive
  frameKind := e.frameKind
  frameType := e.frameType
  frameRemaining := e.frameRemaining
  setBuf := e.setBuf
  headersDone := e.headersDone
  isSessionStream := e.isSessionStream

/-- The track of a stream that no walk has read from. -/
def Track.new (kind : EsKind) (generation : Nat) : Track :=
  ({ kind, generation } : Estream).track

theorem Estream.track_blank {e : Estream} (h : e.blank) : e.track = .new e.kind e.generation := by
  simp only [Estream.blank, Estream.mk.injEq] at h
  simp [Estream.track, Track.new, h]

/-- The stream in slot `i` has not been read from. -/
structure World.Untold (w : World σ) (i : Nat) : Prop where
  track : (w.es i).track = .new (w.es i).kind (w.es i).generation
  rx : w.rx i (w.es i).generation = []

theorem World.Newborn.untold {i : Nat} (h : w.Newborn i) : w.Untold i :=
  ⟨Estream.track_blank h.1, h.2⟩

/-- What the peer's SETTINGS and capsules have made of a connection. -/
structure Intake where
  settingsReceived : Bool
  wtSupported : Bool
  profileLatched : Bool
  peerSettings : Option Settings.H3Settings
  peerControlSeen : Bool
  sessionEstablished : Bool
  capsDec : Capsule.Dec

def Conn.intake (c : Conn) : Intake where
  settingsReceived := c.settingsReceived
  wtSupported := c.wtSupported
  profileLatched := c.profileLatched
  peerSettings := c.peerSettings
  peerControlSeen := c.peerControlSeen
  sessionEstablished := c.sessionEstablished
  capsDec := c.capsDec

/-- The walk of slot `i` is where it was, or has not begun. -/
def World.Follows (w w' : World σ) (i : Nat) : Prop :=
  ((w'.es i).track = (w.es i).track ∧ ((w.es i).requestDead → (w'.es i).requestDead)) ∨ w'.Untold i

structure Aside (w w' : World σ) : Prop where
  discreet : Discreet w w'
  closed : w.conn.closed → w'.conn.closed
  faults : w'.memoryFaults = w.memoryFaults
  rx : w'.rx = w.rx
  intake : w'.conn.intake = w.conn.intake
  fresh : w.Fresh → w'.Fresh
  parked : ∀ i, w'.conn.parkedEs = some i →
    w.conn.parkedEs = some i ∧ w'.conn.parkedBuf = w.conn.parkedBuf
  slots : w.Fresh → ∀ i, (w'.es i).kind.walks → w.Follows w' i

namespace Aside

theorem of_same (hd : Discreet w w') (hc : w.conn.closed → w'.conn.closed)
    (hf : w'.faults = w.faults) (hrx : w'.rx = w.rx) (hes : w'.es = w.es)
    (hg : w'.conn.streamGeneration = w.conn.streamGeneration)
    (hi : w'.conn.intake = w.conn.intake)
    (hp : ∀ i, w'.conn.parkedEs = some i →
      w.conn.parkedEs = some i ∧ w'.conn.parkedBuf = w.conn.parkedBuf) : Aside w w' where
  discreet := hd
  closed := hc
  faults := by rw [World.memoryFaults, hf, World.memoryFaults]
  rx := hrx
  intake := hi
  fresh hw := by
    refine ⟨fun i => ?_, fun i g h => ?_⟩
    · rw [hes, hg]
      exact hw.gen i
    · rw [hrx]
      exact hw.rx i g (hg ▸ h)
  parked := hp
  slots _ i _ := .inl ⟨by rw [hes], by rw [hes]; exact id⟩

@[refl] theorem refl (w : World σ) : Aside w w :=
  of_same (.refl w) id rfl rfl rfl rfl rfl fun _ h => ⟨h, rfl⟩

theorem trans (h : Aside w w') (h' : Aside w' w'') : Aside w w'' where
  discreet := h.discreet.trans h'.discreet
  closed := h'.closed ∘ h.closed
  faults := h'.faults.trans h.faults
  rx := h'.rx.trans h.rx
  intake := h'.intake.trans h.intake
  fresh := h'.fresh ∘ h.fresh
  parked i hi := by
    obtain ⟨hp', hb'⟩ := h'.parked i hi
    obtain ⟨hp, hb⟩ := h.parked i hp'
    exact ⟨hp, hb'.trans hb⟩
  slots hw i hi := by
    rcases h'.slots (h.fresh hw) i hi with ⟨htrack', hdead'⟩ | hnew
    · have hkind : (w''.es i).kind = (w'.es i).kind := congrArg Track.kind htrack'
      have hgen : (w''.es i).generation = (w'.es i).generation := congrArg Track.generation htrack'
      rcases h.slots hw i (hkind ▸ hi) with ⟨htrack, hdead⟩ | hnew
      · exact .inl ⟨htrack'.trans htrack, hdead' ∘ hdead⟩
      · refine .inr ⟨?_, ?_⟩
        · rw [htrack', hnew.track, hkind, hgen]
        · rw [hgen, h'.rx]
          exact hnew.rx
    · exact .inr hnew

/-- What a call does is an aside. -/
theorem of_call (h : Frame .call w w') (hd : Discreet w w') : Aside w w' where
  discreet := hd
  closed := h.closed
  faults := (h.calm id).2
  rx := funext fun i => h.rx i id
  intake := by
    have hmask : w'.conn.mask.intake = w.conn.mask.intake := congrArg Conn.intake (h.calm id).1
    exact hmask
  fresh := h.fresh
  parked i hi := by
    have hes : w'.conn.mask.parkedEs = w.conn.mask.parkedEs :=
      congrArg Conn.parkedEs (h.calm id).1
    have hbuf : w'.conn.mask.parkedBuf = w.conn.mask.parkedBuf :=
      congrArg Conn.parkedBuf (h.calm id).1
    exact ⟨hes.symm.trans hi, hbuf⟩
  slots hw i hi := by
    have hi := EsKind.http_of_walks hi
    by_cases hk : (w.es i).kind.http
    · have hes := h.http i id hk
      exact .inl ⟨by rw [hes], by rw [hes]; exact id⟩
    · exact .inr (h.born hw i id hk hi).untold

/-! ## Primitives -/

theorem log {o : Out} (ho : o.isHail = false) (w : World σ) : Aside w (w.log o) :=
  of_same (.log ho w) id rfl rfl rfl rfl rfl fun _ h => ⟨h, rfl⟩

theorem op (o : DrvOp) (w : World σ) : Aside w (w.op E o).2 := log rfl w

theorem newDetachedDs (w : World σ) : Aside w w.newDetachedDs.2 :=
  of_same (.of_eq rfl rfl) id rfl rfl rfl rfl rfl fun _ h => ⟨h, rfl⟩

theorem newDs (i : Nat) (w : World σ) : Aside w (w.newDs i).2 :=
  of_same (.newDs i w) id rfl rfl rfl rfl rfl fun _ h => ⟨h, rfl⟩

/-- A write to the connection that an aside may make. -/
theorem updConn {f : Conn → Conn} (hr : (f w.conn).reserve = w.conn.reserve)
    (hi : (f w.conn).intake = w.conn.intake) (hc : w.conn.closed → (f w.conn).closed)
    (hes : (f w.conn).peer = w.conn.peer)
    (hg : (f w.conn).streamGeneration = w.conn.streamGeneration)
    (hp : ∀ i, (f w.conn).parkedEs = some i →
      w.conn.parkedEs = some i ∧ (f w.conn).parkedBuf = w.conn.parkedBuf) :
    Aside w (w.updConn f) :=
  of_same (.updConn hr) hc rfl rfl hes hg hi hp

/-- A write to a slot that leaves its walk alone. -/
theorem putEs {i : Nat} {e : Estream}
    (h : e.kind.walks → e.track = (w.es i).track ∧ ((w.es i).requestDead → e.requestDead))
    (hg : e.generation = (w.es i).generation) : Aside w (w.putEs i e) where
  discreet := .putEs i e w
  closed := id
  faults := rfl
  rx := rfl
  intake := rfl
  fresh := (Frame.putEs (S := .all) (.inl trivial) hg).fresh
  parked _ hi := ⟨hi, rfl⟩
  slots _ j hj := by
    rw [World.es_putEs] at hj
    rw [World.Follows, World.es_putEs]
    split at hj
    · next hji =>
      subst hji
      rw [if_pos rfl]
      exact .inl (h hj)
    · next hji =>
      rw [if_neg hji]
      exact .inl ⟨rfl, id⟩

theorem audit {f : Fault} (hf : f.isMemory = false) (b : Bool) (w : World σ) :
    Aside w (w.audit b f) where
  discreet := .audit b f w
  closed := by simp
  faults := by
    cases b with
    | true => rfl
    | false => simp [World.memoryFaults, World.audit, hf]
  rx := by simp
  intake := by simp
  fresh := (Frame.audit (S := .call) (.inr hf) b w).fresh
  parked _ hi := by simpa using hi
  slots _ i _ := .inl (by simp)

theorem modEs {i : Nat} {f : Estream → Estream}
    (h : (f (w.es i)).kind.walks → (f (w.es i)).track = (w.es i).track ∧
      ((w.es i).requestDead → (f (w.es i)).requestDead))
    (hg : (f (w.es i)).generation = (w.es i).generation) : Aside w (w.modEs i f) :=
  (audit rfl _ w).trans (putEs (by simpa using h) (by simpa using hg))

/-- A slot is given to a stream that no walk has read from. -/
theorem claim {i : Nat} {e : Estream} (he : e.blank) (w : World σ)
    (hi : (w.es i).kind = .free) : Aside w (w.claim i e) where
  discreet := .claim i e w
  closed := id
  faults := rfl
  rx := rfl
  intake := rfl
  fresh := (Frame.claim (S := .call) hi e he).fresh
  parked _ hi := ⟨hi, rfl⟩
  slots hw j hj := by
    by_cases hji : j = i
    · subst hji
      have hes : (w.claim j e).es j = { e with generation := w.conn.streamGeneration + 1 } :=
        World.es_claim_self _ _ _
      refine .inr ⟨?_, ?_⟩
      · rw [hes]
        exact Estream.track_blank (by simpa [Estream.blank] using he)
      · rw [hes]
        exact hw.rx j _ (Nat.lt_succ_self _)
    · have hes : (w.claim i e).es j = w.es j := World.es_putEs_of_ne hji _ _
      exact .inl ⟨by rw [hes], by rw [hes]; exact id⟩

/-! ## Sessions -/

theorem connLatchError (e : TransportError) (w : World σ) : Aside w (connLatchError e w) :=
  .of_call (.connLatchError e w) (.connLatchError e w)

theorem setSess {s : SessState} (hs : s ≠ .idle) (w : World σ) : Aside w (w.setSess s) :=
  .of_call (.setSess hs w) (.setSess s w)

theorem sendBoth (ds : Nat) (a b : Bytes) (fin : Bool) (w : World σ) :
    Aside w (w.sendBoth E ds a b fin).2 :=
  .of_call (.sendBoth ds a b fin w) (.sendBoth ds a b fin w)

/-- Release ends the walk of a slot. -/
theorem estreamRelease (i : Nat) (w : World σ) : Aside w (estreamRelease E i w) := by
  have hgo : Aside w (Engine.admissionLetGo i (Engine.detachEs E i
      (w.audit ((w.es i).kind ≠ .free) (.doubleRelease i)))) :=
    (audit rfl _ w).trans ((of_call (.detachEs i _) (.detachEs i _)).trans
      (of_call (.admissionLetGo i _) (.admissionLetGo i _)))
  refine hgo.trans (putEs (fun h => by cases h) ?_)
  rfl

theorem wtReleaseIfDone (i : Nat) (w : World σ) : Aside w (wtReleaseIfDone E i w) := by
  unfold Engine.wtReleaseIfDone
  split
  · exact estreamRelease i w
  · rfl

theorem parkedRequestCancel (w : World σ) : Aside w (parkedRequestCancel w) :=
  updConn rfl rfl id rfl rfl fun _ h => by cases h

theorem forgetSessionEs (i : Nat) (w : World σ) : Aside w (forgetSessionEs i w) := by
  unfold Engine.forgetSessionEs
  split
  · exact updConn rfl rfl id rfl rfl fun _ h => ⟨h, rfl⟩
  · rfl

theorem cancelIfParked (i : Nat) (w : World σ) :
    Aside w (if w.conn.parkedEs = some i then Engine.parkedRequestCancel w else w) := by
  split
  · exact parkedRequestCancel w
  · rfl

/-- A stream is refused. -/
theorem dead (i : Nat) (w : World σ) :
    Aside w (w.modEs i fun e => { e with requestDead := true }) :=
  modEs (fun _ => ⟨rfl, fun _ => rfl⟩) rfl

/-- A stream leaves classification. -/
theorem unclassified {i : Nat} {f : Estream → Estream} (hk : (f (w.es i)).kind.walks = false)
    (hg : (f (w.es i)).generation = (w.es i).generation) : Aside w (w.modEs i f) :=
  modEs (fun h => by simp [hk] at h) hg

/-! ## Bootstrap -/

theorem openLocal {store : Nat → Conn → Conn} (bytes : Bytes) (w : World σ)
    (hs : ∀ ds (v : World σ), Aside v (v.updConn (store ds))) :
    Aside w (openLocal E store bytes w).2 := by
  unfold Engine.openLocal
  dsimp only
  split
  · exact op _ w
  · exact ((op (E := E) _ w).trans (newDetachedDs _)).trans ((hs _ _).trans (op _ _))

theorem connOpenLocals (w : World σ) : Aside w (connOpenLocals E w).2 := by
  have htry : Aside w (w.updConn fun c => { c with localsAttempted := true }) :=
    updConn rfl rfl id rfl rfl fun _ h => ⟨h, rfl⟩
  have hctrl : ∀ bytes (v : World σ),
      Aside v (Engine.openLocal E (fun ds c => { c with localCtrl := ds }) bytes v).2 :=
    fun bytes v => openLocal bytes v fun ds v =>
      updConn (w := v) (f := fun c => { c with localCtrl := ds }) rfl rfl id rfl rfl fun _ h => ⟨h, rfl⟩
  have henc : ∀ bytes (v : World σ),
      Aside v (Engine.openLocal E (fun ds c => { c with localQpkEnc := ds }) bytes v).2 :=
    fun bytes v => openLocal bytes v fun ds v =>
      updConn (w := v) (f := fun c => { c with localQpkEnc := ds }) rfl rfl id rfl rfl fun _ h => ⟨h, rfl⟩
  have hdec : ∀ bytes (v : World σ),
      Aside v (Engine.openLocal E (fun ds c => { c with localQpkDec := ds }) bytes v).2 :=
    fun bytes v => openLocal bytes v fun ds v =>
      updConn (w := v) (f := fun c => { c with localQpkDec := ds }) rfl rfl id rfl rfl fun _ h => ⟨h, rfl⟩
  unfold Engine.connOpenLocals
  dsimp only
  split
  · rfl
  split
  · exact htry.trans (hctrl _ _)
  split
  · exact htry.trans ((hctrl _ _).trans (henc _ _))
  · exact htry.trans ((hctrl _ _).trans ((henc _ _).trans (hdec _ _)))

theorem start (w : World σ) : Aside w (start E w).2 := by
  unfold Engine.start
  split
  · rfl
  have hstarted : Aside w (w.updConn fun c => { c with started := true }) :=
    updConn rfl rfl id rfl rfl fun _ h => ⟨h, rfl⟩
  dsimp only
  split
  · exact hstarted
  · exact hstarted.trans (connOpenLocals _)

/-! ## Reports and deaths -/

section Nested

variable (hE : E.Nested)
include hE

theorem notify {c : Callback} (hc : (Out.cb c).isHail = false) (w : World σ) :
    Aside w (E.notify c w) :=
  .of_call (.notify hE.lawful c w) (.notify hE.discreet hc w)

theorem sessionFailed (r : FailReason) (w : World σ) : Aside w (sessionFailed E r w) :=
  .of_call (.sessionFailed hE.lawful r w) (.sessionFailed hE.discreet r w)

theorem sessionDraining (w : World σ) : Aside w (sessionDraining E w) :=
  .of_call (.sessionDraining hE.lawful w) (.sessionDraining hE.discreet w)

theorem connFatal (err : Nat) (w : World σ) : Aside w (connFatal E err w) :=
  .of_call (.connFatal hE.lawful err w) (.connFatal hE.discreet err w)

theorem onConnClosed (err : Nat) (remote : Bool) (w : World σ) :
    Aside w (onConnClosed E err remote w) :=
  .of_call (.onConnClosed hE.lawful err remote w) (.onConnClosed hE.discreet err remote w)

theorem shutdownRaw (ds : Nat) (a r : Bool) (code : Nat) (w : World σ) :
    Aside w (shutdownRaw E ds a r code w) :=
  .of_call (.shutdownRaw hE.lawful ds a r code w) (.shutdownRaw hE.discreet ds a r code w)

theorem sessionClosed (code : UInt32) (reason : Bytes) (clean : Bool) (w : World σ) :
    Aside w (sessionClosed E code reason clean w) :=
  .of_call (.sessionClosed hE.lawful code reason clean w)
    (.sessionClosed hE.discreet code reason clean w)

theorem clientSendConnect (w : World σ) : Aside w (clientSendConnect E w) :=
  .of_call (.clientSendConnect hE.lawful w) (.clientSendConnect hE.discreet w)

theorem call (a : AppCall) (w : World σ) : Aside w (a.run E w) :=
  .of_call (.call hE.lawful a w) (.call hE.discreet a w)

/-! ## Requests -/

theorem requestStreamRefuseErr (i err : Nat) (w : World σ) :
    Aside w (requestStreamRefuseErr E i err w) :=
  (shutdownRaw hE _ _ _ _ w).trans (dead i _)

theorem requestStreamFail (i err : Nat) (w : World σ) : Aside w (requestStreamFail E i err w) := by
  have hrefused := (requestStreamRefuseErr hE i err w).trans (cancelIfParked i _)
  unfold Engine.requestStreamFail
  dsimp only
  generalize hu : (if (Engine.requestStreamRefuseErr E i err w).conn.parkedEs = some i then
    Engine.parkedRequestCancel (Engine.requestStreamRefuseErr E i err w)
    else Engine.requestStreamRefuseErr E i err w) = u at hrefused ⊢
  split
  · exact hrefused.trans ((forgetSessionEs i u).trans ((estreamRelease i _).trans
      (sessionClosed hE _ _ _ _)))
  · exact hrefused

theorem serverSendResponse (ds status : Nat) (sel : Option Bytes) (w : World σ) :
    Aside w (serverSendResponse E ds status sel w) := by
  unfold Engine.serverSendResponse
  split
  · exact connFatal hE _ w
  dsimp only
  split
  · exact sendBoth _ _ _ _ w
  · exact (sendBoth _ _ _ _ w).trans (connFatal hE _ _)

theorem serverRefuse (i status : Nat) (w : World σ) : Aside w (serverRefuse E i status w) :=
  (serverSendResponse hE _ status none w).trans (dead i _)

theorem sessionStreamPoisoned (i : Nat) (w : World σ) : Aside w (sessionStreamPoisoned E i w) :=
  (shutdownRaw hE _ _ _ _ w).trans ((forgetSessionEs i _).trans (estreamRelease i _))

theorem clientRefused (i : Nat) (w : World σ) : Aside w (clientRefused E i w) := by
  have hfailed := (dead i w).trans (sessionFailed hE .connection _)
  unfold Engine.clientRefused
  dsimp only
  split
  · exact hfailed
  · exact hfailed.trans (shutdownRaw hE _ _ _ _ _)

theorem sessionStreamFin (i : Nat) (w : World σ) : Aside w (sessionStreamFin E i w) := by
  refine (forgetSessionEs i w).trans ?_
  unfold Engine.sessionStreamFin
  dsimp only
  split
  · exact connFatal hE _ _
  split
  · rfl
  split
  · split
    · exact requestStreamRefuseErr hE _ _ _
    · exact connFatal hE _ _
  · exact sessionClosed hE _ _ _ _

theorem requestStreamFin (i : Nat) (w : World σ) : Aside w (requestStreamFin E i w) := by
  unfold Engine.requestStreamFin
  dsimp only
  split
  · rfl
  split
  · exact sessionStreamFin hE i w
  split
  · refine Aside.trans ?_ (connFatal hE _ _)
    split
    · exact sessionFailed hE _ w
    · rfl
  split
  · exact connFatal hE _ w
  split
  · exact sessionFailed hE _ w
  · rfl

/-- The end of a request stream. -/
theorem requestStreamEnd (i : Nat) (w : World σ) :
    Aside w (Engine.estreamRelease E i (Engine.forgetSessionEs i
      (Engine.requestStreamFin E i w))) :=
  (requestStreamFin hE i w).trans ((forgetSessionEs i _).trans (estreamRelease i _))

theorem applyDeferredFin (i : Nat) (fin : Bool) (w : World σ) :
    Aside w (applyDeferredFin E i fin w) := by
  unfold Engine.applyDeferredFin
  split
  · exact requestStreamEnd hE i w
  · rfl

theorem requestDeliveryFin (i : Nat) (fin : Bool) (w : World σ) :
    Aside w (requestDeliveryFin E i fin w).2 := by
  unfold Engine.requestDeliveryFin
  split
  · rfl
  split
  · rfl
  split
  · rfl
  split
  · split
    · exact connFatal hE _ w
    · exact updConn (f := fun c => { c with parkedFin := true }) rfl rfl id rfl rfl
        fun _ h => ⟨h, rfl⟩
  · exact requestStreamEnd hE i w

/-! ## Control -/

theorem connOpenLocalsIfDeferred (w : World σ) : Aside w (connOpenLocalsIfDeferred E w).2 := by
  unfold Engine.connOpenLocalsIfDeferred
  split
  · rfl
  dsimp only
  split
  · exact (connOpenLocals w).trans (connFatal hE _ _)
  · exact connOpenLocals w

theorem controlMaxPushId (v : Nat) (w : World σ) : Aside w (controlMaxPushId E v w) := by
  unfold Engine.controlMaxPushId
  split
  · exact connFatal hE _ w
  · exact updConn rfl rfl id rfl rfl fun _ h => ⟨h, rfl⟩

theorem controlGoaway (v : Nat) (w : World σ) : Aside w (controlGoaway E v w) := by
  unfold Engine.controlGoaway
  split
  · exact connFatal hE _ w
  have hgo : Aside w (w.updConn fun c => { c with goaway := some v }) :=
    updConn rfl rfl id rfl rfl fun _ h => ⟨h, rfl⟩
  refine Aside.trans ?_ (sessionDraining hE _)
  split
  · split
    · exact hgo.trans (clientRefused hE _ _)
    · exact hgo
  · exact hgo

theorem controlOneVarint (i : Nat) (w : World σ) : Aside w (controlOneVarint E i w) := by
  unfold Engine.controlOneVarint
  dsimp only
  split
  · exact connFatal hE _ w
  split
  · exact connFatal hE _ w
  split
  · exact connFatal hE _ w
  split
  · exact controlMaxPushId hE _ w
  split
  · exact controlGoaway hE _ w
  · rfl

/-! ## WT streams -/

theorem wtAssociate (i sid : Nat) (bidi : Bool) (w : World σ) :
    Aside w (wtAssociate E i sid bidi w).2 := by
  unfold Engine.wtAssociate
  split
  · exact connFatal hE _ w
  split
  · refine Aside.trans ?_ (notify hE rfl _)
    exact unclassified (f := fun e => { e with
      kind := .wt, wtBidi := bidi, wtLocal := false, wtRecvOpen := true, wtSendOpen := bidi }) rfl rfl
  · exact (shutdownRaw hE (w.es i).ds bidi true (rejectCode w.conn sid) w).trans
      (unclassified (f := fun e => { e with kind := .drain }) rfl rfl)

theorem wtDeliver (i : Nat) (data : Bytes) (fin : Bool) (w : World σ) :
    Aside w (wtDeliver E i data fin w) := by
  have hdrained : ∀ u : World σ, Aside u (u.modEs i fun e => { e with wtRecvDrain := false }) :=
    fun u => modEs (fun _ => ⟨rfl, id⟩) rfl
  have hended : ∀ u : World σ,
      Aside u (u.modEs i fun e => { e with wtRecvOpen := false, wtRecvDrain := false }) :=
    fun u => modEs (fun _ => ⟨rfl, id⟩) rfl
  unfold Engine.wtDeliver
  dsimp only
  split
  · split
    · exact (hdrained w).trans (wtReleaseIfDone i _)
    · rfl
  have hdata : Aside w (if !data.isEmpty || fin then E.notify (.wtStreamData i data fin) w else w) := by
    split
    · exact notify hE rfl w
    · rfl
  generalize (if !data.isEmpty || fin then E.notify (.wtStreamData i data fin) w else w) = v
    at hdata ⊢
  split
  · exact hdata.trans ((hended v).trans (wtReleaseIfDone i _))
  · exact hdata

theorem wtDeliverAccounted (i gen len : Nat) (fin : Bool) (n : Nat) (data : Bytes) (w : World σ) :
    Aside w (wtDeliverAccounted E i gen len fin n data w).2.2 := by
  induction n generalizing data w with
  | zero => rfl
  | succ n ih =>
    have hchunk := wtDeliver hE i (data.take 65535) (fin && (data.drop 65535).isEmpty) w
    unfold Engine.wtDeliverAccounted
    dsimp only
    split
    · rfl
    split
    · rfl
    split
    · exact hchunk
    · exact hchunk.trans (ih _ _)

/-! ## Inputs -/

theorem onPeerOpened (bidi : Bool) (id : Nat) (w : World σ) :
    Aside w (onPeerOpened E bidi id w).2 := by
  have hlocals := connOpenLocalsIfDeferred hE w
  unfold Engine.onPeerOpened
  dsimp only
  split
  · rfl
  generalize Engine.connOpenLocalsIfDeferred E w = x at hlocals ⊢
  obtain ⟨rc, u⟩ := x
  dsimp only at hlocals ⊢
  split
  · exact hlocals
  split
  · next i hf =>
    have hi : ((u.newDs i).2.es i).kind = .free := (World.findFree_some hf).2.2.1
    have hclaim := claim (i := i) (e := { kind := if bidi then .btype else .type, ds := u.nextDs, id })
      rfl (u.newDs i).2 hi
    exact hlocals.trans ((newDs i u).trans hclaim)
  · exact hlocals.trans ((newDetachedDs u).trans (shutdownRaw hE _ _ _ _ _))

theorem onStreamTerminal (i : Nat) (w : World σ) : Aside w (onStreamTerminal E i w).2 := by
  unfold Engine.onStreamTerminal
  dsimp only
  split
  · rfl
  split
  · rfl
  split
  · exact estreamRelease i w
  · split
    · exact (cancelIfParked i w).trans (estreamRelease i _)
    · rfl
  · refine Aside.trans ?_ (estreamRelease i _)
    have hclosed : Aside w (w.modEs i Estream.closeAll) := modEs (fun _ => ⟨rfl, fun h => h⟩) rfl
    split
    · exact hclosed.trans (notify hE rfl _)
    · exact hclosed
  · rfl

theorem wtReset (i err : Nat) (w : World σ) : Aside w (wtReset E i err w) := by
  unfold Engine.wtReset
  dsimp only
  split
  · have hdrained : Aside w (w.modEs i fun e => { e with wtRecvDrain := false }) :=
      modEs (fun _ => ⟨rfl, fun h => h⟩) rfl
    exact hdrained.trans (wtReleaseIfDone i _)
  · have hclosed : Aside w (w.modEs i fun e => { e with wtRecvOpen := false }) :=
      modEs (fun _ => ⟨rfl, fun h => h⟩) rfl
    exact hclosed.trans ((notify hE rfl _).trans (wtReleaseIfDone i _))

theorem onStreamReset (i err : Nat) (w : World σ) : Aside w (onStreamReset E i err w).2 := by
  unfold Engine.onStreamReset
  dsimp only
  split
  · rfl
  split
  · rfl
  split
  · exact connFatal hE _ w
  split
  · exact (forgetSessionEs i w).trans ((estreamRelease i _).trans (sessionClosed hE _ _ _ _))
  split
  · exact wtReset hE i err w
  refine Aside.trans ?_ ((cancelIfParked i _).trans (estreamRelease i _))
  split
  · exact sessionFailed hE _ w
  · rfl

theorem onStopSending (i err : Nat) (w : World σ) : Aside w (onStopSending E i err w).2 := by
  unfold Engine.onStopSending
  dsimp only
  split
  · rfl
  split
  · have hrefused := (requestStreamRefuseErr hE i H3Err.requestRejected w).trans
      (parkedRequestCancel _)
    split
    · exact hrefused.trans (estreamRelease i _)
    · exact hrefused
  split
  · have hclosed : Aside w (w.modEs i fun e =>
        { e with wtSendOpen := false, wtFinPending := false }) :=
      modEs (fun _ => ⟨rfl, fun h => h⟩) rfl
    have hcommit : Aside w (if (w.es i).wtSendCommit then
        w.modEs i fun e => { e with wtSendOpen := false, wtFinPending := false } else w) := by
      split
      · exact hclosed
      · rfl
    have hstopped := hcommit.trans
      (notify hE (c := .wtStreamStop i ((ErrMap.h3ErrorToApp err).getD 0)) rfl _)
    generalize E.notify _ (if (w.es i).wtSendCommit then _ else w) = v at hstopped ⊢
    split
    · exact hstopped.trans (wtReleaseIfDone i _)
    · exact hstopped
  · rfl

theorem onStreamSendShutdown (i ds gen : Nat) (graceful : Bool) (w : World σ) :
    Aside w (onStreamSendShutdown E i ds gen graceful w) := by
  unfold Engine.onStreamSendShutdown
  dsimp only
  split
  · rfl
  have hclosed : Aside w (w.modEs i fun e => { e with wtFinPending := false, wtSendOpen := false }) :=
    modEs (fun _ => ⟨rfl, fun h => h⟩) rfl
  have htold := hclosed.trans (notify hE
    (c := if graceful then .wtStreamSendCommitted i else .wtStreamTerminal i)
    (by cases graceful <;> rfl) _)
  generalize E.notify _ (w.modEs i _) = v at htold ⊢
  split
  · exact htold.trans (wtReleaseIfDone i _)
  · exact htold

theorem onStreamWritable (i : Nat) (w : World σ) : Aside w (onStreamWritable E i w) := by
  unfold Engine.onStreamWritable
  split
  · rfl
  · exact notify hE rfl w

theorem onDatagram (data : Bytes) (w : World σ) : Aside w (onDatagram E data w).2 := by
  have hlocals := connOpenLocalsIfDeferred hE w
  have hdropped : ∀ u : World σ,
      Aside u (u.updConn fun c => { c with dgramsDropped := c.dgramsDropped + 1 }) :=
    fun u => updConn rfl rfl id rfl rfl fun _ h => ⟨h, rfl⟩
  unfold Engine.onDatagram
  dsimp only
  split
  · rfl
  generalize Engine.connOpenLocalsIfDeferred E w = x at hlocals ⊢
  obtain ⟨rc, u⟩ := x
  dsimp only at hlocals ⊢
  split
  · exact hlocals
  split
  · exact hlocals.trans (notify hE rfl _)
  split
  · exact hlocals.trans (connFatal hE _ _)
  split
  · exact hlocals.trans (connFatal hE _ _)
  split
  · exact hlocals.trans (notify hE rfl _)
  · exact hlocals.trans (hdropped u)

end Nested

theorem setTransportError (e : TransportError) (w : World σ) : Aside w (setTransportError e w) := by
  unfold Engine.setTransportError
  split
  · rfl
  · exact connLatchError e w

/-! ## Admission records -/

/-- A record changes its state, and no longer reads. -/
theorem setAdmission {r : Nat} {q : Option Admission}
    (h : ∀ q', q = some q' → ∃ p, w.conn.admissionPeers r = some p ∧ p.Kept q') :
    Aside w (w.setAdmission r q) :=
  of_same ⟨rfl, rfl, fun _ => ⟨rfl, rfl⟩, fun k q' hq => by
    simp only [World.setAdmission, World.conn_updConn] at hq
    by_cases hk : k = r
    · subst hk
      rw [Function.update_self] at hq
      exact h q' hq
    · rw [Function.update_of_ne hk] at hq
      exact ⟨q', hq, rfl, rfl, fun h => h⟩⟩ (fun h => h) rfl rfl rfl rfl rfl fun _ h => ⟨h, rfl⟩

theorem modAdmission {r : Nat} {f : Admission → Admission} (h : ∀ p : Admission, p.Kept (f p)) :
    Aside w (w.modAdmission r f) :=
  setAdmission fun q hq => by
    obtain ⟨p, hp, rfl⟩ := Option.map_eq_some_iff.mp hq
    exact ⟨p, hp, h p⟩

theorem admissionForget (r : Nat) (w : World σ) : Aside w (admissionForget r w) :=
  setAdmission fun _ hq => by cases hq

theorem streamRetire (i ds : Nat) (w : World σ) : Aside w (streamRetire i ds w) := by
  unfold Engine.streamRetire
  split
  · next h => exact putEs (fun hk => by simp [h.2.2.2, EsKind.walks] at hk) rfl
  · rfl

theorem admissionEntry {r i : Nat} {kind : EsKind} (h : admissionEntry r i kind w = some w') :
    Aside w w' := by
  unfold Engine.admissionEntry at h
  split at h
  · cases h
  next p hp =>
  split at h
  · cases h
  next hk =>
  cases h
  have hclaim := claim (e := { kind, resident := w.conn.budgeted, ds := p.ds, id := p.id }) rfl w
    (not_not.mp hk)
  refine hclaim.trans ((log (o := .attach p.ds i) rfl _).trans (setAdmission fun q hq => ?_))
  cases hq
  exact ⟨p, hp, rfl, rfl, fun h => by cases h⟩

section Nested

variable (hE : E.Nested)
include hE

theorem peerAdmit (r : Nat) (w : World σ) : Aside w (peerAdmit E r w).2 := by
  unfold Engine.peerAdmit
  split
  · rfl
  split
  · rfl
  split
  · rfl
  split
  · rfl
  split
  · rfl
  split
  · rfl
  next hentry => exact (admissionEntry hentry).trans (wtAssociate hE _ _ _ _)

theorem admissionWt (r : Nat) (p : Admission) (sid used len : Nat) (w : World σ) :
    Aside w (admissionWt E r p sid used len w).2.2 := by
  unfold Engine.admissionWt
  split
  · exact connFatal hE _ w
  split
  · exact (shutdownRaw hE _ _ _ _ w).trans
      (modAdmission fun _ => ⟨rfl, rfl, fun h => by cases h⟩)
  · exact modAdmission fun _ => ⟨rfl, rfl, fun h => by cases h⟩

theorem admissionFin (r : Nat) (p : Admission) (used : Nat) (w : World σ) :
    Aside w (admissionFin E r p used w).2.2 := by
  unfold Engine.admissionFin
  split
  · exact connFatal hE _ w
  · exact modAdmission fun _ => ⟨rfl, rfl, fun h => by cases h⟩

end Nested
end Aside
end Wtquic.Engine
