-- SUMMARY: Frames of stream delivery, admission and whole steps.
import Wtquic.Engine.InputFrame

namespace Wtquic.Engine

/-! # Frames of deliveries and steps -/

variable {σ : Type} {E : Ctx σ} {S : Scope} {w : World σ}

namespace Frame

/-- What holds of the widest scope holds of any scope that allows as much. -/
theorem of_all {w w' : World σ} (h : Frame .all w w') (hall : ∀ i, S.slots i) (ht : S.top) :
    Frame S w w' :=
  h.mono (fun i _ => hall i) fun _ => ht

/-! ## Association and admission records -/

theorem setAdmission (r : Nat) (p : Option Admission) (w : World σ) :
    Frame S w (w.setAdmission r p) :=
  Frame.updConn rfl rfl id rfl rfl (.of_eq rfl rfl) fun _ => rfl

theorem modAdmission (r : Nat) (f : Admission → Admission) (w : World σ) :
    Frame S w (w.modAdmission r f) :=
  setAdmission _ _ _

theorem wtAssociate (hE : E.Lawful) {i : Nat} (hi : S.slots i) (sid : Nat) (bidi : Bool)
    (w : World σ) : Frame S w (wtAssociate E i sid bidi w).2 := by
  unfold Engine.wtAssociate
  split
  · exact connFatal hE _ _
  split
  · exact (modEs_scope hi _ _ (by rfl)).trans (notify hE _ _)
  · dsimp only
    exact Frame.trans (shutdownRaw hE _ _ _ _ _) (modEs_scope hi _ _ (by rfl))

/-- An entry puts a stream into a slot that was free. -/
theorem admissionEntry {r i : Nat} {k : EsKind} {w' : World σ}
    (h : admissionEntry r i k w = some w') : (w.es i).kind = .free ∧ Frame S w w' := by
  unfold Engine.admissionEntry at h
  split at h
  · cases h
  split at h
  · cases h
  next hk =>
  have hk : (w.es i).kind = .free := by simpa using hk
  cases h
  exact ⟨hk, (claim hk _ (by rfl)).trans ((log _ _).trans (setAdmission _ _ _))⟩

/-! ## Opening and classification -/

theorem onPeerOpened (hE : E.Lawful) (ht : S.top) (bidi : Bool) (id : Nat) (w : World σ) :
    Frame S w (onPeerOpened E bidi id w).2 := by
  unfold Engine.onPeerOpened
  split
  · rfl
  dsimp only
  split
  · exact connOpenLocalsIfDeferred hE ht _
  split
  · next i hf =>
    refine (connOpenLocalsIfDeferred hE ht w).trans ((newDs i _).trans (claim ?_ _ (by rfl)))
    exact (World.findFree_some hf).2.2.1
  · exact (connOpenLocalsIfDeferred hE ht w).trans
      ((newDetachedDs _).trans (shutdownRaw hE _ _ _ _ _))

theorem classifyUni (hE : E.Lawful) (ht : S.top) {i : Nat} (hi : S.slots i) (type : Nat)
    (w : World σ) : Frame S w (classifyUni E i type w).2 := by
  unfold Engine.classifyUni
  have hcontrol : Frame S w (w.updConn fun c => { c with peerControlSeen := true }) :=
    updConn_top ht rfl rfl id rfl rfl (.of_eq rfl rfl)
  have hqpack : Frame S w (w.updConn fun c =>
      if type = 0x02 then { c with qpackEncSeen := true } else { c with qpackDecSeen := true }) := by
    refine updConn_top ht ?_ ?_ ?_ ?_ ?_ (.of_eq ?_ ?_) <;> split <;> first | rfl | exact id
  dsimp only
  split
  · split
    · exact connFatal hE _ _
    · dsimp only
      exact hcontrol.trans (modEs_scope hi _ _ (by rfl))
  split
  · generalize (if type = 0x02 then w.conn.qpackEncSeen else w.conn.qpackDecSeen) = seen
    split
    · exact connFatal hE _ _
    · dsimp only
      exact hqpack.trans (modEs_scope hi _ _ (by rfl))
  split
  · exact connFatal hE _ _
  · dsimp only
    exact modEs_scope hi _ _ (by rfl)

theorem bufferType (ht : S.top) {i : Nat} (hi : S.slots i) (bs : Bytes) (w : World σ) :
    Frame S w (bufferType i bs w) := by
  unfold Engine.bufferType
  exact (auditCopy ht _ _ _ _).trans (modEs_scope hi _ _ (by rfl))

theorem bidiClassifyBytes (hE : E.Lawful) (ht : S.top) {i : Nat} (hi : S.slots i)
    (tbl : PathTable) (data : Bytes) (w : World σ) :
    Frame S w (bidiClassifyBytes E tbl i data w).2.2 := by
  unfold Engine.bidiClassifyBytes
  split
  · rfl
  have hfeed : ∀ (a b : Nat) (pre : Preamble.Dec) (bs : Bytes), Frame S w
      (Engine.bufferType i bs ((w.auditSub a b).modEs i fun e => { e with pre })) :=
    fun _ _ _ _ =>
      (auditSub ht _ _ _).trans ((modEs_scope hi _ _ (by rfl)).trans (bufferType ht hi _ _))
  dsimp only
  split
  · exact hfeed _ _ _ _
  · exact (hfeed _ _ _ _).trans ((modEs_scope hi _ _ (by rfl)).trans (wtAssociate hE hi _ _ _))
  split
  · exact (hfeed _ _ _ _).trans (connFatal hE _ _)
  · exact (hfeed _ _ _ _).trans
      ((modEs_scope hi _ _ (by rfl)).trans (requestStreamBytes hE ht hi _ _ _))

theorem uniClassifyBytes (hE : E.Lawful) (ht : S.top) {i : Nat} (hi : S.slots i) (data : Bytes)
    (w : World σ) : Frame S w (uniClassifyBytes E i data w).2.2 := by
  unfold Engine.uniClassifyBytes
  have hfeed : ∀ (a b : Nat) (pre : Preamble.Dec),
      Frame S w ((w.auditSub a b).modEs i fun e => { e with pre }) := fun _ _ _ =>
    (auditSub ht _ _ _).trans (modEs_scope hi _ _ (by rfl))
  dsimp only
  split <;> dsimp only
  · exact hfeed _ _ _
  · exact (hfeed _ _ _).trans (wtAssociate hE hi _ _ _)
  · exact (hfeed _ _ _).trans (classifyUni hE ht hi _ _)

/-! ## Delivery -/

theorem wtDeliver (hE : E.Lawful) {i : Nat} (hi : S.slots i) (data : Bytes) (fin : Bool)
    (w : World σ) : Frame S w (wtDeliver E i data fin w) := by
  unfold Engine.wtDeliver
  have hclose : ∀ (f : Estream → Estream) (v : World σ),
      (f (v.es i)).generation = (v.es i).generation →
      Frame S v (Engine.wtReleaseIfDone E i (v.modEs i f)) := fun _ _ hg =>
    (modEs_scope hi _ _ hg).trans (wtReleaseIfDone _ _)
  have hdata : Frame S w
      (if !data.isEmpty || fin then E.notify (.wtStreamData i data fin) w else w) := by
    split
    · exact notify hE _ _
    · rfl
  dsimp only
  split
  · split
    · exact hclose _ _ rfl
    · rfl
  · generalize (if !data.isEmpty || fin then E.notify (.wtStreamData i data fin) w else w) = v
      at hdata ⊢
    split
    · exact hdata.trans (hclose _ _ rfl)
    · exact hdata

theorem wtDeliverAccounted (hE : E.Lawful) {i : Nat} (hi : S.slots i) (gen len : Nat)
    (fin : Bool) (n : Nat) (data : Bytes) (w : World σ) :
    Frame S w (wtDeliverAccounted E i gen len fin n data w).2.2 := by
  induction n generalizing data w with
  | zero => rfl
  | succ n ih =>
    unfold Engine.wtDeliverAccounted
    dsimp only
    repeat' split
    · rfl
    · rfl
    · exact wtDeliver hE hi _ _ _
    · exact (wtDeliver hE hi _ _ _).trans (ih _ _)

theorem requestDeliveryFin (hE : E.Lawful) (ht : S.top) {i : Nat} (hi : S.slots i) (fin : Bool)
    (w : World σ) : Frame S w (requestDeliveryFin E i fin w).2 := by
  unfold Engine.requestDeliveryFin
  split
  · rfl
  split
  · rfl
  split
  · rfl
  split
  · split
    · exact connFatal hE _ _
    · exact updConn_top (f := fun c => { c with parkedFin := true }) ht rfl rfl id rfl rfl (.of_eq rfl rfl)
  · exact (requestStreamFin hE ht hi _).trans (release_forget ht hi _)

theorem requestDelivery (hE : E.Lawful) (ht : S.top) {i : Nat} (hi : S.slots i)
    (tbl : PathTable) (data : Bytes) (fin : Bool) (w : World σ) :
    Frame S w (requestDelivery E tbl i data fin w).2 := by
  unfold Engine.requestDelivery
  split
  · exact sessionStreamPoisoned hE ht hi _
  · refine Frame.trans ?_ (requestDeliveryFin hE ht hi _ _)
    split
    · rfl
    · exact requestStreamBytes hE ht hi _ _ _

theorem sinkControl (hE : E.Lawful) (tbl : PathTable) (i : Nat) (data : Bytes) (w : World σ) :
    Frame .all w (sinkControl E tbl i data w) := by
  unfold Engine.sinkControl
  split
  · exact controlBytes hE _ _ _ _
  · rfl

theorem sinkQpack (hE : E.Lawful) (ht : S.top) {i : Nat} (hi : S.slots i) (data : Bytes) (w : World σ) :
    Frame S w (sinkQpack E i data w) := by
  unfold Engine.sinkQpack
  split
  · exact qpackBytes hE ht hi _ _
  · rfl

theorem sinkDeliveryFin (hE : E.Lawful) {i : Nat} (hi : S.slots i) (fin : Bool) (w : World σ) :
    Frame S w (sinkDeliveryFin E i fin w).2 := by
  unfold Engine.sinkDeliveryFin
  split
  · rfl
  split
  · rfl
  split
  · exact connFatal hE _ _
  · exact estreamRelease (.inl hi)

theorem sinkDelivery (hE : E.Lawful) (tbl : PathTable) (i : Nat) (data : Bytes) (fin : Bool)
    (w : World σ) : Frame .all w (sinkDelivery E tbl i data fin w).2 := by
  have hi : Scope.all.slots i := trivial
  exact (sinkControl hE _ _ _ _).trans ((sinkQpack hE trivial hi _ _).trans (sinkDeliveryFin hE hi _ _))

theorem uniDelivery (hE : E.Lawful) (tbl : PathTable) (accounted : Bool) (i gen len : Nat)
    (data : Bytes) (fin : Bool) (w : World σ) :
    Frame .all w (uniDelivery E tbl accounted i gen len data fin w).2.2 := by
  unfold Engine.uniDelivery
  have hclass : Frame .all w
      (if (w.es i).kind = .type ∧ !data.isEmpty then Engine.uniClassifyBytes E i data w
        else (true, data, w)).2.2 := by
    split
    · exact uniClassifyBytes hE trivial trivial _ _
    · rfl
  dsimp only
  generalize (if (w.es i).kind = .type ∧ !data.isEmpty then Engine.uniClassifyBytes E i data w
    else (true, data, w)) = x at hclass ⊢
  obtain ⟨live, data', v⟩ := x
  dsimp only at hclass ⊢
  split
  · exact hclass
  split
  · exact hclass
  split
  · split
    · exact hclass.trans (wtDeliverAccounted hE trivial _ _ _ _ _ _)
    · exact hclass.trans (wtDeliver hE trivial _ _ _)
  · exact hclass.trans (sinkDelivery hE _ _ _ _ _)

theorem classifiedDelivery (hE : E.Lawful) (tbl : PathTable) (accounted : Bool) (i gen len : Nat)
    (data : Bytes) (fin : Bool) (w : World σ) :
    Frame .all w (classifiedDelivery E tbl accounted i gen len data fin w).2.2 := by
  unfold Engine.classifiedDelivery
  split
  · exact requestDelivery hE trivial trivial _ _ _ _
  · exact uniDelivery hE _ _ _ _ _ _ _ _

theorem bidiDelivery (hE : E.Lawful) (tbl : PathTable) (accounted : Bool) (i gen len : Nat)
    (fin : Bool) (x : Bool × Bytes × World σ) :
    Frame .all x.2.2 (bidiDelivery E tbl accounted i gen len fin x).2.2 := by
  obtain ⟨live, data, w⟩ := x
  simp only [Engine.bidiDelivery]
  split
  · rfl
  split
  · rfl
  split
  · split
    · exact connFatal hE _ _
    · rfl
  · exact classifiedDelivery hE _ _ _ _ _ _ _ _

theorem streamBytes (hE : E.Lawful) (tbl : PathTable) (accounted : Bool) (i : Nat)
    (data : Bytes) (fin : Bool) (w : World σ) :
    Frame .all w (streamBytes E tbl accounted i data fin w).2.2 := by
  have hi : Scope.all.slots i := trivial
  unfold Engine.streamBytes
  split
  · rfl
  split
  · rfl
  dsimp only
  split
  · exact (bidiClassifyBytes hE trivial hi tbl data w).trans (bidiDelivery hE _ _ _ _ _ _ _)
  · exact classifiedDelivery hE _ _ _ _ _ _ _ _

/-! ## Reset, terminal, STOP_SENDING, native ids -/

theorem cancelIfParked (ht : S.top) (i : Nat) (w : World σ) :
    Frame S w (if w.conn.parkedEs = some i then Engine.parkedRequestCancel w else w) := by
  split
  · exact parkedRequestCancel ht _
  · rfl

theorem onStreamTerminal (hE : E.Lawful) (ht : S.top) {i : Nat} (hi : S.slots i)
    (w : World σ) : Frame S w (onStreamTerminal E i w).2 := by
  unfold Engine.onStreamTerminal
  dsimp only
  split
  · rfl
  split
  · rfl
  split
  · exact estreamRelease (.inl hi)
  · split
    · exact (cancelIfParked ht i w).trans (estreamRelease (.inl hi))
    · rfl
  · refine Frame.trans ?_ (estreamRelease (.inl hi))
    split
    · exact (modEs_scope hi _ _ (by rfl)).trans (notify hE _ _)
    · exact modEs_scope hi _ _ (by rfl)
  · rfl

theorem onStreamReset (hE : E.Lawful) (ht : S.top) {i : Nat} (hi : S.slots i) (err : Nat)
    (w : World σ) : Frame S w (onStreamReset E i err w).2 := by
  unfold Engine.onStreamReset Engine.wtReset
  dsimp only
  split
  · rfl
  split
  · rfl
  split
  · exact connFatal hE _ _
  split
  · exact (release_forget ht hi _).trans (sessionClosed hE _ _ _ _)
  split
  · split
    · exact (modEs_scope hi _ _ (by rfl)).trans (wtReleaseIfDone _ _)
    · exact (modEs_scope hi _ _ (by rfl)).trans ((notify hE _ _).trans (wtReleaseIfDone _ _))
  · have hfail : Frame S w
        (if (w.es i).kind = .connect ∧ w.conn.sessState = .sent ∧ !w.conn.sessionEstablished then
          Engine.sessionFailed E .badResponse w else w) := by
      split
      · exact sessionFailed hE _ _
      · rfl
    exact hfail.trans ((cancelIfParked ht i _).trans (estreamRelease (.inl hi)))

theorem onStopSending (hE : E.Lawful) (ht : S.top) {i : Nat} (hi : S.slots i) (err : Nat)
    (w : World σ) : Frame S w (onStopSending E i err w).2 := by
  unfold Engine.onStopSending
  split
  · rfl
  split
  · have hcancel := (requestStreamRefuseErr hE hi H3Err.requestRejected w).trans
      (parkedRequestCancel ht _)
    dsimp only
    split
    · exact hcancel.trans (estreamRelease (.inl hi))
    · exact hcancel
  split
  · have hstop : Frame S w
        (if (w.es i).wtSendCommit then
          w.modEs i fun e => { e with wtSendOpen := false, wtFinPending := false }
        else w) := by
      split
      · exact modEs_scope hi _ _ (by rfl)
      · rfl
    dsimp only
    generalize (if (w.es i).wtSendCommit then
      w.modEs i fun e => { e with wtSendOpen := false, wtFinPending := false }
      else w) = v at hstop ⊢
    split
    · exact hstop.trans ((notify hE _ _).trans (wtReleaseIfDone _ _))
    · exact hstop.trans (notify hE _ _)
  · rfl

theorem onStreamNativeId (hE : E.Lawful) (ht : S.top) {i : Nat} (hi : S.slots i) (id : Nat)
    (w : World σ) : Frame S w (onStreamNativeId E i id w) := by
  unfold Engine.onStreamNativeId
  split
  · rfl
  split
  · exact connFatal hE _ _
  dsimp only
  split
  · exact (modEs_scope hi _ _ (by rfl)).trans (clientMaybeEstablish hE ht hi _)
  · exact modEs_scope hi _ _ (by rfl)

theorem onStreamSendShutdown (hE : E.Lawful) {i : Nat} (hi : S.slots i) (ds gen : Nat)
    (graceful : Bool) (w : World σ) : Frame S w (onStreamSendShutdown E i ds gen graceful w) := by
  unfold Engine.onStreamSendShutdown
  dsimp only
  split
  · rfl
  generalize (if graceful then Callback.wtStreamSendCommitted i else .wtStreamTerminal i) = c
  split
  · exact (modEs_scope hi _ _ (by rfl)).trans ((notify hE _ _).trans (wtReleaseIfDone _ _))
  · exact (modEs_scope hi _ _ (by rfl)).trans (notify hE _ _)

theorem onStreamWritable (hE : E.Lawful) (i : Nat) (w : World σ) :
    Frame S w (onStreamWritable E i w) := by
  unfold Engine.onStreamWritable
  split
  · rfl
  · exact notify hE _ _

theorem setTransportError (e : TransportError) (w : World σ) :
    Frame S w (setTransportError e w) := by
  unfold Engine.setTransportError
  split
  · rfl
  · exact connLatchError _ _

theorem onDatagram (hE : E.Lawful) (ht : S.top) (data : Bytes) (w : World σ) :
    Frame S w (onDatagram E data w).2 := by
  unfold Engine.onDatagram
  split
  · rfl
  have hlocals := connOpenLocalsIfDeferred hE ht w
  dsimp only
  repeat' split
  · exact hlocals
  · exact hlocals.trans (notify hE _ _)
  · exact hlocals.trans (connFatal hE _ _)
  · exact hlocals.trans (connFatal hE _ _)
  · exact hlocals.trans (notify hE _ _)
  · exact hlocals.trans (updConn_top
      (f := fun c => { c with dgramsDropped := c.dgramsDropped + 1 }) ht rfl rfl id rfl rfl (.of_eq rfl rfl))

/-! ## Admission -/

theorem admissionInit (hE : E.Lawful) (ht : S.top) {r : Nat} (hr : S.slots r) (bidi : Bool)
    (id : Nat) (w : World σ) : Frame S w (admissionInit E r bidi id w).2 := by
  unfold Engine.admissionInit
  split
  · rfl
  split
  · rfl
  have hlocals := connOpenLocalsIfDeferred hE ht w
  dsimp only
  split
  · exact hlocals
  · have hrec : ∀ p, Frame S w
        ((Engine.connOpenLocalsIfDeferred E w).2.newDetachedDs.2.setAdmission r p) := fun _ =>
      hlocals.trans ((newDetachedDs _).trans (setAdmission _ _ _))
    split
    · exact (hrec _).trans (putEs (.inl hr) (by rfl))
    · exact hrec _

theorem admissionWt (hE : E.Lawful) (r : Nat) (p : Admission) (sid used len : Nat)
    (w : World σ) : Frame S w (admissionWt E r p sid used len w).2.2 := by
  unfold Engine.admissionWt
  split
  · exact connFatal hE _ _
  split
  · exact (shutdownRaw hE _ _ _ _ _).trans (modAdmission _ _ _)
  · exact modAdmission _ _ _

theorem admissionBidi (hE : E.Lawful) (tbl : PathTable) (r : Nat) (w : World σ) :
    Frame .all w (admissionBidi E tbl r w).2.2 := by
  unfold Engine.admissionBidi
  split
  · exact connFatal hE _ _
  dsimp only
  split
  · rfl
  · next w' he =>
    exact (admissionEntry he).2.trans (requestStreamBytes hE trivial trivial _ _ _)

theorem admissionUni (hE : E.Lawful) (r type : Nat) (w : World σ) :
    Frame .all w (admissionUni E r type w).2.2 := by
  unfold Engine.admissionUni
  dsimp only
  split
  · exact connFatal hE _ _
  split
  · exact modAdmission _ _ _
  generalize (if type = 0 then w.conn.peerControlSeen
    else if type = 2 then w.conn.qpackEncSeen else w.conn.qpackDecSeen) = seen
  split
  · exact connFatal hE _ _
  split
  · rfl
  · next w' he => exact (admissionEntry he).2.trans (classifyUni hE trivial trivial _ _)

theorem admissionFin (hE : E.Lawful) (r : Nat) (p : Admission) (used : Nat) (w : World σ) :
    Frame S w (admissionFin E r p used w).2.2 := by
  unfold Engine.admissionFin
  split
  · exact connFatal hE _ _
  · exact modAdmission _ _ _

theorem admissionRest (hE : E.Lawful) (tbl : PathTable) (r used : Nat) (data : Bytes)
    (fin : Bool) (x : Rc × Option Nat × World σ) :
    Frame .all x.2.2 (admissionRest E tbl r used data fin x).2.2 := by
  obtain ⟨rc, es, w⟩ := x
  simp only [Engine.admissionRest]
  split
  · rfl
  split
  · rfl
  split
  · rfl
  split
  · rfl
  · exact streamBytes hE _ _ _ _ _ _

theorem admissionFeed (ht : S.top) (r : Nat) (p : Admission) (decoder : Preamble.Dec) (used : Nat)
    (data : Bytes) (w : World σ) : Frame S w (admissionFeed r p decoder used data w) := by
  unfold Engine.admissionFeed
  refine Frame.trans ?_ (setAdmission _ _ _)
  split
  · exact (auditSub ht _ _ _).trans (auditCopy ht _ _ _ _)
  · exact auditSub ht _ _ _

theorem admissionPrefix (hE : E.Lawful) (tbl : PathTable) (r : Nat) (p : Admission)
    (data : Bytes) (fin : Bool) (w : World σ) :
    Frame .all w (admissionPrefix E tbl r p data fin w).2.2 := by
  unfold Engine.admissionPrefix
  obtain ⟨res, decoder, used⟩ := Preamble.decFeed p.decoder (if p.bidi then .bidi else .uni) data
  dsimp only
  refine (admissionFeed trivial r p decoder used data w).trans ?_
  split
  · split
    · exact admissionFin hE _ _ _ _
    · rfl
  · exact admissionWt hE _ _ _ _ _ _
  · refine Frame.trans ?_ (admissionRest hE _ _ _ _ _ _)
    split
    · exact admissionBidi hE _ _ _
    · exact admissionUni hE _ _ _

theorem peerAdmissionBytes (hE : E.Lawful) (tbl : PathTable) (r : Nat) (data : Bytes)
    (fin : Bool) (w : World σ) : Frame .all w (peerAdmissionBytes E tbl r data fin w).2.2 := by
  unfold Engine.peerAdmissionBytes
  split
  · rfl
  split
  · rfl
  split
  · exact streamBytes hE _ _ _ _ _ _
  · split
    · rfl
    · rfl
    · exact admissionPrefix hE _ _ _ _ _ _
    · exact admissionPrefix hE _ _ _ _ _ _

theorem peerAdmit (hE : E.Lawful) (r : Nat) (w : World σ) : Frame .all w (peerAdmit E r w).2 := by
  unfold Engine.peerAdmit
  split
  · rfl
  split
  · rfl
  split
  · rfl
  split
  · rfl
  split
  · rfl
  split
  · rfl
  · next w' he => exact (admissionEntry he).2.trans (wtAssociate hE trivial _ _ _)

theorem streamRetire {i : Nat} (hi : S.slots i) (ds : Nat) (w : World σ) :
    Frame S w (streamRetire i ds w) := by
  unfold Engine.streamRetire
  split
  · exact putEs (.inl hi) rfl
  · rfl

/-! ## Steps -/

theorem input (hE : E.Lawful) (tbl : PathTable) (inp : Input) (w : World σ) :
    Frame .all w (inp.apply E tbl w) := by
  have hall : ∀ i, Scope.all.slots i := fun _ => trivial
  cases inp with
  | start => exact start trivial w
  | setPaths paths => rfl
  | peerUniOpened id => exact onPeerOpened hE trivial false id w
  | peerBidiOpened id => exact onPeerOpened hE trivial true id w
  | streamBytes i data fin => exact streamBytes hE tbl false i data fin w
  | streamBytesAccounted i data fin => exact streamBytes hE tbl true i data fin w
  | streamReset i err => exact onStreamReset hE trivial (hall i) err w
  | streamTerminal i => exact onStreamTerminal hE trivial (hall i) w
  | stopSending i err => exact onStopSending hE trivial (hall i) err w
  | nativeId i id => exact onStreamNativeId hE trivial (hall i) id w
  | sendShutdown i ds gen graceful => exact onStreamSendShutdown hE (hall i) ds gen graceful w
  | sendComplete cookie canceled => exact notify hE _ w
  | writable i => exact onStreamWritable hE i w
  | datagram data => exact onDatagram hE trivial data w
  | connClosed err remote => exact onConnClosed hE err remote w
  | transportError e => exact setTransportError e w
  | admissionInit r bidi id => exact admissionInit hE trivial (hall r) bidi id w
  | admissionBytes r data fin => exact peerAdmissionBytes hE tbl r data fin w
  | peerAdmit r => exact peerAdmit hE r w
  | admissionForget r => exact setAdmission _ _ w
  | streamRetire i ds => exact streamRetire (hall i) ds w
  | call a => exact call hE a w

end Frame

theorem Frame.step (env : Env) (depth : Nat) (s : State) (inp : Input) :
    Frame .all s.world (step env depth s inp).world := by
  have hin : Frame .all s.world
      (if inp.allowed s.world.conn then
        { s with world := inp.apply (env.ctx depth) s.paths s.world } else s).world := by
    split
    · exact .input (env.lawful depth) _ _ _
    · rfl
  cases inp with
  | setPaths paths => rfl
  | _ => exact hin

theorem Frame.run (env : Env) (depth : Nat) (s : State) (inputs : List Input) :
    Frame .all s.world (run env depth s inputs).world := by
  induction inputs generalizing s with
  | nil => rfl
  | cons inp inputs ih => exact (Frame.step env depth s inp).trans (ih _)

end Wtquic.Engine
