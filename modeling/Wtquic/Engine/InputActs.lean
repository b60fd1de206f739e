-- SUMMARY: The acts of resets, STOP_SENDING, native ids, datagrams and admission; every input is a sequence of acts.
import Wtquic.Engine.StreamActs

namespace Wtquic.Engine

/-! # The acts of inputs -/

variable {σ : Type} {E : Ctx σ} {N : News} {D : Doomed} {w w' w'' : World σ}

namespace Leads

/-! ## Reports that may end a stream -/

theorem wtReleaseIfDone (hE : E.Sound) (i : Nat) (w : World σ) :
    Leads E N D w (wtReleaseIfDone E i w) := by
  unfold Engine.wtReleaseIfDone
  split
  · next hd =>
    have hk := Estream.kind_of_wtDone hd
    exact intro fun hw =>
      estreamRelease hE (by simp [hk]) (by simp [hk]) (hw.not_parked (by simp [hk]))
  · rfl

theorem not_done_wtReleaseIfDone (i : Nat) (w : World σ) :
    ((Engine.wtReleaseIfDone E i w).es i).wtDone = false := by
  unfold Engine.wtReleaseIfDone
  split
  · simp [Estream.wtDone, Estream.released]
  · next hd => simpa using hd

/-- A write that closes halves, and its report. The stream is released behind the report, or
has gone in it. -/
theorem report (hE : E.Sound) {i : Nat} {f : Estream → Estream} {c : Callback}
    (ho : w.conn.closed = false) (hk : (w.es i).kind = .wt)
    (hf : (f (w.es i)).shut.trunk = (w.es i).shut.trunk)
    (hshape : (w.es i).Shaped → (f (w.es i)).Shaped)
    (hlive : (w.es i).wtLive = false → (f (w.es i)).wtLive = false)
    (hdrain : (f (w.es i)).wtRecvDrain = (w.es i).wtRecvDrain) (hc : c.casual) :
    Leads E N .none w (Engine.wtReleaseIfDone E i (E.notify c (w.modEs i f))) ∧
      (((E.notify c (w.modEs i f)).es i).generation ≠ (w.es i).generation →
        Leads E N .none w (E.notify c (w.modEs i f))) := by
  have hkf : (f (w.es i)).kind = .wt := (congrArg Estream.kind hf :).trans hk
  have hgf : (f (w.es i)).generation = (w.es i).generation := (congrArg Estream.generation hf :)
  have hes : (w.modEs i f).es i = f (w.es i) := World.es_modEs_self _ _ _
  have hsess : (w.modEs i f).conn.sessState = w.conn.sessState := by simp
  have hopen : (w.modEs i f).conn.closed = false := by simpa using ho
  have hwrite : ∀ D : Doomed, (f (w.es i)).wtDone = false ∨ D .wt i →
      Leads E N D w (E.notify c (w.modEs i f)) := fun D hd =>
    (write hE fun hw => .of_halves hw hk hf hshape hlive hd).trans (notify hE hc hopen)
  by_cases hdone : (f (w.es i)).wtDone
  · -- only a stream of a running session is finished by closing its halves
    have hdoom := hwrite (.slot .wt i) (.inr ⟨rfl, rfl⟩)
    refine ⟨(hdoom.trans (wtReleaseIfDone hE i _)).close fun hv =>
      hv.discharge (fun j hd => ?_) (fun j hd => nomatch hd.1), fun hgen => intro fun hw => ?_⟩
    · rw [hd.2]
      exact not_done_wtReleaseIfDone _ _
    have ha : w.conn.sessState.active := by
      by_contra ha
      have hd := draining_of_inactive hw hk (by simpa using ha)
      simp [Estream.wtDone, hdrain, hd] at hdone
    refine hdoom.close fun hv => hv.discharge ?_ fun j hd => nomatch hd.1
    rintro j ⟨-, rfl⟩
    rcases hE.dormant c (w.modEs j f) (by rw [hsess]; exact ha) with ⟨-, hs⟩ | ⟨-, hs⟩
    · rcases hs j (by rw [hes]; exact hdone) with ⟨-, hg⟩ | hfree
      · rw [hes, hgf] at hg
        exact absurd hg hgen
      · simp [Estream.wtDone, hfree]
    · obtain ⟨u, hu⟩ := hs j (by rw [hes]; exact hdone)
      rw [hes] at hu
      exact absurd (by rw [hu, ← hgf]) hgen
  · have hplain := hwrite .none (.inl (by simpa using hdone))
    exact ⟨hplain.trans (wtReleaseIfDone hE i _), fun _ => hplain⟩

/-! ## Reset and STOP_SENDING -/

theorem wtReset (hE : E.Sound) {i : Nat} (err : Nat) (ho : w.conn.closed = false)
    (hk : (w.es i).kind = .wt) : Leads E N .none w (wtReset E i err w) := by
  unfold Engine.wtReset
  split
  · exact settle hE hk (fun h => h.less rfl rfl rfl h.pending id id) (by simp [Estream.wtLive])
      (by rfl)
  · exact (report hE ho hk (by rfl) (fun h => by exact h.less rfl rfl rfl h.pending id (by rintro ⟨⟩))
      (by simp +contextual [Estream.wtLive]) (by rfl) (by rfl)).1

theorem onStreamReset (hE : E.Sound) (i err : Nat) (w : World σ) :
    Leads E N .none w (onStreamReset E i err w).2 := by
  refine intro fun hw => ?_
  unfold Engine.onStreamReset
  dsimp only
  split
  · rfl
  next ho =>
  split
  · rfl
  next hne =>
  split
  · exact connFatal hE _ _
  next hcrit =>
  rw [not_or] at hcrit
  split
  · next hss =>
    have hp : w.conn.parkedEs ≠ some i := fun hp => by
      have := (hw.parked i hp).2.1
      simp [hss] at this
    exact (releaseForget hE hne hcrit hp).trans (sessionClosed hE _ _ _ _)
  split
  · next hk => exact wtReset hE err (by simpa using ho) hk
  -- an unanswered CONNECT fails with its stream
  have hfail : Leads E N (.slot .connect i) w
      (if (w.es i).kind = .connect ∧ w.conn.sessState = .sent ∧ !w.conn.sessionEstablished then
        Engine.sessionFailed E .badResponse w else w) := by
    split
    · next h =>
      exact sessionFailed hE (by rw [h.2.1]; rfl) (hw.client i h.1)
        fun hv => judged_of_single hv h.1 (.inr (.inr ⟨rfl, rfl⟩))
    · rfl
  have hes : (if (w.es i).kind = .connect ∧ w.conn.sessState = .sent ∧ !w.conn.sessionEstablished
      then Engine.sessionFailed E .badResponse w else w).es i = w.es i := by
    split
    · next h =>
      exact (Frame.sessionFailed (S := .call) hE.toLawful _ w).http i id (by rw [h.1]; rfl)
    · rfl
  dsimp only
  generalize (if (w.es i).kind = .connect ∧ w.conn.sessState = .sent ∧ !w.conn.sessionEstablished
    then Engine.sessionFailed E .badResponse w else w) = v at hfail hes ⊢
  have hcancel : Leads E N (.slot .connect i) v
      (if v.conn.parkedEs = some i then Engine.parkedRequestCancel v else v) := by
    split
    · exact parkedRequestCancel hE _
    · rfl
  have hesc : (if v.conn.parkedEs = some i then Engine.parkedRequestCancel v else v).es i
      = w.es i := by
    rw [← hes]
    split <;> rfl
  have hpark : (if v.conn.parkedEs = some i then Engine.parkedRequestCancel v else v).conn.parkedEs
      ≠ some i := by
    split
    · exact fun h => nomatch h
    · assumption
  generalize (if v.conn.parkedEs = some i then Engine.parkedRequestCancel v else v) = u
    at hcancel hesc hpark ⊢
  refine ((hfail.trans hcancel).trans (estreamRelease hE ?_ ?_ hpark)).close fun hx =>
    hx.discharge (fun j hd => nomatch hd.1) ?_
  · rw [hesc]
    exact hne
  · rw [hesc]
    exact hcrit
  · rintro j ⟨-, rfl⟩ hc
    simp [Estream.released] at hc

theorem onStopSending (hE : E.Sound) (i err : Nat) (w : World σ) :
    Leads E N .none w (onStopSending E i err w).2 := by
  refine intro fun hw => ?_
  unfold Engine.onStopSending
  split
  · rfl
  next ho =>
  split
  · next hp =>
    have hk := hw.parked i hp
    have hrefuse := (requestStreamRefuseErr (N := N) (D := .none) hE (.inl hk.1) H3Err.requestRejected).trans
      (parkedRequestCancel hE _)
    have hkind := (Keeps.requestStreamRefuseErr (w := w) (i := i) hE.toLawful (by rw [hk.1]; rfl)
      H3Err.requestRejected).kind
    have hcancel : ∀ v : World σ, (Engine.parkedRequestCancel v).es = v.es := fun _ => rfl
    dsimp only
    split
    · refine hrefuse.trans (estreamRelease hE ?_ ?_ fun h => nomatch h) <;>
        rw [hcancel, hkind, hk.1] <;> simp
    · exact hrefuse
  split
  · next hk =>
    have ho : w.conn.closed = false := by simpa using ho
    dsimp only
    cases hcommit : (w.es i).wtSendCommit with
    | false =>
      simp only [Bool.false_and, Bool.false_eq_true, if_false]
      exact notify hE rfl ho
    | true =>
      have hstop := report (N := N) hE (c := .wtStreamStop i ((ErrMap.h3ErrorToApp err).getD 0))
        (f := fun e => { e with wtSendOpen := false, wtFinPending := false }) ho hk (by rfl)
        (fun h => h.less rfl rfl rfl nofun nofun id)
        (by simp +contextual [Estream.wtLive]) (by rfl) (by rfl)
      simp only [Bool.true_and, if_true]
      split
      · exact hstop.1
      · next hg => exact hstop.2 (by simpa using hg)
  · rfl

/-! ## Native ids and completions -/

/-- Under a GOAWAY that refuses it, a CONNECT is given up when its id is reported after its
response; without a response the report must be heeded. -/
theorem onStreamNativeId (hE : E.Sound) (i id : Nat) (w : World σ) (hn : N.named id)
    (hh : N.heeded → nativeIdOk w.conn i id → (w.es i).kind = .connect →
      w.conn.sessState = .sent → w.conn.clientResponseOk = false →
      ∀ g, w.conn.goaway = some g → id < g) :
    Leads E N D w (onStreamNativeId E i id w) := by
  unfold Engine.onStreamNativeId
  split
  · rfl
  split
  · exact connFatal hE _ _
  next hok =>
  have hok : nativeIdOk w.conn i id := by simpa using hok
  have hk : (w.es i).kind ≠ .free := by
    rcases ((nativeIdOk_iff w i id).mp hok).kind with hk | ⟨hk, -⟩ <;> simp [hk]
  rw [World.modEs_of_occupied hk]
  dsimp only
  by_cases hbad : (w.es i).kind = .connect ∧ w.conn.sessState = .sent ∧ w.conn.clientResponseOk ∧
      w.conn.goaway.any (· ≤ id)
  · obtain ⟨hc, hs, hr, hg⟩ := hbad
    refine intro fun hw => ?_
    rw [if_pos (by simpa using ⟨hc, hw.client i hc⟩)]
    unfold Engine.clientMaybeEstablish
    rw [if_neg (by simp [hs, hr]), if_pos (by simpa using hg)]
    have hdead : (w.putEs i { w.es i with id, nativeIdPending := false }).modEs i
        (fun e => { e with requestDead := true }) = giveUp i id w.conn.goaway w := by
      rw [World.modEs_of_occupied (by simpa using hk), putEs_putEs, World.es_putEs_self]
      rfl
    refine refuse hE (act hE ?_)
    rw [hdead]
    exact .givenUp i id _ hs hc (fun g hg => ⟨g, hg, Nat.le_refl g⟩) (.inr ⟨hok, hn⟩)
  · have hid : Leads E N D w (w.putEs i { w.es i with id, nativeIdPending := false }) := by
      refine act hE (.named i id hok hn fun hheed hc hs g hg => ?_)
      by_cases hr : w.conn.clientResponseOk
      · have hany : w.conn.goaway.any (· ≤ id) = false := by
          by_contra hany
          exact hbad ⟨hc, hs, hr, by simpa using hany⟩
        simpa [hg] using hany
      · exact hh hheed hok hc hs (by simpa using hr) g hg
    split
    · next h => exact hid.trans (clientMaybeEstablish hE h.1)
    · exact hid

theorem onStreamSendShutdown (hE : E.Sound) (i ds gen : Nat) (graceful : Bool) (w : World σ) :
    Leads E N .none w (onStreamSendShutdown E i ds gen graceful w) := by
  refine intro fun hw => ?_
  unfold Engine.onStreamSendShutdown
  dsimp only
  split
  · rfl
  next h =>
  simp only [Bool.or_eq_true, not_or, Bool.not_eq_true, bne_eq_false_iff_eq] at h
  obtain ⟨⟨⟨⟨⟨⟨⟨⟨⟨⟨ho, ha⟩, -⟩, -⟩, hk⟩, -⟩, hgen⟩, -⟩, -⟩, -⟩, -⟩ := h
  have hc : (if graceful then Callback.wtStreamSendCommitted i else .wtStreamTerminal i).casual := by
    cases graceful <;> rfl
  generalize (if graceful then Callback.wtStreamSendCommitted i else .wtStreamTerminal i) = c at hc ⊢
  have hreport := report (N := N) (w := w) (i := i) (c := c) hE
    (f := fun e => { e with wtFinPending := false, wtSendOpen := false }) ho hk (by rfl)
    (fun h => h.less rfl rfl rfl nofun nofun id)
    (by simp +contextual [Estream.wtLive]) (by rfl) hc
  split
  · exact hreport.1
  · next hg => exact hreport.2 (hgen ▸ hg)

theorem onSendComplete (hE : E.Sound) (cookie : Nat) (canceled : Bool) (w : World σ) :
    Leads E N D w (onSendComplete E cookie canceled w) :=
  act hE (.notify _ rfl (.inr rfl))

theorem onStreamWritable (hE : E.Sound) (i : Nat) (w : World σ) :
    Leads E N D w (onStreamWritable E i w) := by
  unfold Engine.onStreamWritable
  split
  · rfl
  · next h =>
    simp only [Bool.or_eq_true, not_or, Bool.not_eq_true] at h
    exact notify hE rfl h.1

theorem setTransportError (hE : E.Sound) (e : TransportError) (w : World σ) :
    Leads E N D w (setTransportError e w) := by
  unfold Engine.setTransportError
  split
  · rfl
  · exact connLatchError hE _ _

theorem onDatagram (hE : E.Sound) (data : Bytes) (w : World σ) :
    Leads E N D w (onDatagram E data w).2 := by
  unfold Engine.onDatagram
  split
  · rfl
  have hlocals := connOpenLocalsIfDeferred (N := N) (D := D) hE w
  dsimp only
  generalize Engine.connOpenLocalsIfDeferred E w = x at hlocals ⊢
  obtain ⟨rc, v⟩ := x
  dsimp only at hlocals ⊢
  have hreport : ∀ c : Callback, c.casual → sessionActive v → Leads E N D w (E.notify c v) :=
    fun c hc ha => hlocals.trans (intro fun hv => notify hE hc (hv.open_of_active ha))
  split
  · exact hlocals
  split
  · next h =>
    simp only [Bool.and_eq_true] at h
    exact hreport _ rfl h.1
  split
  · exact hlocals.trans (connFatal hE _ _)
  split
  · exact hlocals.trans (connFatal hE _ _)
  split
  · next h =>
    simp only [Bool.and_eq_true] at h
    exact hreport _ rfl h.1
  · have hdrop : Leads E N D v (v.updConn fun c => { c with dgramsDropped := c.dgramsDropped + 1 }) :=
      updConn hE rfl rfl rfl rfl rfl fun _ => .inl
    exact hlocals.trans hdrop

/-! ## Opening -/

/-- The fields of a connection that bootstrap leaves alone. -/
def Boots (c c' : Conn) : Prop :=
  c'.peer = c.peer ∧ c'.admissionPeers = c.admissionPeers ∧ c'.config = c.config ∧
    c'.core = c.core

theorem Boots.trans {a b c : Conn} (h : Boots a b) (h' : Boots b c) : Boots a c :=
  ⟨h'.1.trans h.1, h'.2.1.trans h.2.1, h'.2.2.1.trans h.2.2.1, h'.2.2.2.trans h.2.2.2⟩

theorem peerId_boots {c c' : Conn} {id : Nat} (h : c.PeerId id) (hb : Boots c c') :
    c'.PeerId id := by
  obtain ⟨hpeer, hrec, -, hcore⟩ := hb
  have hpersp : c'.persp = c.persp := (congrArg Core.persp hcore :)
  have hest : c'.sessionEstablished = c.sessionEstablished :=
    (congrArg Core.sessionEstablished hcore :)
  have hsid : c'.sessionId = c.sessionId := (congrArg Core.sessionId hcore :)
  refine ⟨h.valid, hpersp ▸ h.side, ?_, ?_, ?_⟩
  · rw [hpeer]
    exact h.slots
  · rw [hest, hsid]
    exact h.session
  · rw [hrec]
    exact h.records

theorem boots_openLocal (store : Nat → Conn → Conn) (hs : ∀ ds c, Boots c (store ds c))
    (bytes : Bytes) (v : World σ) : Boots v.conn (Engine.openLocal E store bytes v).2.conn := by
  unfold Engine.openLocal
  dsimp only
  split
  · exact ⟨rfl, rfl, rfl, rfl⟩
  · exact hs _ v.conn

theorem boots_connOpenLocals (v : World σ) :
    Boots v.conn (Engine.connOpenLocals E v).2.conn := by
  have hctrl := boots_openLocal (E := E) (fun ds c => { c with localCtrl := ds })
    fun _ _ => ⟨rfl, rfl, rfl, rfl⟩
  have henc := boots_openLocal (E := E) (fun ds c => { c with localQpkEnc := ds })
    fun _ _ => ⟨rfl, rfl, rfl, rfl⟩
  have hdec := boots_openLocal (E := E) (fun ds c => { c with localQpkDec := ds })
    fun _ _ => ⟨rfl, rfl, rfl, rfl⟩
  have htry : Boots v.conn (v.updConn fun c => { c with localsAttempted := true }).conn :=
    ⟨rfl, rfl, rfl, rfl⟩
  unfold Engine.connOpenLocals
  dsimp only
  split
  · exact ⟨rfl, rfl, rfl, rfl⟩
  split
  · exact htry.trans (hctrl _ _)
  split
  · exact htry.trans ((hctrl _ _).trans (henc _ _))
  · exact htry.trans ((hctrl _ _).trans ((henc _ _).trans (hdec _ _)))

theorem boots_connOpenLocalsIfDeferred
    (h : (Engine.connOpenLocalsIfDeferred E w).1 = .ok) :
    Boots w.conn (Engine.connOpenLocalsIfDeferred E w).2.conn := by
  unfold Engine.connOpenLocalsIfDeferred at h ⊢
  split
  · exact ⟨rfl, rfl, rfl, rfl⟩
  next hdef =>
  simp only [hdef] at h
  dsimp only at h ⊢
  split
  · next hrc => simp [hrc] at h
  · exact boots_connOpenLocals w

/-- A peer stream comes up, on a connection without admission records. -/
theorem onPeerOpened (hE : E.Sound) (bidi : Bool) (id : Nat)
    (hadm : w.conn.admissionEnabled = false) (hn : N.fresh → w.conn.PeerId id) :
    Leads E N D w (onPeerOpened E bidi id w).2 := by
  unfold Engine.onPeerOpened
  split
  · rfl
  have hlocals := connOpenLocalsIfDeferred (N := N) (D := D) hE w
  have hkeep : (Engine.connOpenLocalsIfDeferred E w).2.conn.admissionEnabled = false := by
    rw [← hadm]
    exact (congrArg Conn.admissionEnabled
      (Frame.connOpenLocalsIfDeferred (S := .all) hE.toLawful trivial w).config :)
  have hboots := boots_connOpenLocalsIfDeferred (E := E) (w := w)
  dsimp only
  generalize Engine.connOpenLocalsIfDeferred E w = x at hlocals hkeep hboots ⊢
  obtain ⟨rc, v⟩ := x
  dsimp only at hlocals hkeep hboots ⊢
  split
  · exact hlocals
  next hrc =>
  have hboots := hboots (by simpa using hrc)
  split
  · next i hi =>
    obtain ⟨-, hlt, hfree, -⟩ := World.findFree_some hi
    refine hlocals.trans (intro fun hv => act hE (.born i _ hfree ?_ ?_ rfl ?_ rfl
      fun hf => peerId_boots (hn hf) hboots))
    · cases bidi <;> simp
    · cases bidi <;> simp
    · exact
        { linked := hv.named
          bound := hlt
          shaped := ⟨nofun, nofun, fun _ _ => rfl, fun _ _ => rfl⟩
          foreign := fun _ => rfl
          owes := by cases bidi <;> simp
          resident := fun hb => by simp [hv.admitted hb] at hkeep
          alive := by cases bidi <;> simp
          quiet := by cases bidi <;> simp
          asked := by cases bidi <;> simp
          answered := by cases bidi <;> simp
          capsule := by simp
          served := by cases bidi <;> simp
          opened := by simp
          unread := by simp
          typed := fun _ => ⟨rfl, fun _ => rfl, fun hp => nomatch hp⟩ }
  · exact hlocals.trans ((newDetachedDs hE v).trans (shutdownRaw hE _ _ _ _ _))

/-! ## Admission records -/

/-- A record that is changed but keeps its stream. -/
theorem modAdmission (hE : E.Sound) {r : Nat} {f : Admission → Admission}
    (h : Coherent D w → ∀ p, w.conn.admissionPeers r = some p → RecordOk w r (f p)) :
    Leads E N D w (w.modAdmission r f) := by
  refine intro fun hw => ?_
  unfold World.modAdmission
  cases hp : w.conn.admissionPeers r with
  | none => exact act hE (.forget r)
  | some p => exact act hE (.record r (f p) (h hw p hp))

/-- A record that sinks its stream. -/
theorem drainRecord (hE : E.Sound) {r : Nat} :
    Leads E N D w (w.modAdmission r fun p => { p with state := .drain }) :=
  modAdmission hE fun _ p hp => ⟨⟨p, hp, rfl, rfl, fun hw => by simp [Admission.waits] at hw⟩,
    (fun ht => nomatch ht), (fun _ => .inr rfl), fun ht => nomatch ht⟩

/-! ## New records -/

theorem admissionInit (hE : E.Sound) (r : Nat) (bidi : Bool) (id : Nat) (w : World σ)
    (hn : N.fresh → w.conn.PeerId id) : Leads E N D w (admissionInit E r bidi id w).2 := by
  unfold Engine.admissionInit
  split
  · rfl
  next hres =>
  split
  · rfl
  have hlocals := connOpenLocalsIfDeferred (N := N) (D := D) hE w
  have hkeep := boots_connOpenLocalsIfDeferred (E := E) (w := w)
  dsimp only
  generalize Engine.connOpenLocalsIfDeferred E w = x at hlocals hkeep ⊢
  obtain ⟨rc, v⟩ := x
  dsimp only at hlocals hkeep ⊢
  split
  · exact hlocals
  next hrc =>
  have hboots := hkeep (by simpa using hrc)
  have ⟨hpeer, hrec, hcfg, _⟩ := hboots
  -- the reservation is as good as it was before the bootstrap
  have hres : reservationOk v.conn bidi r := by
    have hb : v.conn.budgeted = w.conn.budgeted := (congrArg Conn.budgeted hcfg :)
    have ha : v.conn.admissionEnabled = w.conn.admissionEnabled :=
      (congrArg Conn.admissionEnabled hcfg :)
    have hc : v.conn.peerCapacity = w.conn.peerCapacity := (congrArg Conn.peerCapacity hcfg :)
    have hu : v.conn.peerUni = w.conn.peerUni := (congrArg Conn.peerUni hcfg :)
    have hsame : reservationOk v.conn bidi r = reservationOk w.conn bidi r := by
      simp only [reservationOk, hpeer, hrec, hb, ha, hc, hu]
    simpa [hsame] using hres
  simp only [reservationOk, Bool.and_eq_true, Option.isNone_iff_eq_none] at hres
  refine hlocals.trans (intro fun hv => ?_)
  have hr : r < v.conn.peerCapacity := by
    have hres := hres.2
    split at hres
    · simp only [Bool.and_eq_true, decide_eq_true_eq] at hres
      exact hres.1.1
    · next hb =>
      simp only [Bool.and_eq_true, decide_eq_true_eq] at hres
      rw [(hv.legacy (by simpa using hb)).1]
      exact hres.1
  have henroll : Leads E N D v (v.newDetachedDs.2.setAdmission r
      (some { bidi, id, ds := v.newDetachedDs.1 })) :=
    act hE (.enroll r _ hres.1.2 hr rfl rfl rfl fun hf => peerId_boots (hn hf) hboots)
  split
  · next hb =>
    have hb : v.conn.budgeted := hb
    have hfree : (v.es r).kind = .free := by
      by_contra hk
      have := (hv.slots r hk).resident hb
      simp [hb, show (v.conn.peer r).resident from this] at hres
    exact henroll.trans (act hE (.spoil r _ hfree hfree))
  · exact henroll

/-! ## Admission bytes -/

theorem admissionFeed (hE : E.Sound) {r : Nat} {p : Admission}
    (hp : w.conn.admissionPeers r = some p) (decoder : Preamble.Dec) (used : Nat) (data : Bytes) :
    Leads E N D w (admissionFeed r p decoder used data w) := by
  unfold Engine.admissionFeed
  have haudit : Leads E N D w (if used > 0 then
      (w.auditSub data.length used).auditCopy .admissionPrefix p.pfx.length used
      else w.auditSub data.length used) := by
    split
    · exact (auditSub hE _ _ w).trans (auditCopy hE _ _ _ _)
    · exact auditSub hE _ _ w
  have hconn : (if used > 0 then
      (w.auditSub data.length used).auditCopy .admissionPrefix p.pfx.length used
      else w.auditSub data.length used).conn = w.conn := by
    split <;> simp [World.auditSub, World.auditCopy]
  dsimp only
  generalize (if used > 0 then
    (w.auditSub data.length used).auditCopy .admissionPrefix p.pfx.length used
    else w.auditSub data.length used) = v at haudit hconn ⊢
  rw [← hconn] at hp
  exact haudit.trans (intro fun hv => act hE (.record r _
    ⟨⟨p, hp, rfl, rfl, id⟩, (hv.records r p hp).2.2⟩))

theorem admissionWt (hE : E.Sound) {r : Nat} {p : Admission} (sid used len : Nat)
    (hp : ∀ p', w.conn.admissionPeers r = some p' → p'.state = .reading) :
    Leads E N D w (admissionWt E r p sid used len w).2.2 := by
  unfold Engine.admissionWt
  split
  · exact connFatal hE _ _
  next hsid =>
  split
  · exact (shutdownRaw hE _ _ _ _ w).trans (drainRecord hE)
  · next hm =>
    simp only [sessionMatches, Bool.not_eq_true', Bool.not_eq_false, Bool.and_eq_true,
      beq_iff_eq] at hm
    refine modAdmission hE fun hw p' hp' => ?_
    have hes : p'.es.isSome → False := fun h => by
      rcases (hw.records r p' hp').2.2.2.1 h with h | h <;> simp [hp p' hp'] at h
    exact ⟨⟨p', hp', rfl, rfl, fun hw => by simpa [Admission.waits, hp p' hp'] using hes⟩,
      fun _ => ⟨by simpa using hsid, hm.1.1, hm.2⟩, fun h => absurd h hes, by rintro ⟨⟩⟩

/-- A record's stream goes into a slot. -/
theorem admissionEntry (hE : E.Sound) {r i : Nat} {kind : EsKind} {p : Admission}
    (hp : w.conn.admissionPeers r = some p) (hwait : p.waits) (hi : i < w.conn.streamCapacity)
    (hk : kind ≠ .free ∧ kind ≠ .connect) (hwt : kind = .wt → D .wt i)
    (hreq : kind = .request → w.conn.persp = .server) (h : admissionEntry r i kind w = some w') :
    Leads E N D w w' ∧
      (w'.conn.sessionEstablished = w.conn.sessionEstablished ∧
        w'.conn.sessionId = w.conn.sessionId) ∧
      ∃ g, w'.es i = { kind, resident := w.conn.budgeted, ds := p.ds, id := p.id, generation := g } := by
  unfold Engine.admissionEntry at h
  simp only [hp] at h
  split at h
  · cases h
  next hfree =>
  cases h
  refine ⟨intro fun hw => act hE
      (.entry r i p _ hp hwait (by simpa using hfree) hk.1 hk.2 rfl rfl rfl ?_),
    ⟨rfl, rfl⟩, w.conn.streamGeneration + 1, ?_⟩
  · exact
      { linked := (hw.records r p hp).1
        bound := hi
        shaped := ⟨nofun, nofun, fun _ _ => rfl, fun _ _ => rfl⟩
        foreign := fun _ => rfl
        owes := fun hl => hl.elim (fun h => absurd h hk.2) nofun
        resident := id
        alive := fun hk => .inr (hwt hk)
        quiet := fun _ _ => rfl
        asked := fun h => absurd h hk.2
        answered := fun h => absurd h hk.2
        capsule := fun hf => nomatch hf
        served := hreq
        opened := fun _ hs => nomatch hs
        unread := fun _ => rfl
        typed := fun _ => ⟨rfl, fun _ => rfl, fun hp => nomatch hp⟩ }
  · simp [World.setAdmission, World.claim, World.es]

/-- A session that is over loses nothing to a refused stream. -/
theorem settled_shutdownRaw (hE : E.Sound) (ho : w.conn.sessState.over) (ds : Nat) (a r : Bool)
    (code : Nat) : Settled w (Engine.shutdownRaw E ds a r code w) := by
  have hfatal : ∀ v : World σ, v.conn.sessState = w.conn.sessState → sessionConnLost E v = v := by
    intro v hv
    rw [← hv] at ho
    unfold Engine.sessionConnLost
    revert ho
    cases v.conn.sessState <;> simp [SessState.over]
  have hop : Settled w (w.op E (.shutdownStream ds { mode := .wholeStream, abortSend := a, abortRecv := r, sendErr := code, recvErr := code })).2 :=
    .op (fun _ => rfl) w
  unfold Engine.shutdownRaw shutdownRawWith
  dsimp only
  split
  · exact hop.trans (connFatal_settled hE.toLawful hfatal)
  · exact hop

theorem peerAdmit (hE : E.Sound) (r : Nat) (w : World σ) :
    Leads E N .none w (peerAdmit E r w).2 := by
  refine intro fun hw => ?_
  unfold Engine.peerAdmit
  split
  · rfl
  next p hp =>
  split
  · rfl
  next hwait =>
  split
  · rfl
  split
  · rfl
  next hb =>
  obtain ⟨-, hr, hcoh⟩ := hw.records r p hp
  have hstate : p.state = .waiting := by simpa using hwait
  split
  · rfl
  next i hi =>
  obtain ⟨-, hlt, -, -⟩ := World.findFree_some hi
  split
  · rfl
  next v hv =>
  have hi : i < w.conn.streamCapacity := by
    simp only [admitSlots] at hlt
    split at hlt
    · exact Nat.lt_of_lt_of_le (Nat.lt_of_le_of_lt (Nat.le_of_lt_succ hlt) hr)
        (Nat.le_trans (Nat.le_add_right _ _) hw.capacity_le)
    · exact hlt
  have hes : p.es = none := by
    have := hcoh.2.1
    simpa [hstate] using this
  obtain ⟨hentry, hsess, g, hslot⟩ := admissionEntry (N := N) (D := .slot .wt i) hE hp
    (by simp [Admission.waits, hes, hstate]) hi ⟨by simp, by simp⟩ (fun _ => ⟨rfl, rfl⟩)
    (by simp) hv
  obtain ⟨hsid, hest, hid⟩ := hcoh.1 hstate
  have hest : v.conn.sessionEstablished := hsess.1.trans hest
  have hid : p.sessionId = v.conn.sessionId :=
    hid.trans hsess.2.symm
  suffices h : Leads E N .none w (Engine.wtAssociate E i p.sessionId p.bidi v).2 from h
  have hclose : ∀ {x : World σ}, Leads E N (.slot .wt i) v x → (x.es i).wtDone = false →
      Leads E N .none w x := fun hx hdone =>
    (hentry.trans hx).close fun hv => hv.discharge
      (fun j hd => by
        rw [hd.2]
        exact hdone)
      (by rintro j ⟨⟨⟩, -⟩)
  unfold Engine.wtAssociate
  rw [if_neg (by simpa using hsid)]
  -- the stream joins the session it waited for, or the session is over
  split
  · next hm =>
    simp only [sessionMatches, Bool.and_eq_true] at hm
    have hjoin : Leads E N (.slot .wt i) v (v.modEs i fun e => { e with
        kind := .wt, wtBidi := p.bidi, wtLocal := false, wtRecvOpen := true,
        wtSendOpen := p.bidi }) :=
      write hE fun hx => .of_mold hx (.inr (by rw [hslot])) (by rw [hslot]; exact .same _)
        (by rw [hslot]) (by rw [hslot]) (by rfl)
        ⟨by simp, by simp, ⟨rfl, id⟩, fun _ => ⟨by simp [Estream.wtDone], hm.1.2⟩, by simp, by simp⟩
    refine (hclose hjoin (by simp [Estream.wtDone])).trans
      (intro fun hx => notify hE rfl (hx.open_of_active ?_))
    simpa using hm.1.2
  · next hm =>
    have ha : v.conn.sessState.active = false := by
      simpa [sessionMatches, hest, hid] using hm
    dsimp only
    have hrefuse := shutdownRaw (N := N) (D := .slot .wt i) hE (v.es i).ds p.bidi true
      (rejectCode v.conn p.sessionId) v
    refine hclose (intro fun hx => ?_) (by simp [Estream.wtDone])
    have hover : v.conn.sessState.over := by
      refine SessState.over_of_not_early ?_ ha
      by_contra he
      have := hx.early (by simpa using he)
      simp [hest] at this
    obtain ⟨u, hu⟩ := (settled_shutdownRaw hE hover (v.es i).ds p.bidi true
      (rejectCode v.conn p.sessionId)).slots i
    have hkept : ((Engine.shutdownRaw E (v.es i).ds p.bidi true
        (rejectCode v.conn p.sessionId) v).es i).kind = .wt ∧
        ((Engine.shutdownRaw E (v.es i).ds p.bidi true
          (rejectCode v.conn p.sessionId) v).es i).isSessionStream = false ∧
        ((Engine.shutdownRaw E (v.es i).ds p.bidi true
          (rejectCode v.conn p.sessionId) v).es i).guest := by
      rw [hu, hslot]
      exact ⟨rfl, rfl, rfl, fun _ => rfl⟩
    obtain ⟨hkind, hss, hguest⟩ := hkept
    exact hrefuse.trans (write hE fun hx => .of_mold hx (.inr hkind)
      (by rw [hkind]; exact .refused) hss hguest.1 (by rfl) (.sink (.inr (.inr rfl)) hguest))

/-! ## Admitted streams that are not WT streams -/

/-- The slot of an admitted HTTP stream exists. -/
theorem httpSlot_lt (hw : Coherent D w) {r : Nat} (hr : r < w.conn.peerCapacity) (bidi : Bool)
    {type : Nat} (ht : type ≤ 3) : httpSlot w.conn r bidi type < w.conn.streamCapacity := by
  unfold httpSlot
  split
  · exact Nat.lt_of_lt_of_le hr (Nat.le_trans (Nat.le_add_right _ _) hw.capacity_le)
  · next hb =>
    obtain ⟨hpeer, hstream⟩ := hw.legacy (by simpa using hb)
    rw [hpeer] at hr
    rw [hstream]
    split
    · omega
    · split <;> omega

theorem admissionBidi (hE : E.Sound) (tbl : PathTable) {r : Nat} {p : Admission}
    (hp : w.conn.admissionPeers r = some p) (hwait : p.waits) :
    Leads E N .none w (admissionBidi E tbl r w).2.2 := by
  refine intro fun hw => ?_
  have hr := (hw.records r p hp).2.1
  unfold Engine.admissionBidi
  split
  · exact connFatal hE _ _
  next hserver =>
  dsimp only
  split
  · rfl
  next v hv =>
  obtain ⟨hentry, -, g, hslot⟩ := admissionEntry (N := N) (D := .none) hE hp hwait
    (httpSlot_lt hw hr true (Nat.zero_le 3)) ⟨by simp, by simp⟩ (by simp) (fun _ => hserver) hv
  exact hentry.trans (requestStreamBytes hE tbl _ (hentry.coherent hw) (.inl (by rw [hslot]))).1

theorem admissionUni (hE : E.Sound) {r type : Nat} {p : Admission}
    (hp : w.conn.admissionPeers r = some p) (hwait : p.waits) :
    Leads E N .none w (admissionUni E r type w).2.2 := by
  refine intro fun hw => ?_
  have hr := (hw.records r p hp).2.1
  unfold Engine.admissionUni
  split
  · exact connFatal hE _ _
  split
  · exact drainRecord hE
  next htype =>
  dsimp only
  generalize (if type = 0 then w.conn.peerControlSeen
    else if type = 2 then w.conn.qpackEncSeen else w.conn.qpackDecSeen) = seen
  split
  · exact connFatal hE _ _
  split
  · rfl
  next v hv =>
  obtain ⟨hentry, -, g, hslot⟩ := admissionEntry (N := N) (D := .none) hE hp hwait
    (httpSlot_lt hw hr false (by omega)) ⟨by simp, by simp⟩ (by simp) (by simp) hv
  exact hentry.trans (classifyUni hE type (.inl (by rw [hslot]))).1

theorem admissionFin (hE : E.Sound) (r : Nat) (p : Admission) (used : Nat) (w : World σ) :
    Leads E N D w (admissionFin E r p used w).2.2 := by
  unfold Engine.admissionFin
  split
  · exact connFatal hE _ _
  · exact drainRecord hE

theorem admissionRest (hE : E.Sound) (tbl : PathTable) (r used : Nat) (data : Bytes) (fin : Bool)
    (x : Rc × Option Nat × World σ) :
    Leads E N .none x.2.2 (admissionRest E tbl r used data fin x).2.2 := by
  obtain ⟨rc, es, v⟩ := x
  unfold Engine.admissionRest
  dsimp only
  split
  · rfl
  split
  · rfl
  split
  · rfl
  split
  · rfl
  · exact streamBytes hE tbl true _ _ fin

theorem admissionPrefix (hE : E.Sound) (tbl : PathTable) {r : Nat} {p : Admission} (data : Bytes)
    (fin : Bool) (hp : w.conn.admissionPeers r = some p) (hs : p.state = .reading) :
    Leads E N .none w (admissionPrefix E tbl r p data fin w).2.2 := by
  refine intro fun hw => ?_
  have hes : p.es = none := by
    have := (hw.records r p hp).2.2.2.1
    simpa [hs] using this
  unfold Engine.admissionPrefix
  generalize Preamble.decFeed p.decoder (if p.bidi then .bidi else .uni) data = x
  obtain ⟨res, decoder, used⟩ := x
  have hfeed := admissionFeed (N := N) (D := .none) hE hp decoder used data
  have hrec : (Engine.admissionFeed r p decoder used data w).conn.admissionPeers r
      = some { p with decoder, pfx := p.pfx ++ data.take used } := by
    simp [Engine.admissionFeed, World.setAdmission]
  dsimp only
  generalize Engine.admissionFeed r p decoder used data w = v at hfeed hrec ⊢
  have hwait : ({ p with decoder, pfx := p.pfx ++ data.take used } : Admission).waits := by
    simp [Admission.waits, hes, hs]
  refine hfeed.trans ?_
  split
  · split
    · exact admissionFin hE _ _ _ _
    · rfl
  · refine admissionWt hE _ _ _ fun p' hp' => ?_
    rw [hrec] at hp'
    cases hp'
    exact hs
  · refine Leads.trans ?_ (admissionRest hE tbl r used data fin _)
    split
    · exact admissionBidi hE tbl hrec hwait
    · exact admissionUni hE hrec hwait

theorem peerAdmissionBytes (hE : E.Sound) (tbl : PathTable) (r : Nat) (data : Bytes) (fin : Bool)
    (w : World σ) : Leads E N .none w (peerAdmissionBytes E tbl r data fin w).2.2 := by
  refine intro fun hw => ?_
  unfold Engine.peerAdmissionBytes
  split
  · rfl
  next p hp =>
  split
  · rfl
  split
  · exact streamBytes hE tbl true _ _ fin
  next hes =>
  split
  · rfl
  · rfl
  · next hs => exact admissionPrefix hE tbl data fin hp hs
  · next hs =>
    have := (hw.records r p hp).2.2.2.2 hs
    simp [hes] at this

theorem streamRetire (hE : E.Sound) (i ds : Nat) (w : World σ) :
    Leads E N D w (streamRetire i ds w) := by
  unfold Engine.streamRetire
  split
  · next h => exact act hE (.spoil i _ h.2.2.2 h.2.2.2)
  · rfl

end Leads

/-! ## Inputs -/

/-- An input is orderly unless it reports a WT stream terminal and the application ends the
session when it hears of it. -/
def Input.orderly (E : Ctx σ) (w : World σ) : Input → Prop
  | .streamTerminal i => w.conn.closed = false → (w.es i).kind = .wt → (w.es i).wtLive →
      ¬ (E.notify (.wtStreamTerminal i) (w.modEs i Estream.closeAll)).conn.sessState.over
  | _ => True

/-- A stream that an input opens for the peer has an id that the peer may use. -/
def Input.fresh (c : Conn) : Input → Prop
  | .peerUniOpened id | .peerBidiOpened id | .admissionInit _ _ id => c.PeerId id
  | _ => True

/-- An input is heeded unless it reports that the CONNECT, to which no response waits, has a
native id that the peer's GOAWAY refuses. -/
def Input.heeded (c : Conn) : Input → Prop
  | .nativeId i id => nativeIdOk c i id → (c.peer i).kind = .connect → c.sessState = .sent →
      c.clientResponseOk = false → ∀ g, c.goaway = some g → id < g
  | _ => True

/-- The native id an input reports. -/
def Input.reports : Input → Option Nat
  | .nativeId _ id => some id
  | _ => none

/-- What an input tells. -/
def Input.news (c : Conn) (inp : Input) : News where
  named := fun id => inp.reports = some id
  fresh := inp.fresh c
  heeded := inp.heeded c

/-- An input is a sequence of acts, with one release too many at the end if it is not
orderly. -/
theorem Input.ends (hE : E.Sound) (tbl : PathTable) (inp : Input) (w : World σ)
    (ha : inp.allowed w.conn) :
    Ends E (inp.news w.conn) (¬ inp.orderly E w) w (inp.apply E tbl w) := by
  cases inp with
  | start => exact .leads (.start hE w)
  | setPaths paths => exact .leads (.refl w)
  | peerUniOpened id =>
    exact .leads (.onPeerOpened hE false id (by simpa [Input.allowed] using ha) fun h => h)
  | peerBidiOpened id =>
    exact .leads (.onPeerOpened hE true id (by simpa [Input.allowed] using ha) fun h => h)
  | streamBytes i data fin => exact .leads (.streamBytes hE tbl false i data fin)
  | streamBytesAccounted i data fin => exact .leads (.streamBytes hE tbl true i data fin)
  | streamReset i err => exact .leads (.onStreamReset hE i err w)
  | streamTerminal i =>
    exact .onStreamTerminal hE i fun hk hl ho hover hord => hord ho hk hl hover
  | stopSending i err => exact .leads (.onStopSending hE i err w)
  | nativeId i id => exact .leads (.onStreamNativeId hE i id w rfl fun h => h)
  | sendShutdown i ds gen graceful => exact .leads (.onStreamSendShutdown hE i ds gen graceful w)
  | sendComplete cookie canceled => exact .leads (.onSendComplete hE cookie canceled w)
  | writable i => exact .leads (.onStreamWritable hE i w)
  | datagram data => exact .leads (.onDatagram hE data w)
  | connClosed err remote => exact .leads (.onConnClosed hE err remote w)
  | transportError e => exact .leads (.setTransportError hE e w)
  | admissionInit r bidi id => exact .leads (.admissionInit hE r bidi id w fun h => h)
  | admissionBytes r data fin => exact .leads (.peerAdmissionBytes hE tbl r data fin w)
  | peerAdmit r => exact .leads (.peerAdmit hE r w)
  | admissionForget r => exact .leads (.act hE (.forget r))
  | streamRetire i ds => exact .leads (.streamRetire hE i ds w)
  | call a => exact .leads (.call hE a w)

/-- A slot that is released again. -/
theorem Coherent.release_again {i : Nat} (h : Coherent D w) (hi : (w.es i).kind = .free) :
    Coherent D (estreamRelease E i w) := by
  have hdetach : Coherent D (detachEs E i (w.audit ((w.es i).kind ≠ .free) (.doubleRelease i))) :=
    h.of_conn_eq (by simp) (by simpa using h.named)
  refine (hdetach.admissionLetGo i).putEs (fun hk => absurd rfl hk) nofun fun hp => ?_
  have := (h.parked i (by simpa [conn_admissionLetGo] using hp)).1
  simp [hi] at this

/-! ## Runs -/

theorem coherent_init (cfg : ConnCfg) : Coherent .none (init cfg).world := by
  have hpeer : ∀ i, ((init cfg).world.es i).kind = .free := by
    intro i
    unfold init create World.es
    split <;> rfl
  have hrec : ∀ r, (init cfg).world.conn.admissionPeers r = none := by
    intro r
    unfold init create
    split <;> rfl
  have hidle : (init cfg).world.conn.sessState = .idle ∧ (init cfg).world.conn.closed = false ∧
      (init cfg).world.conn.clientResponseOk = false ∧ (init cfg).world.conn.parkedEs = none ∧
      (init cfg).world.conn.sessionEstablished = false := by
    unfold init create
    split <;> exact ⟨rfl, rfl, rfl, rfl, rfl⟩
  obtain ⟨hs, hc, hans, hpark, hest⟩ := hidle
  refine ⟨fun i hk => absurd (hpeer i) hk, by simp [hc], fun _ => ⟨hans, fun i => by simp [hpeer i]⟩,
    fun i j hi => by simp [hpeer i] at hi, fun i hi => by simp [hpeer i] at hi, by simp [hpark],
    fun _ _ _ => hs, fun _ => hest, fun r p hp => by simp [hrec r] at hp, by simp [hest], Nat.one_ne_zero, ?_, ?_, ?_⟩
  · unfold init create
    split
    · dsimp only
      split <;> decide
    · exact Nat.le_refl _
  · unfold init create
    split <;> simp
  · unfold init create
    split <;> simp

namespace ActRule

variable {P : News → Prop} {Q : World Unit → World Unit → Prop}

/-- An input keeps what every act keeps, if a slot that is released twice keeps it too. -/
theorem input (hQ : ActRule P Q) (env : Env) (depth : Nat) (tbl : PathTable) {inp : Input}
    {w : World Unit} (ha : inp.allowed w.conn) (hP : P (inp.news w.conn))
    (hagain : ¬ inp.orderly (env.ctx depth) w → ∀ {i v}, (v.es i).kind = .free →
      Q v (estreamRelease (env.ctx depth) i v)) (hw : Coherent .none w) :
    Coherent .none (inp.apply (env.ctx depth) tbl w) ∧
      Q w (inp.apply (env.ctx depth) tbl w) := by
  have hE := env.sound (σ := Unit) depth
  have hact := @hQ.act _ _ hP hE (hQ.keeps (env.nested depth))
  cases Input.ends hE tbl inp w ha with
  | leads h => exact ⟨h.coherent hw, (h.acts hw).rel hQ.refl hQ.trans hact⟩
  | @twice hord v i h hi he =>
    rw [he]
    exact ⟨(h.coherent hw).release_again hi,
      hQ.trans ((h.acts hw).rel hQ.refl hQ.trans hact) (hagain hord hi)⟩

theorem step (hQ : ActRule P Q) (env : Env) (depth : Nat) {s : State} {inp : Input}
    (hP : P (inp.news s.world.conn))
    (hagain : ¬ inp.orderly (env.ctx depth) s.world → ∀ {i v}, (v.es i).kind = .free →
      Q v (estreamRelease (env.ctx depth) i v)) (hw : Coherent .none s.world) :
    Coherent .none (step env depth s inp).world ∧ Q s.world (step env depth s inp).world := by
  unfold Engine.step
  split
  · exact ⟨hw, hQ.refl _⟩
  · split
    · next ha => exact hQ.input env depth s.paths ha hP hagain hw
    · exact ⟨hw, hQ.refl _⟩

end ActRule

/-- Every state of a run is coherent. -/
theorem run_coherent (env : Env) (depth : Nat) {s : State} (inputs : List Input)
    (hw : Coherent .none s.world) : Coherent .none (run env depth s inputs).world := by
  have hrule : ActRule (σ := Unit) (fun _ => True) fun _ _ => True :=
    ⟨trivial, fun _ => trivial, fun _ _ => trivial, fun _ => trivial, fun _ _ => trivial,
      fun _ _ _ _ _ _ _ _ => trivial⟩
  induction inputs generalizing s with
  | nil => exact hw
  | cons inp inputs ih => exact ih (hrule.step env depth trivial (fun _ _ _ _ => trivial) hw).1

end Wtquic.Engine
