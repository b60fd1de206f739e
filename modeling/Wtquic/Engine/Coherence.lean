-- SUMMARY: Every act keeps a connection coherent.
import Wtquic.Engine.Act

namespace Wtquic.Engine

/-! # Coherence is kept -/

variable {σ : Type} {E : Ctx σ} {N : News} {D : Doomed} {w w' : World σ}

theorem conn_establish (i id : Nat) (w : World σ) :
    (establish i id w).conn = { w.conn with
      sessionEstablished := true
      sessState := .established
      sessionId := id
      sessionEs := some i
      capsDec := Capsule.decInit
      qsidPrefix := (Varint.encode (id / 4) 8).toOption.getD []
      peer := Function.update w.conn.peer i { w.conn.peer i with isSessionStream := true } } := by
  simp [establish]

@[simp] theorem nextDs_establish (i id : Nat) (w : World σ) :
    (establish i id w).nextDs = w.nextDs := by
  simp [establish]

@[simp] theorem trace_establish (i id : Nat) (w : World σ) :
    (establish i id w).trace = .sess .established :: w.trace := by
  simp [establish]

/-! ## Single changes -/

theorem SlotOk.conn {c c' : Conn} {i : Nat} {e : Estream} (h : SlotOk D c i e)
    (hcore : c'.core = c.core) (hclosed : c.closed → c'.closed)
    (hanswered : c'.clientResponseOk → c.clientResponseOk ∨ (e.kind = .connect → e.headersDone)) :
    SlotOk D c' i e := by
  simp only [Conn.core, Core.mk.injEq] at hcore
  obtain ⟨hp, hb, -, hcap, -, -, hs, -⟩ := hcore
  exact
    { linked := h.linked
      bound := hcap ▸ h.bound
      shaped := h.shaped
      foreign := h.foreign
      owes := h.owes
      resident := fun hr => h.resident (hb ▸ hr)
      alive := h.alive
      quiet := fun hk ha => h.quiet hk (hs ▸ ha)
      asked := fun hk => by
        rw [hs]
        rcases h.asked hk with ha | ha | ha | ha | ha
        · exact .inl ha
        · exact .inr (.inl ha)
        · exact .inr (.inr (.inl ha))
        · exact .inr (.inr (.inr (.inl (hclosed ha))))
        · exact .inr (.inr (.inr (.inr ha)))
      answered := fun hk hr => (hanswered hr).elim (h.answered hk) fun h => h hk
      capsule := h.capsule
      served := fun hk => hp ▸ h.served hk
      opened := h.opened
      unread := h.unread
      typed := h.typed }

theorem SlotOk.doom {D' : Doomed} {c : Conn} {i : Nat} {e : Estream} (h : SlotOk D c i e)
    (hwt : e.kind = .wt → D .wt i → e.wtDone = false ∨ D' .wt i)
    (hconnect : e.kind = .connect → D .connect i →
      e.headersDone ∨ e.requestDead ∨ D' .connect i ∨ c.closed ∨ c.sessState = .sent) : SlotOk D' c i e :=
  { linked := h.linked
    bound := h.bound
    shaped := h.shaped
    foreign := h.foreign
    owes := h.owes
    resident := h.resident
    alive := fun hk => (h.alive hk).elim .inl (hwt hk)
    quiet := h.quiet
    asked := fun hk => by
      rcases h.asked hk with ha | ha | ha | ha
      · exact .inl ha
      · exact .inr (.inl ha)
      · exact hconnect hk ha
      · exact .inr (.inr (.inr ha))
    answered := h.answered
    capsule := h.capsule
    served := h.served
    opened := h.opened
    unread := h.unread
    typed := h.typed }

namespace Coherent

theorem capacity_le (h : Coherent D w) :
    w.conn.peerCapacity + w.conn.localCapacity ≤ w.conn.streamCapacity :=
  Nat.le_trans (Nat.le_add_right _ _) h.capacity

/-- More streams may be about to end. -/
theorem mono {D' : Doomed} (h : Coherent D w) (hD : ∀ k i, D k i → D' k i) : Coherent D' w :=
  { h with
    slots := fun i hi => (h.slots i hi).doom (fun _ hd => .inr (hD _ i hd))
      fun _ hd => .inr (.inr (.inl (hD _ i hd))) }

theorem doom (h : Coherent .none w) (D : Doomed) : Coherent D w := h.mono fun _ _ => False.elim

/-- The streams that were about to end have ended. -/
theorem discharge (h : Coherent D w) (hwt : ∀ i, D .wt i → (w.es i).wtDone = false)
    (hconnect : ∀ i, D .connect i → (w.es i).kind = .connect → (w.es i).headersDone ∨
      (w.es i).requestDead ∨ w.conn.closed ∨ w.conn.sessState = .sent) : Coherent .none w :=
  { h with
    slots := fun i hi => (h.slots i hi).doom (fun _ hd => .inl (hwt i hd))
      fun hk hd => (hconnect i hd hk).imp_right (.imp_right .inr) }

theorem of_conn_eq (h : Coherent D w) (hc : w'.conn = w.conn) (hd : w'.nextDs ≠ 0) :
    Coherent D w' := by
  have hes : w'.es = w.es := by
    funext i
    rw [World.es, hc]
    rfl
  refine ⟨?_, ?_, ?_, ?_, ?_, ?_, ?_, ?_, ?_, ?_, hd, ?_, ?_, ?_⟩ <;> simp only [hes, hc]
  · exact h.slots
  · exact h.shut
  · exact h.undialed
  · exact h.single
  · exact h.client
  · exact h.parked
  · exact h.server
  · exact h.early
  · exact h.records
  · exact h.quarter
  · exact h.capacity
  · exact h.legacy
  · exact h.admitted

theorem log (h : Coherent D w) (o : Out) : Coherent D (w.log o) := h.of_conn_eq rfl h.named

/-- A connection write that coherence does not notice. -/
theorem updConn {f : Conn → Conn} (h : Coherent D w) (hcore : (f w.conn).core = w.conn.core)
    (hpeer : (f w.conn).peer = w.conn.peer)
    (hrec : ∀ r p, (f w.conn).admissionPeers r = some p →
      p.ds ≠ 0 ∧ r < w.conn.peerCapacity ∧ p.coherent w.conn)
    (hclosed : (f w.conn).closed = w.conn.closed)
    (hanswered : (f w.conn).clientResponseOk → w.conn.clientResponseOk ∨
      (w.conn.sessState = .sent ∧ ∀ i, (w.es i).kind = .connect → (w.es i).headersDone))
    (hparked : ∀ i, (f w.conn).parkedEs = some i →
      w.conn.parkedEs = some i ∨ (w.es i).parkable) : Coherent D (w.updConn f) := by
  have hes : (w.updConn f).es = w.es := by rw [World.es_updConn, hpeer]; rfl
  have hslots : ∀ i, (w.es i).kind ≠ .free → SlotOk D (f w.conn) i (w.es i) := fun i hi =>
    (h.slots i hi).conn hcore (fun hc => hclosed ▸ hc) fun hr => (hanswered hr).imp_right
      fun hs => hs.2 i
  simp only [Conn.core, Core.mk.injEq] at hcore
  obtain ⟨hpersp, hbud, hadm, hcap, hpcap, hlcap, hsess, hest, hid, hqsid, -⟩ := hcore
  refine ⟨?_, ?_, ?_, ?_, ?_, ?_, ?_, ?_, ?_, ?_, h.named, ?_, ?_, ?_⟩ <;>
    simp only [hes, World.conn_updConn, hpersp, hbud, hadm, hcap, hpcap, hlcap, hsess, hest,
      hclosed, hid, hqsid]
  · exact hslots
  · exact h.shut
  · intro hs
    refine ⟨?_, (h.undialed hs).2⟩
    by_contra hr
    rcases hanswered (by simpa using hr) with hr | hr
    · simp [(h.undialed hs).1] at hr
    · simp [hr.1] at hs
  · exact h.single
  · exact h.client
  · exact fun i hi => (hparked i hi).elim (h.parked i) id
  · exact h.server
  · exact h.early
  · intro r p hp
    obtain ⟨hds, hr, hw⟩ := hrec r p hp
    exact ⟨hds, hr, (fun ht => by rw [hest, hid]; exact hw.1 ht), hw.2⟩
  · exact h.quarter
  · exact h.capacity
  · exact h.legacy
  · exact h.admitted

/-- A new content of slot `i`. -/
theorem putEs {i : Nat} {e : Estream} (h : Coherent D w)
    (hok : e.kind ≠ .free → SlotOk D w.conn i e)
    (hconnect : e.kind = .connect → (w.es i).kind = .connect)
    (hparked : w.conn.parkedEs = some i → e.parkable) : Coherent D (w.putEs i e) := by
  have hslot : ∀ j, ((w.putEs i e).es j).kind = .connect → (w.es j).kind = .connect := by
    intro j hj
    rw [World.es_putEs] at hj
    split at hj
    · next he => exact he ▸ hconnect hj
    · exact hj
  exact
    { slots := fun j hj => by
        rw [World.es_putEs] at hj ⊢
        refine SlotOk.conn ?_ rfl id .inl (c := w.conn)
        split
        · next he =>
          rw [if_pos he] at hj
          exact he ▸ hok hj
        · next he =>
          rw [if_neg he] at hj
          exact h.slots j hj
      shut := h.shut
      undialed := fun hs => ⟨(h.undialed hs).1, fun j hj => (h.undialed hs).2 j (hslot j hj)⟩
      single := fun j k hj hk => h.single j k (hslot j hj) (hslot k hk)
      client := fun j hj => h.client j (hslot j hj)
      parked := fun j hj => by
        rw [World.es_putEs]
        split
        · next he => exact hparked (he ▸ hj)
        · exact h.parked j hj
      server := h.server
      early := h.early
      records := h.records
      quarter := h.quarter
      named := h.named
      capacity := h.capacity
      legacy := h.legacy
      admitted := h.admitted }

/-- Coherence reads neither the GOAWAY nor the generation counter, nor whether the session was
reported draining. -/
theorem of_marks (h : Coherent D w) (go : Option Nat) (g : Nat) (drain : Bool) :
    Coherent D (w.updConn fun c =>
      { c with goaway := go, streamGeneration := g, drainRx := drain }) :=
  ⟨fun i hi => ⟨(h.slots i hi).linked, (h.slots i hi).bound, (h.slots i hi).shaped,
    (h.slots i hi).foreign, (h.slots i hi).owes, (h.slots i hi).resident, (h.slots i hi).alive,
    (h.slots i hi).quiet, (h.slots i hi).asked, (h.slots i hi).answered, (h.slots i hi).capsule,
    (h.slots i hi).served, (h.slots i hi).opened, (h.slots i hi).unread, (h.slots i hi).typed⟩,
    h.shut, h.undialed, h.single, h.client, h.parked, h.server, h.early, h.records, h.quarter,
    h.named, h.capacity, h.legacy, h.admitted⟩

/-- A slot that gets the next generation. -/
theorem claim {i : Nat} {e : Estream} (h : Coherent D w)
    (hok : e.kind ≠ .free → SlotOk D w.conn i e) (hconnect : e.kind ≠ .connect)
    (hold : (w.es i).kind = .free) : Coherent D (w.claim i e) := by
  have hgen : Coherent D (w.updConn fun c =>
      { c with streamGeneration := w.conn.streamGeneration + 1 }) :=
    h.of_marks w.conn.goaway (w.conn.streamGeneration + 1) w.conn.drainRx
  refine hgen.putEs (fun hk => ?_) (fun hk => absurd hk hconnect) fun hp => ?_
  · have hs := hok hk
    exact
      { hs with
        shaped := ⟨hs.shaped.commit, hs.shaped.pending, hs.shaped.sending, hs.shaped.receiving⟩ }
  · have hk := (h.parked i hp).1
    rw [hold] at hk
    cases hk

theorem setAdmission {r : Nat} {p : Option Admission} (h : Coherent D w)
    (hp : ∀ q, p = some q → q.ds ≠ 0 ∧ r < w.conn.peerCapacity ∧ q.coherent w.conn) :
    Coherent D (w.setAdmission r p) := by
  refine h.updConn (f := fun c => { c with
    admissionPeers := Function.update c.admissionPeers r p }) rfl rfl ?_ rfl .inl fun _ => .inl
  intro r' q hq
  by_cases hr : r' = r
  · subst hr
    exact hp q (by simpa using hq)
  · exact h.records r' q (by simpa [hr] using hq)

theorem admissionLetGo (i : Nat) (h : Coherent D w) : Coherent D (admissionLetGo i w) := by
  refine Coherent.of_conn_eq (w := w.updConn fun c => { c with admissionPeers := w.conn.letGo i })
    (h.updConn rfl rfl ?_ rfl .inl fun _ => .inl) (conn_admissionLetGo i w)
    (by simpa using h.named)
  intro r q hq
  simp only [Conn.letGo] at hq
  split at hq
  · obtain ⟨p, hp, rfl⟩ := Option.map_eq_some_iff.mp hq
    obtain ⟨hds, hr, hw⟩ := h.records r p hp
    unfold Admission.letGo
    split
    · exact ⟨hds, hr, (by rintro ⟨⟩), by simp⟩
    · exact ⟨hds, hr, hw⟩
  · exact h.records r q hq

/-! ## The state of the session -/

/-- A new state of the session. -/
theorem setSess {s : SessState} (h : Coherent D w) (hover : w.conn.closed → s.over)
    (hdial : s = .idle ∨ s = .pending → w.conn.sessState = .idle ∨ w.conn.sessState = .pending)
    (hserver : w.conn.persp = .server → w.conn.sessionEstablished = false →
      w.conn.closed = false → s = .idle)
    (hearly : s.early → w.conn.sessionEstablished = false)
    (hquiet : s.active = false → ∀ i, (w.es i).kind = .wt → (w.es i).wtLive = false)
    (hasked : s = .sent ∨ ∀ i, w.conn.closed ∨ (w.es i).judged D i) : Coherent D (w.setSess s) where
  slots := fun i hi =>
    have hi : SlotOk D w.conn i (w.es i) := h.slots i hi
    { linked := hi.linked
      bound := hi.bound
      shaped := hi.shaped
      foreign := hi.foreign
      owes := hi.owes
      resident := hi.resident
      alive := hi.alive
      quiet := fun hk ha => hquiet ha i hk
      asked := fun hk => by
        rcases hasked with hs | hj
        · exact .inr (.inr (.inr (.inr hs)))
        · rcases hj i with hc | hj
          · exact .inr (.inr (.inr (.inl hc)))
          · exact (hj hk).imp_right (.imp_right .inl)
      answered := hi.answered
      capsule := hi.capsule
      served := hi.served
      opened := hi.opened
      unread := hi.unread
      typed := hi.typed }
  shut := hover
  undialed := fun hs => h.undialed (hdial hs)
  single := h.single
  client := h.client
  parked := h.parked
  server := hserver
  early := hearly
  records := h.records
  quarter := h.quarter
  named := h.named
  capacity := h.capacity
  legacy := h.legacy
  admitted := h.admitted

/-- Nothing is visible of a WT stream while there is no session. -/
theorem quiet_of_inactive (h : Coherent D w) (ha : w.conn.sessState.active = false) (i : Nat)
    (hk : (w.es i).kind = .wt) : (w.es i).wtLive = false :=
  (h.slots i (by simp [hk])).quiet hk ha

/-- A session that has not begun is the client's. -/
theorem client_of_early (h : Coherent D w) (he : w.conn.sessState.early)
    (hi : w.conn.sessState ≠ .idle) : w.conn.persp = .client := by
  cases hp : w.conn.persp with
  | client => rfl
  | server => exact absurd (h.server hp (h.early he) (h.open_of_early he)) hi

/-- The outcome of a session that was never established. -/
theorem setSess_over {s : SessState} (h : Coherent D w) (he : w.conn.sessState.early)
    (hp : w.conn.persp = .client) (hs : s.over) (hj : ∀ i, w.conn.closed ∨ (w.es i).judged D i) :
    Coherent D (w.setSess s) := by
  have hina : w.conn.sessState.active = false := by
    revert he
    cases w.conn.sessState <;> simp [SessState.early, SessState.active]
  refine h.setSess (fun _ => hs) ?_ ?_ ?_ (fun _ => h.quiet_of_inactive hina) (.inr hj)
  · rintro (rfl | rfl) <;> cases hs
  · simp [hp]
  · intro hse
    revert hs hse
    cases s <;> simp [SessState.early, SessState.over]

/-- The CONNECT has been sent. -/
theorem dialed {i : Nat} {e : Estream} {res : DrvRes} {u : World σ} (h : Coherent D w)
    (hs : w.conn.sessState = .pending) (hp : w.conn.persp = .client) (hd : Dialed w i e res u) :
    Coherent D (u.updConn fun c => { c with sessState := .sent }) := by
  have hc := hd.conn
  have he := hd.stream
  have hearly := h.early (by simp [hs, SessState.early])
  have hopen := h.open_of_early (by simp [hs, SessState.early])
  obtain ⟨hans, hnone⟩ := h.undialed (.inr hs)
  have hes : ∀ j, (u.updConn fun c => { c with sessState := SessState.sent }).es j
      = if j = i then e else w.es j := by
    intro j
    simp [hc, Function.update_apply, World.es]
  have hold : ∀ j, j ≠ i → (if j = i then e else w.es j) = w.es j := fun j hj => if_neg hj
  have hconn : ∀ j, (if j = i then e else w.es j).kind = .connect → j = i := by
    intro j hj
    by_contra hji
    rw [hold j hji] at hj
    exact hnone j hj
  have hi := hd.free
  refine ⟨?_, ?_, ?_, ?_, ?_, ?_, ?_, ?_, ?_, ?_, ?_, ?_, ?_, ?_⟩ <;>
    simp only [hes, World.conn_updConn, hc, World.nextDs_updConn]
  · intro j hj
    by_cases hji : j = i
    · subst hji
      rw [if_pos rfl, he]
      exact
        { linked := h.named
          bound := hd.bound
          shaped := ⟨by rintro ⟨⟩, by rintro ⟨⟩, fun _ _ => rfl, fun _ _ => rfl⟩
          foreign := fun _ => rfl
          owes := fun _ => rfl
          resident := id
          alive := by rintro ⟨⟩
          quiet := by rintro ⟨⟩
          asked := fun _ => .inr (.inr (.inr (.inr rfl)))
          answered := by simp [hans]
          capsule := by rintro ⟨⟩
          served := by rintro ⟨⟩
          opened := by rintro ⟨⟩
          unread := fun _ => rfl
          typed := by rintro ⟨⟩ }
    · rw [hold j hji] at hj ⊢
      have hj' := h.slots j hj
      exact
        { linked := hj'.linked
          bound := hj'.bound
          shaped := hj'.shaped
          foreign := hj'.foreign
          owes := hj'.owes
          resident := hj'.resident
          alive := hj'.alive
          quiet := fun hk _ => h.quiet_of_inactive (by rw [hs]; rfl) j hk
          asked := fun hk => absurd hk (hnone j)
          answered := by simp [hans]
          capsule := hj'.capsule
          served := hj'.served
          opened := hj'.opened
          unread := hj'.unread
          typed := hj'.typed }
  · simp [hopen]
  · simp
  · intro j k hj hk
    rw [hconn j hj, hconn k hk]
  · exact fun _ _ => hp
  · intro j hj
    have hji : j ≠ i := by
      rintro rfl
      have := (h.parked j hj).1
      simp [hi] at this
    rw [hold j hji]
    exact h.parked j hj
  · simp [hp]
  · exact fun _ => hearly
  · exact h.records
  · exact h.quarter
  · rw [hd.nextDs]
    omega
  · exact h.capacity
  · exact h.legacy
  · exact h.admitted

/-- The session begins on the stream in slot `i`. -/
theorem establish {i id : Nat} (h : Coherent D w) (hs : w.conn.sessState.early)
    (hk : ((w.es i).kind = .request ∧ (w.es i).headersDone) ∨ (w.es i).kind = .connect)
    (hparked : w.conn.parkedEs ≠ some i) (hj : ∀ j, (w.es j).judged D j) :
    Coherent D (establish i id w) := by
  have hopen := h.open_of_early hs
  have hearly := h.early hs
  have hes : ∀ j, (Engine.establish i id w).es j
      = if j = i then { w.es j with isSessionStream := true } else w.es j := by
    intro j
    simp only [World.es, conn_establish, Function.update_apply]
    split
    · next hji => rw [hji]
    · rfl
  have hconn : ∀ j, (if j = i then { w.es j with isSessionStream := true } else w.es j).kind
      = (w.es j).kind := by
    intro j
    split <;> rfl
  refine ⟨?_, ?_, ?_, ?_, ?_, ?_, ?_, ?_, ?_, ?_, ?_, ?_, ?_, ?_⟩ <;>
    simp only [hes, hconn, conn_establish, nextDs_establish]
  · intro j hj'
    have hok := h.slots j hj'
    have hasked : ∀ _ : (w.es j).kind = .connect,
        (w.es j).headersDone ∨ (w.es j).requestDead ∨ D .connect j ∨ w.conn.closed ∨
          SessState.established = .sent := fun hc => (hj j hc).imp_right (.imp_right .inl)
    split
    · next hji =>
      exact
        { linked := hok.linked
          bound := hok.bound
          shaped := ⟨hok.shaped.commit, hok.shaped.pending, hok.shaped.sending,
            hok.shaped.receiving⟩
          foreign := hok.foreign
          owes := hok.owes
          resident := hok.resident
          alive := hok.alive
          quiet := by rintro - ⟨⟩
          asked := hasked
          answered := hok.answered
          capsule := fun _ => rfl
          served := hok.served
          opened := fun hreq _ => by
            rcases hk with hk | hk
            · exact hji ▸ hk.2
            · have hreq : (w.es j).kind = .request := hreq
              simp [hji, hk] at hreq
          unread := fun hu => by
            have hu : (w.es j).kind = .type ∨ (w.es j).kind = .btype := hu
            rcases hk with ⟨hk, -⟩ | hk <;> simp [hji, hk] at hu
          typed := hok.typed }
    · exact
        { linked := hok.linked
          bound := hok.bound
          shaped := hok.shaped
          foreign := hok.foreign
          owes := hok.owes
          resident := hok.resident
          alive := hok.alive
          quiet := by rintro - ⟨⟩
          asked := hasked
          answered := hok.answered
          capsule := hok.capsule
          served := hok.served
          opened := hok.opened
          unread := hok.unread
          typed := hok.typed }
  · simp [hopen]
  · simp
  · exact h.single
  · exact h.client
  · intro j hj'
    have hji : j ≠ i := by
      rintro rfl
      exact hparked hj'
    rw [if_neg hji]
    exact h.parked j hj'
  · simp
  · simp [SessState.early]
  · intro r p hp
    obtain ⟨hds, hr, hw⟩ := h.records r p hp
    refine ⟨hds, hr, fun ht => ?_, hw.2⟩
    have := (hw.1 ht).2.1
    simp [hearly] at this
  · exact fun _ => trivial
  · exact h.named
  · exact h.capacity
  · exact h.legacy
  · exact h.admitted

end Coherent

/-! ## Teardown -/

/-- What an admission record becomes when it can only lose its slot. -/
structure Admission.Later (p q : Admission) : Prop where
  ds : q.ds = p.ds
  nativeId : q.id = p.id
  waits : q.waits → p.waits
  coherent : ∀ c : Conn, p.coherent c → q.coherent c

theorem Admission.Later.refl (p : Admission) : p.Later p := ⟨rfl, rfl, fun h => h, fun _ h => h⟩

theorem Admission.Later.trans {p q r : Admission} (h : p.Later q) (h' : q.Later r) : p.Later r :=
  ⟨h'.ds.trans h.ds, h'.nativeId.trans h.nativeId, h.waits ∘ h'.waits, fun c hc => h'.coherent c (h.coherent c hc)⟩

theorem Admission.later_letGo (i : Nat) (p : Admission) : p.Later (p.letGo i) := by
  unfold Admission.letGo
  split
  · refine ⟨rfl, rfl, fun hw => ?_, fun _ _ => ⟨(fun ht => nomatch ht), by simp⟩⟩
    simp [Admission.waits] at hw
  · exact .refl p

/-- What the teardown makes of a stream. -/
structure Torn (e e' : Estream) : Prop where
  kind : e'.kind = e.kind ∨ (e.kind = .wt ∧ e'.kind = .free)
  generation : e'.generation = e.generation
  ds : e'.ds = e.ds
  resident : e'.resident = e.resident
  headersDone : e'.headersDone = e.headersDone
  requestDead : e'.requestDead = e.requestDead
  frameKind : e'.frameKind = e.frameKind
  isSessionStream : e'.isSessionStream = e.isSessionStream
  typed : e.typed → e'.typed
  shaped : e.Shaped → e'.Shaped
  nativeId : e'.id = e.id
  owed : e'.kind ≠ .free → e'.nativeIdPending = e.nativeIdPending
  opener : e'.wtLocal = e.wtLocal
  bidi : e'.wtBidi = e.wtBidi
  done : e'.wtDone → e.wtDone
  live : e.wtLive = false → e'.wtLive = false

namespace Torn

variable {e e' e'' : Estream}

theorem user (e : Estream) (u : Option Nat) : Torn e { e with user := u } where
  kind := .inl rfl
  generation := rfl
  ds := rfl
  resident := rfl
  headersDone := rfl
  requestDead := rfl
  frameKind := rfl
  isSessionStream := rfl
  typed := id
  shaped := fun h => ⟨h.commit, h.pending, h.sending, h.receiving⟩
  nativeId := rfl
  owed := fun _ => rfl
  opener := rfl
  bidi := rfl
  done := id
  live := id

@[refl] theorem refl (e : Estream) : Torn e e := .user e e.user

theorem trans (h : Torn e e') (h' : Torn e' e'') : Torn e e'' where
  kind := by
    rcases h'.kind with hk' | ⟨hk', hf⟩
    · rw [hk']
      exact h.kind
    · rcases h.kind with hk | ⟨hk, _⟩
      · exact .inr ⟨hk ▸ hk', hf⟩
      · exact .inr ⟨hk, hf⟩
  generation := h'.generation.trans h.generation
  ds := h'.ds.trans h.ds
  resident := h'.resident.trans h.resident
  headersDone := h'.headersDone.trans h.headersDone
  requestDead := h'.requestDead.trans h.requestDead
  frameKind := h'.frameKind.trans h.frameKind
  isSessionStream := h'.isSessionStream.trans h.isSessionStream
  typed := h'.typed ∘ h.typed
  shaped := h'.shaped ∘ h.shaped
  nativeId := h'.nativeId.trans h.nativeId
  owed := fun hk => (h'.owed hk).trans (h.owed fun hf => by
    rcases h'.kind with hk' | ⟨-, hk'⟩
    · exact hk (hk'.trans hf)
    · exact hk hk')
  opener := h'.opener.trans h.opener
  bidi := h'.bidi.trans h.bidi
  done := h.done ∘ h'.done
  live := h'.live ∘ h.live

theorem released (hk : e.kind = .wt) : Torn e e.closeBoth.released where
  kind := .inr ⟨hk, rfl⟩
  generation := rfl
  ds := rfl
  resident := rfl
  headersDone := rfl
  requestDead := rfl
  frameKind := rfl
  isSessionStream := rfl
  typed := id
  shaped := fun h => ⟨h.commit, nofun, fun _ _ => rfl, fun _ _ => rfl⟩
  nativeId := rfl
  owed := fun h => absurd rfl h
  opener := rfl
  bidi := rfl
  done := nofun
  live := fun _ => rfl

theorem closeBoth (h : e.closeBoth.wtDone = false) : Torn e e.closeBoth where
  kind := .inl rfl
  generation := rfl
  ds := rfl
  resident := rfl
  headersDone := rfl
  requestDead := rfl
  frameKind := rfl
  isSessionStream := rfl
  typed := id
  shaped := fun h => ⟨h.commit, nofun, fun _ _ => rfl, fun _ _ => rfl⟩
  nativeId := rfl
  owed := fun _ => rfl
  opener := rfl
  bidi := rfl
  done := fun h' => by simp [h] at h'
  live := fun _ => rfl

theorem kind_eq (h : Torn e e') (hk : e'.kind ≠ .free) : e'.kind = e.kind :=
  h.kind.resolve_right fun hf => hk hf.2

theorem wt (h : Torn e e') (hk : e'.kind = .wt) : e.kind = .wt :=
  (h.kind_eq (by simp [hk])).symm.trans hk

end Torn

/-- What the teardown makes of a connection. -/
structure TornDown (w v : World σ) : Prop where
  core : v.conn.core = w.conn.core
  closed : w.conn.closed → v.conn.closed
  answered : v.conn.clientResponseOk = w.conn.clientResponseOk
  parked : v.conn.parkedEs = w.conn.parkedEs
  records : ∀ r q, v.conn.admissionPeers r = some q →
    ∃ p, w.conn.admissionPeers r = some p ∧ p.Later q
  slot : ∀ i, Torn (w.es i) (v.es i)
  nextDs : w.nextDs ≤ v.nextDs

namespace TornDown

variable {v : World σ}

theorem trans {u : World σ} (h : TornDown w v) (h' : TornDown v u) : TornDown w u where
  core := h'.core.trans h.core
  closed := h'.closed ∘ h.closed
  answered := h'.answered.trans h.answered
  parked := h'.parked.trans h.parked
  records := fun r q hq => by
    obtain ⟨p, hp, hl⟩ := h'.records r q hq
    obtain ⟨p', hp', hl'⟩ := h.records r p hp
    exact ⟨p', hp', hl'.trans hl⟩
  slot := fun i => (h.slot i).trans (h'.slot i)
  nextDs := Nat.le_trans h.nextDs h'.nextDs

theorem of_settled (h : Settled w v) : TornDown w v := by
  obtain ⟨te, code, closed, user, hc⟩ := h.conn
  refine ⟨by rw [hc]; rfl, h.frame.closed, by rw [hc], by rw [hc], fun r q hq => ?_, fun i => ?_,
    h.frame.nextDs⟩
  · rw [hc] at hq
    exact ⟨q, hq, .refl q⟩
  · obtain ⟨u, hu⟩ := h.slots i
    exact hu ▸ .user _ u

@[refl] theorem refl (w : World σ) : TornDown w w := .of_settled (.refl w)

/-- A slot that gets another content. -/
theorem putEs {i : Nat} {e : Estream} (h : Torn (w.es i) e) : TornDown w (w.putEs i e) :=
  ⟨rfl, id, rfl, rfl, fun _ q hq => ⟨q, hq, .refl q⟩, fun j => by
    rw [World.es_putEs]
    split
    · next hji => exact hji ▸ h
    · exact .user _ _, Nat.le_refl _⟩

theorem release {i : Nat} {e : Estream} (h : Torn (w.es i) e) :
    TornDown w ((admissionLetGo i (detachEs E i w)).putEs i e) := by
  refine TornDown.trans ?_ (.putEs (by simpa using h))
  refine ⟨by simp [conn_admissionLetGo]; rfl, by simp [conn_admissionLetGo],
    by simp [conn_admissionLetGo], by simp [conn_admissionLetGo], fun r q hq => ?_, fun j => ?_,
    by simp⟩
  · simp only [conn_admissionLetGo, conn_detachEs, Conn.letGo] at hq
    split at hq
    · obtain ⟨p, hp, rfl⟩ := Option.map_eq_some_iff.mp hq
      exact ⟨p, hp, p.later_letGo i⟩
    · exact ⟨q, hq, .refl q⟩
  · simpa using Torn.refl (w.es j)

end TornDown

theorem putEs_putEs (i : Nat) (e e' : Estream) (w : World σ) :
    (w.putEs i e).putEs i e' = w.putEs i e' := by
  simp [World.putEs, World.updConn]

theorem putEs_letGo (i : Nat) (e : Estream) (w : World σ) :
    (admissionLetGo i w).putEs i e = admissionLetGo i (w.putEs i e) := by
  by_cases ha : w.conn.admissionEnabled <;> simp [admissionLetGo, World.putEs, World.updConn, ha]

/-- What a release leaves does not depend on a write before it. -/
theorem release_putEs {i : Nat} {e e' : Estream} (hds : e.ds = (w.es i).ds) :
    (admissionLetGo i (detachEs E i (w.putEs i e))).putEs i e'
      = (admissionLetGo i (detachEs E i w)).putEs i e' := by
  have hdetach : detachEs E i (w.putEs i e) = (detachEs E i w).putEs i e := by
    unfold detachEs
    simp only [World.es_putEs_self, hds]
    split <;> rfl
  rw [hdetach, putEs_letGo, putEs_letGo, putEs_putEs]

/-- A stream that is done is released by its last write. -/
theorem wtReleaseIfDone_modEs {i : Nat} {f : Estream → Estream} (hk : (w.es i).kind ≠ .free)
    (hds : (f (w.es i)).ds = (w.es i).ds) :
    wtReleaseIfDone E i (w.modEs i f) =
      if (f (w.es i)).wtDone then
        (admissionLetGo i (detachEs E i w)).putEs i (f (w.es i)).released
      else w.putEs i (f (w.es i)) := by
  rw [World.modEs_of_occupied hk]
  unfold wtReleaseIfDone
  rw [World.es_putEs_self]
  split
  · next hd =>
    rw [← release_putEs hds]
    simp [estreamRelease, Estream.kind_of_wtDone hd]
  · rfl

theorem TornDown.round {fatal : Nat → World σ → World σ} (hf : FatalOk fatal)
    (hs : w.conn.sessState = .closed) (i : Nat) :
    TornDown w (teardownSlot E fatal w i) ∧
      (((teardownSlot E fatal w i).es i).kind = .wt →
        ((teardownSlot E fatal w i).es i).wtLive = false) := by
  rw [teardownSlot_eq]
  split
  · next hk => exact ⟨.refl w, fun h => absurd h hk⟩
  · next hk =>
    have hsd := teardownShutdown_settled (E := E) hf hs i
    obtain ⟨u, hu⟩ := hsd.slots i
    have hwt : ((teardownShutdown E fatal i w).es i).kind = .wt := by simpa [hu] using hk
    rw [wtReleaseIfDone_modEs (by simp [hwt]) rfl]
    split
    · exact ⟨(TornDown.of_settled hsd).trans (.release (.released hwt)),
        by simp [Estream.released]⟩
    · next hd =>
      refine ⟨(TornDown.of_settled hsd).trans (.putEs (.closeBoth (by simpa using hd))), ?_⟩
      simp [Estream.wtLive, Estream.closeBoth]

theorem TornDown.loop {fatal : Nat → World σ → World σ} (hf : FatalOk fatal) (is : List Nat)
    (hs : w.conn.sessState = .closed) :
    TornDown w (teardown E fatal is w) ∧
      ∀ i ∈ is, ((teardown E fatal is w).es i).kind = .wt →
        ((teardown E fatal is w).es i).wtLive = false := by
  induction is generalizing w with
  | nil => exact ⟨.refl w, by simp⟩
  | cons i is ih =>
    obtain ⟨hround, hquiet⟩ := TornDown.round (E := E) hf hs i
    obtain ⟨hloop, hquiets⟩ := ih (teardownSlot_sess (E := E) hf hs i)
    refine ⟨hround.trans hloop, fun j hj hk => ?_⟩
    rcases List.mem_cons.mp hj with rfl | hj
    · exact (hloop.slot j).live (hquiet ((hloop.slot j).wt hk))
    · exact hquiets j hj hk

/-! ## The end of a session -/

/-- The death record and the session's state moved, and nothing else. -/
def Ending (s : SessState) (w u : World σ) : Prop :=
  u.nextDs = w.nextDs ∧ ∃ (te : Option TransportError) (code : Nat) (closed : Bool),
    u.conn = { w.conn with
      transportError := te, closeCode := code, closed := closed, sessState := s }

namespace Coherent

/-- The end of a session, after which its streams are torn down. -/
theorem finish {s : SessState} {u v : World σ} (h : Coherent D w) (hs : s.over)
    (hu : Ending s w u) (ht : TornDown u v)
    (hquiet : ∀ i, (v.es i).kind = .wt → (v.es i).wtLive = false)
    (hasked : v.conn.closed ∨ ∀ i, (w.es i).judged D i)
    (hserver : v.conn.closed ∨ w.conn.persp = .client ∨ w.conn.sessionEstablished) :
    Coherent D v := by
  obtain ⟨hn, te, code, closed, hc⟩ := hu
  have hes : u.es = w.es := by
    funext i
    rw [World.es, hc]
    rfl
  have hcore := ht.core
  rw [hc] at hcore
  simp only [Conn.core, Core.mk.injEq] at hcore
  obtain ⟨hpersp, hbud, hadm, hcap, hpcap, hlcap, hsess, hest, hid, hqsid, -⟩ := hcore
  have hans : v.conn.clientResponseOk = w.conn.clientResponseOk := by rw [ht.answered, hc]
  have hpark : v.conn.parkedEs = w.conn.parkedEs := by rw [ht.parked, hc]
  have htorn : ∀ i, Torn (w.es i) (v.es i) := fun i => hes ▸ ht.slot i
  have hconn : ∀ i, (v.es i).kind = .connect → (w.es i).kind = .connect := fun i hk =>
    ((htorn i).kind_eq (by simp [hk])).symm.trans hk
  refine ⟨?_, ?_, ?_, ?_, ?_, ?_, ?_, ?_, ?_, ?_, ?_, ?_, ?_, ?_⟩
  · intro i hk
    have hke := (htorn i).kind_eq hk
    have ho := h.slots i (hke ▸ hk)
    exact
      { linked := (htorn i).ds ▸ ho.linked
        bound := hcap ▸ ho.bound
        shaped := (htorn i).shaped ho.shaped
        foreign := fun hne => (htorn i).opener.trans (ho.foreign (hke ▸ hne))
        owes := fun hl => by
          rw [(htorn i).owed hk, (htorn i).nativeId]
          exact ho.owes (hl.imp (hke ▸ ·) ((htorn i).opener ▸ ·))
        resident := fun hb => (htorn i).resident ▸ ho.resident (hbud ▸ hb)
        alive := fun hwt => by
          rcases ho.alive ((htorn i).wt hwt) with ha | ha
          · left
            by_contra hd
            simp [(htorn i).done (by simpa using hd)] at ha
          · exact .inr ha
        quiet := fun hwt _ => hquiet i hwt
        asked := fun hk => by
          rcases hasked with hc | hj
          · exact .inr (.inr (.inr (.inl hc)))
          · rw [(htorn i).headersDone, (htorn i).requestDead]
            exact (hj i (hconn i hk)).imp_right (.imp_right .inl)
        answered := fun hk hr => by
          rw [(htorn i).headersDone]
          exact ho.answered (hconn i hk) (hans ▸ hr)
        capsule := fun hf => by
          rw [(htorn i).isSessionStream]
          exact ho.capsule ((htorn i).frameKind ▸ hf)
        served := fun hr => hpersp ▸ ho.served (hke ▸ hr)
        opened := fun hr hss => by
          rw [(htorn i).headersDone]
          exact ho.opened (hke ▸ hr) ((htorn i).isSessionStream ▸ hss)
        unread := fun hu => by
          rw [(htorn i).isSessionStream]
          exact ho.unread (hke ▸ hu)
        typed := fun hb => (htorn i).typed (ho.typed (hke ▸ hb)) }
  · exact fun _ => hsess ▸ hs
  · rw [hsess]
    rintro (rfl | rfl) <;> cases hs
  · exact fun i j hi hj => h.single i j (hconn i hi) (hconn j hj)
  · exact fun i hi => hpersp ▸ h.client i (hconn i hi)
  · intro i hi
    obtain ⟨hk, hss, hd⟩ := h.parked i (hpark ▸ hi)
    have hke : (v.es i).kind = (w.es i).kind :=
      (htorn i).kind.resolve_right fun hw => by simp [hk] at hw
    exact ⟨hke.trans hk, (htorn i).isSessionStream.trans hss, (htorn i).headersDone ▸ hd⟩
  · intro hp he hcl
    rw [hpersp] at hp
    rw [hest] at he
    rcases hserver with hc | hc | hc
    · simp [hcl] at hc
    · simp [hp] at hc
    · simp [he] at hc
  · rw [hsess]
    intro hse
    revert hs hse
    cases s <;> simp [SessState.early, SessState.over]
  · intro r q hq
    obtain ⟨p, hp, hl⟩ := ht.records r q hq
    obtain ⟨hds, hr, hw⟩ := h.records r p (by simpa [hc] using hp)
    have hq := hl.coherent w.conn hw
    refine ⟨hl.ds ▸ hds, by rw [hpcap]; exact hr, fun hwait => ?_, hq.2⟩
    rw [hest, hid]
    exact hq.1 hwait
  · rw [hest, hqsid, hid]
    exact h.quarter
  · have := ht.nextDs
    have := h.named
    omega
  · rw [hpcap, hlcap, hcap, hpersp]
    exact h.capacity
  · rw [hbud, hpcap, hcap]
    exact h.legacy
  · rw [hbud, hadm]
    exact h.admitted

theorem judged_of_active (h : Coherent D w) (ha : w.conn.sessState.active) (i : Nat) :
    (w.es i).judged D i := by
  intro hk
  have hopen := h.open_of_active ha
  rcases (h.slots i (by simp [hk])).asked hk with hq | hq | hq | hq | hq
  · exact .inl hq
  · exact .inr (.inl hq)
  · exact .inr (.inr hq)
  · simp [hopen] at hq
  · simp [hq, SessState.active] at ha

theorem established_of_active (h : Coherent D w) (ha : w.conn.sessState.active) :
    w.conn.persp = .client ∨ w.conn.sessionEstablished := by
  by_contra hno
  rw [not_or] at hno
  have hp : w.conn.persp = .server := by
    cases hp : w.conn.persp with
    | client => exact absurd hp hno.1
    | server => rfl
  have := h.server hp (by simpa using hno.2) (h.open_of_active ha)
  simp [this, SessState.active] at ha

/-- The teardown loop reaches every WT stream. -/
theorem torn_quiet {fatal : Nat → World σ → World σ} {u : World σ} (h : Coherent D w)
    (hf : FatalOk fatal) (hu : Ending .closed w u) :
    TornDown u (teardown E fatal (List.range u.conn.streamCapacity) u) ∧
      ∀ i, ((teardown E fatal (List.range u.conn.streamCapacity) u).es i).kind = .wt →
        ((teardown E fatal (List.range u.conn.streamCapacity) u).es i).wtLive = false := by
  obtain ⟨-, te, code, closed, hc⟩ := hu
  obtain ⟨ht, hquiet⟩ := TornDown.loop (E := E) hf (List.range u.conn.streamCapacity)
    (show u.conn.sessState = .closed by rw [hc])
  refine ⟨ht, fun i hk => hquiet i (List.mem_range.mpr ?_) hk⟩
  have hwt := (ht.slot i).wt hk
  simp only [World.es, hc] at hwt
  rw [hc]
  exact (h.slots i (by simp [World.es, hwt])).bound

end Coherent

/-- The streams stay in their slots, or are gone. -/
def Wanes (w w' : World σ) : Prop :=
  ∀ i, ((w'.es i).kind = (w.es i).kind ∧ (w'.es i).generation = (w.es i).generation) ∨
    (w'.es i).kind = .free

/-- Once the session is over it stays so, and no stream is born. -/
def Barren (w w' : World σ) : Prop :=
  w.conn.sessState.over → w'.conn.sessState.over ∧ Wanes w w'

/-- While the session runs, a WT stream with nothing left is only given another `user`. -/
def Dormant (w w' : World σ) : Prop :=
  w.conn.sessState.active →
    (w'.conn.sessState.over ∧
      ∀ i, (w.es i).wtDone →
        ((w'.es i).kind = .wt ∧ (w'.es i).generation = (w.es i).generation) ∨
          (w'.es i).kind = .free) ∨
    (w'.conn.sessState.active ∧ ∀ i, (w.es i).wtDone → ∃ u, w'.es i = { w.es i with user := u })

/-- A callback recipient that keeps the connection coherent. -/
structure Ctx.Sound (E : Ctx σ) : Prop extends E.Lawful where
  coherent : ∀ D c w, Coherent D w → Coherent D (E.notify c w)
  barren : ∀ c w, Barren w (E.notify c w)
  dormant : ∀ c w, Dormant w (E.notify c w)

namespace Coherent

theorem sessionClosed (hE : E.Sound) (h : Coherent D w) (ha : w.conn.sessState.active)
    (code : UInt32) (reason : Bytes) (clean : Bool) :
    Coherent D (sessionClosed E code reason clean w) := by
  rw [Engine.sessionClosed, sessionClosedWith_eq, if_neg (by simpa [sessionActive] using ha)]
  have hu : Ending .closed w (w.setSess .closed) := ⟨rfl, _, _, _, rfl⟩
  obtain ⟨ht, hquiet⟩ := h.torn_quiet (E := E) (fatalOk_connFatal hE.toLawful) hu
  exact hE.coherent _ _ _ (h.finish rfl hu ht hquiet (.inr (h.judged_of_active ha))
    (.inr (h.established_of_active ha)))

/-- The session of a dying connection gets its outcome. -/
theorem sessionConnLost (hE : E.Sound) {u : World σ} (h : Coherent D w)
    (hu : Ending w.conn.sessState w u) (hcl : u.conn.closed) :
    Coherent D (sessionConnLost E u) := by
  obtain ⟨hn, te, code, closed, hc⟩ := hu
  have hstate : ∀ s, Ending s w (u.setSess s) := fun s =>
    ⟨hn, te, code, closed, by rw [World.conn_setSess, hc]⟩
  have hsess : u.conn.sessState = w.conn.sessState := by rw [hc]
  have hes : u.es = w.es := by
    funext i
    rw [World.es, hc]
    rfl
  have hclosed : w.conn.sessState.active →
      Coherent D (sessionClosedWith E (fun _ w => w) 0 [] false u) := by
    intro ha
    rw [sessionClosedWith_eq, if_neg (by simpa [sessionActive, hsess] using ha)]
    obtain ⟨ht, hquiet⟩ := h.torn_quiet (E := E) fatalOk_skip (hstate .closed)
    exact hE.coherent _ _ _ (h.finish rfl (hstate .closed) ht hquiet
      (.inr (h.judged_of_active ha)) (.inr (h.established_of_active ha)))
  have hfailed : w.conn.sessState.early → Coherent D (sessionFailed E .connection u) := by
    intro he
    refine hE.coherent _ _ _ (h.finish rfl (hstate .failed) (.refl _) (fun i => ?_) (.inl hcl)
      (.inl hcl))
    rw [World.es_setSess, hes]
    refine h.quiet_of_inactive ?_ i
    revert he
    cases w.conn.sessState <;> simp [SessState.early, SessState.active]
  have hover : w.conn.sessState.over → Coherent D u := by
    intro ho
    refine h.finish ho ⟨hn, te, code, closed, hc⟩ (.refl _) (fun i => ?_) (.inl hcl) (.inl hcl)
    rw [hes]
    refine h.quiet_of_inactive ?_ i
    revert ho
    cases w.conn.sessState <;> simp [SessState.over, SessState.active]
  unfold Engine.sessionConnLost
  rw [hsess]
  cases hw : w.conn.sessState with
  | established | draining => exact hclosed (by simp [hw, SessState.active])
  | idle | pending | sent => exact hfailed (by simp [hw, SessState.early])
  | closed | rejected | failed => exact hover (by simp [hw, SessState.over])

theorem connFatal (hE : E.Sound) (h : Coherent D w) (err : Nat) :
    Coherent D (connFatal E err w) := by
  unfold Engine.connFatal
  split
  · exact h
  · refine hE.coherent _ _ _ (h.sessionConnLost hE ?_ rfl)
    unfold connLatchError
    split <;> exact ⟨rfl, _, _, _, rfl⟩

theorem onConnClosed (hE : E.Sound) (h : Coherent D w) (err : Nat) (remote : Bool) :
    Coherent D (onConnClosed E err remote w) := by
  unfold Engine.onConnClosed
  split
  · exact h
  · refine hE.coherent _ _ _ (h.sessionConnLost hE ?_ rfl)
    unfold connLatchError
    split <;> exact ⟨rfl, _, _, _, rfl⟩

end Coherent

/-- Whether the CONNECT counts as sent makes no difference to a connection that dies. -/
theorem connFatal_sent {err : Nat} (hs : w.conn.sessState = .pending)
    (hc : w.conn.closed = false) :
    connFatal E err w = connFatal E err (w.updConn fun c => { c with sessState := .sent }) := by
  have hlost : ∀ v : World σ, v.conn.sessState = .pending → sessionConnLost E v
      = sessionConnLost E (v.updConn fun c => { c with sessState := .sent }) := by
    intro v hv
    simp only [sessionConnLost, hv, World.conn_updConn]
    rfl
  unfold connFatal connLatchError
  simp only [World.conn_updConn, hc, Bool.false_eq_true, if_false]
  split
  · rw [hlost _ (by simp [World.op_snd, hs])]
    rfl
  · rw [hlost _ (by simp [World.op_snd, hs])]
    rfl

/-! ## Native ids -/

/-- A report that is in order names a local stream, and an id that no other stream and no
session has. -/
structure Named (w : World σ) (i id : Nat) : Prop where
  kind : (w.es i).kind = .connect ∨ ((w.es i).kind = .wt ∧ (w.es i).wtLocal)
  owed : (w.es i).nativeIdPending
  valid : id < 2 ^ 62
  opener : id % 2 = if w.conn.persp = .client then 0 else 1
  direction : (id / 2 % 2 == 1) = !((w.es i).kind == .connect || (w.es i).wtBidi)
  session : w.conn.sessionEstablished → id ≠ w.conn.sessionId
  unused : ∀ k, k ≠ i → (w.es k).kind ≠ .free → k < w.conn.streamCapacity → (w.es k).id ≠ id

theorem unknown_of_lt {id : Nat} (h : id < 2 ^ 62) : id ≠ streamIdUnknown := by
  unfold streamIdUnknown
  omega

/-- The check of `wtq_conn_on_stream_native_id`. -/
theorem nativeIdOk_iff (w : World σ) (i id : Nat) : nativeIdOk w.conn i id ↔ Named w i id := by
  have hbidi : (w.es i).kind = .connect ∨ ((w.es i).kind = .wt ∧ (w.es i).wtLocal) →
      (((w.es i).kind == .connect || ((w.es i).kind == .wt && (w.es i).wtBidi))
        = ((w.es i).kind == .connect || (w.es i).wtBidi)) := by
    rintro (hk | ⟨hk, -⟩) <;> simp [hk]
  have hside : ((id / 2 % 2 == 1) != ((w.es i).kind == .connect || (w.es i).wtBidi)) = true ↔
      (id / 2 % 2 == 1) = !((w.es i).kind == .connect || (w.es i).wtBidi) := by
    cases (id / 2 % 2 == 1) <;> cases ((w.es i).kind == .connect || (w.es i).wtBidi) <;> simp
  constructor
  · intro h
    simp only [nativeIdOk, Bool.and_eq_true, Bool.or_eq_true, beq_iff_eq, decide_eq_true_eq,
      List.all_eq_true, List.mem_range, Bool.not_eq_true', Bool.and_eq_false_iff,
      beq_eq_false_iff_ne, bne_iff_ne, ne_eq] at h
    obtain ⟨⟨⟨⟨⟨⟨hk, ho⟩, hv⟩, hp⟩, hd⟩, hs⟩, hu⟩ := h
    have hk' : (w.es i).kind = .connect ∨ ((w.es i).kind = .wt ∧ (w.es i).wtLocal) := hk
    refine ⟨hk', ho, hv, hp, hside.mp ?_, fun he => ?_, fun k hki hkf hkc hid => ?_⟩
    · rw [← hbidi hk']
      simpa [World.es] using hd
    · rcases hs with hs | hs
      · simp [he] at hs
      · exact hs
    · rcases hu k hkc with ((hu | hu) | hu) | hu
      · exact hki hu
      · exact hkf hu
      · exact unknown_of_lt hv (hid.symm.trans hu)
      · exact hu hid
  · rintro ⟨hk, ho, hv, hp, hd, hs, hu⟩
    simp only [nativeIdOk, Bool.and_eq_true, Bool.or_eq_true, beq_iff_eq, decide_eq_true_eq,
      List.all_eq_true, List.mem_range, Bool.not_eq_true', Bool.and_eq_false_iff,
      beq_eq_false_iff_ne, bne_iff_ne, ne_eq]
    refine ⟨⟨⟨⟨⟨⟨hk, ho⟩, hv⟩, hp⟩, ?_⟩, ?_⟩, fun k hkc => ?_⟩
    · have := hside.mpr hd
      rw [← hbidi hk] at this
      simpa [World.es] using this
    · cases he : w.conn.sessionEstablished with
      | false => exact .inl rfl
      | true => exact .inr (hs he)
    · by_cases hki : k = i
      · exact .inl (.inl (.inl hki))
      by_cases hkf : (w.es k).kind = .free
      · exact .inl (.inl (.inr hkf))
      · exact .inr (hu k hki hkf hkc)

/-- The id of a CONNECT that is given up is known. -/
theorem known_of_given {i id : Nat}
    (hid : (id = (w.es i).id ∧ id ≠ streamIdUnknown) ∨ (nativeIdOk w.conn i id ∧ N.named id)) :
    id ≠ streamIdUnknown := by
  rcases hid with ⟨-, hid⟩ | ⟨hid, -⟩
  · exact hid
  · exact unknown_of_lt ((nativeIdOk_iff w i id).mp hid).valid

namespace Coherent

/-- A stream learns its native id. -/
theorem named_ok {i id : Nat} (h : Coherent D w) (hok : nativeIdOk w.conn i id) :
    Coherent D (w.putEs i { w.es i with id, nativeIdPending := false }) := by
  have hn := (nativeIdOk_iff w i id).mp hok
  refine h.putEs (fun hk => ?_) (fun hk => hk) fun hp => h.parked i hp
  have ho := h.slots i hk
  exact
    { ho with
      shaped := ⟨ho.shaped.commit, ho.shaped.pending, ho.shaped.sending, ho.shaped.receiving⟩
      owes := fun _ => by simpa using unknown_of_lt hn.valid }

theorem of_goaway (h : Coherent D w) (go : Option Nat) :
    Coherent D (w.updConn fun c => { c with goaway := go }) :=
  h.of_marks go w.conn.streamGeneration w.conn.drainRx

/-- The session of a CONNECT that is given up has failed. -/
theorem givenUp {i id : Nat} {go : Option Nat} (h : Coherent D w)
    (hs : w.conn.sessState = .sent) (hk : (w.es i).kind = .connect) (hid : id ≠ streamIdUnknown) :
    Coherent D ((giveUp i id go w).setSess .failed) := by
  have hdead : Coherent D (giveUp i id go w) := by
    refine (h.of_goaway go).putEs (fun _ => ?_) (fun _ => hk) fun hp => ?_
    · have hi : (w.es i).kind ≠ .free := by simp [hk]
      have ho := (h.of_goaway go).slots i hi
      exact
        { ho with
          shaped := ⟨ho.shaped.commit, ho.shaped.pending, ho.shaped.sending, ho.shaped.receiving⟩
          owes := fun _ => by simpa using hid
          asked := fun _ => .inr (.inl rfl) }
    · have := (h.parked i hp).1
      simp [hk] at this
  have hearly : (giveUp i id go w).conn.sessState.early := by
    change w.conn.sessState.early
    simp [hs, SessState.early]
  refine hdead.setSess_over hearly (h.client i hk) rfl fun j => .inr fun hj => ?_
  have hji : j = i := by
    by_contra hne
    rw [giveUp, World.es_putEs_of_ne hne] at hj
    exact hne (h.single j i hj hk)
  subst hji
  simp [giveUp]

end Coherent

/-! ## Acts -/

/-- A session is reported draining while it runs, and once. -/
theorem sessionDraining_cases (E : Ctx σ) (w : World σ) :
    sessionDraining E w = w ∨
      (w.conn.closed = false ∧ w.conn.drainRx = false ∧ w.conn.sessState.active ∧
        sessionDraining E w = E.notify .sessionDraining (beginDrain w)) := by
  unfold sessionDraining
  split
  · exact .inl rfl
  · next h =>
    simp only [sessionActive, Bool.or_eq_true, Bool.not_eq_true', not_or, Bool.not_eq_true,
      Bool.not_eq_false] at h
    exact .inr ⟨h.1.1, h.1.2, h.2, rfl⟩

namespace Coherent

/-- A session that runs begins to drain. -/
theorem beginDrain (h : Coherent D w) : Coherent D (beginDrain w) := by
  have hmark : Coherent D (w.updConn fun c => { c with drainRx := true }) :=
    h.of_marks w.conn.goaway w.conn.streamGeneration true
  unfold Engine.beginDrain
  dsimp only
  split
  · next hs =>
    have hs : w.conn.sessState = .established := hs
    have ha : w.conn.sessState.active := by simp [hs, SessState.active]
    have hopen := h.open_of_active ha
    refine hmark.setSess (by simp [hopen]) (fun hs => by simp at hs) ?_ (by rintro ⟨⟩)
      (by rintro ⟨⟩) (.inr fun i => .inr (hmark.judged_of_active ha i))
    intro hp he hcl
    have := h.server hp he hcl
    simp [hs] at this
  · exact hmark

theorem sessionDraining (hE : E.Sound) (h : Coherent D w) :
    Coherent D (sessionDraining E w) := by
  rcases sessionDraining_cases E w with he | ⟨-, -, -, he⟩
  · rwa [he]
  · rw [he]
    exact hE.coherent _ _ _ h.beginDrain

theorem drainUnderGoaway (hE : E.Sound) (h : Coherent D w) :
    Coherent D (drainUnderGoaway E w) := by
  unfold Engine.drainUnderGoaway
  split
  · exact h.sessionDraining hE
  · exact h

end Coherent

theorem Act.coherent (hE : E.Sound) (h : Coherent D w) (ha : Act E N D w w') : Coherent D w' := by
  cases ha with
  | fault f hf => exact h.of_conn_eq rfl h.named
  | hear i bs => exact h.of_conn_eq rfl h.named
  | op o ho => exact h.log _
  | detached => exact h.of_conn_eq rfl (Nat.succ_ne_zero _)
  | conn f hcore hpeer hrec hclosed hans hpark =>
    exact h.updConn hcore hpeer (fun r p hp => h.records r p (hrec ▸ hp)) hclosed hans hpark
  | aged => exact h.of_marks w.conn.goaway (w.conn.streamGeneration + 1) w.conn.drainRx
  | letGo i => exact h.admissionLetGo i
  | forget r => exact h.setAdmission fun q hq => nomatch hq
  | record r q hq =>
    obtain ⟨p, hp, hds, -, -⟩ := hq.old
    obtain ⟨hne, hr, -⟩ := h.records r p hp
    refine h.setAdmission fun q' hq' => ?_
    cases hq'
    exact ⟨hds ▸ hne, hr, hq.coherent⟩
  | enroll r q hold hr hds hq hes hn =>
    refine Coherent.setAdmission (h.of_conn_eq rfl (Nat.succ_ne_zero _)) fun q' hq' => ?_
    cases hq'
    exact ⟨hds ▸ h.named, hr, fun ht => by simp [hq] at ht, by simp [hes, hq]⟩
  | write i e hw =>
    refine h.putEs (fun _ => hw.ok) (fun hk => ?_) hw.parked
    have hkind := hw.kind
    rw [hk] at hkind
    generalize (w.es i).kind = k at hkind ⊢
    cases hkind with
    | same => rfl
    | classified _ _ hc => exact absurd rfl hc
  | spoil i e hold he =>
    refine h.putEs (fun hk => absurd he hk) (fun hk => by simp [he] at hk) fun hp => ?_
    have := (h.parked i hp).1
    simp [hold] at this
  | born i e hold he hc hds hok hl hn =>
    have hnew : Coherent D (w.newDs i).2 := h.of_conn_eq rfl (Nat.succ_ne_zero _)
    exact hnew.claim (fun _ => hok) hc hold
  | opened i bidi e hold he hds hok hr hid hl hb =>
    have hnew : Coherent D ((w.op E (World.openOp bidi i)).2.newDs i).2 :=
      h.of_conn_eq rfl (Nat.succ_ne_zero _)
    exact hnew.claim (fun _ => hok) (by simp [he]) hold
  | entry r i p e hp hw hold he hc hds hid hl hok =>
    obtain ⟨hne, hr, -⟩ := h.records r p hp
    refine ((h.claim (fun _ => hok) hc hold).log _).setAdmission fun q hq => ?_
    cases hq
    exact ⟨hne, hr, (fun ht => nomatch ht), by simp⟩
  | release i e hold hcrit hpark he =>
    have hdetach : Coherent D (detachEs E i w) := by
      unfold detachEs
      split
      · exact h.log _
      · exact h
    refine (hdetach.admissionLetGo i).putEs (fun hk => absurd he hk)
      (fun hk => by simp [he] at hk) fun hp => absurd ?_ hpark
    simpa [conn_admissionLetGo] using hp
  | named i id hok hn hh => exact h.named_ok hok
  | goaway v hv hj => exact (h.of_goaway (some v)).sessionDraining hE
  | givenUp i id go hs hk hgo hid => exact hE.coherent _ _ _ (h.givenUp hs hk (known_of_given hid))
  | pending hs hp =>
    refine h.setSess (fun hc => ?_) (fun _ => .inl hs) (by simp [hp])
      (fun _ => h.early (by simp [hs, SessState.early]))
      (fun _ => h.quiet_of_inactive (by simp [hs, SessState.active]))
      (.inr fun i => .inr fun hk => absurd hk ((h.undialed (.inl hs)).2 i))
    have := h.shut hc
    simp [hs, SessState.over] at this
  | dialed i e hs hp hd => exact (h.dialed hs hp hd).log _
  | undialed i err e hs hp hd =>
    have hc := hd.conn
    rw [connFatal_sent (by rw [hc]; exact hs)
      (by rw [hc]; exact h.open_of_early (by simp [hs, SessState.early]))]
    exact (h.dialed hs hp hd).connFatal hE err
  | notify c hc hop => exact hE.coherent D c w h
  | failed r hs hp hj =>
    exact hE.coherent _ _ _ (h.setSess_over hs hp rfl fun i => .inr (hj i))
  | rejected status hs hj =>
    have he : w.conn.sessState.early := by simp [hs, SessState.early]
    exact hE.coherent _ _ _ (h.setSess_over he
      (h.client_of_early he (by simp [hs])) rfl fun i => .inr (hj i))
  | established i ev hs hk hpark hj hid hgo =>
    exact (hE.coherent _ _ _ (h.establish hs hk hpark hj)).drainUnderGoaway hE
  | drained => exact h.sessionDraining hE
  | ended code reason clean hs => exact h.sessionClosed hE hs code reason clean
  | died err hc => exact h.connFatal hE err
  | lost err remote hc => exact h.onConnClosed hE err remote

end Wtquic.Engine
