-- SUMMARY: The acts of classification, delivery, reset, STOP_SENDING, native ids and datagrams.
import Wtquic.Engine.ControlActs

namespace Wtquic.Engine

/-! # The acts of stream inputs -/

variable {σ : Type} {E : Ctx σ} {N : News} {D : Doomed} {w w' w'' : World σ}

/-! ## Classification -/

/-- A stream whose type is not known yet. -/
def Estream.pending (e : Estream) : Prop := e.kind = .type ∨ e.kind = .btype

theorem Estream.pending.http {e : Estream} (h : e.pending) : e.kind.http := by
  rcases h with h | h <;> simp [h, EsKind.http]

theorem Estream.pending.ne_free {e : Estream} (h : e.pending) : e.kind ≠ .free :=
  EsKind.ne_free_of_http h.http

/-- The part of a stream that classification leaves alone. -/
def Estream.mold (e : Estream) : Estream :=
  { e with
    kind := .free, pre := {}, btypeBuf := [], wtBidi := false, wtLocal := false
    wtSendOpen := false, wtRecvOpen := false }.trunk

/-- A stream of the peer, which has a send half only if it is bidi. -/
def Estream.guest (e : Estream) : Prop :=
  e.wtLocal = false ∧ (e.wtBidi = false → e.wtSendOpen = false)

theorem Coherent.guest (h : Coherent D w) {i : Nat} (hk : (w.es i).pending) :
    (w.es i).guest := by
  have ho := h.slots i hk.ne_free
  have hl : (w.es i).wtLocal = false := ho.foreign (by rcases hk with hk | hk <;> simp [hk])
  exact ⟨hl, fun hb => ho.shaped.receiving hb hl⟩

/-- What a stream may become. -/
structure Cast (c : Conn) (e : Estream) : Prop where
  occupied : e.kind ≠ .free
  local' : e.kind ≠ .connect
  guest : e.guest
  alive : e.kind = .wt → e.wtDone = false ∧ c.sessState.active
  served : e.kind = .request → c.persp = .server
  typed : e.kind = .btype → e.typed

theorem Cast.sink {c : Conn} {e : Estream}
    (h : e.kind = .control ∨ e.kind = .qpack ∨ e.kind = .drain) (hg : e.guest) : Cast c e := by
  rcases h with h | h | h <;>
    exact ⟨by simp [h], by simp [h], hg, by simp [h], by simp [h], by simp [h]⟩

theorem WriteOk.of_mold {i : Nat} {e : Estream} (h : Coherent D w)
    (hk : (w.es i).pending ∨ (w.es i).kind = .wt) (hs : KindStep (w.es i).kind e.kind)
    (hss : (w.es i).isSessionStream = false) (hl : (w.es i).wtLocal = false)
    (he : e.mold = (w.es i).mold) (hc : Cast w.conn e) : WriteOk D w i e := by
  have hold : (w.es i).kind ≠ .free ∧ (w.es i).kind ≠ .connect ∧ (w.es i).kind ≠ .request := by
    rcases hk with (hk | hk) | hk <;> simp [hk]
  have ho := h.slots i hold.1
  simp only [Estream.mold, Estream.trunk, Estream.mk.injEq] at he
  obtain ⟨hres, hgen, -, -, -, -, -, -, -, hfk, -, -, -, -, -, -, hse, -, -, -, hcom, hfp, -, -, -, -,
    hds, hid, -⟩ := he
  -- the send-commit mode is for local streams
  have hcommit : (w.es i).wtSendCommit = false := by
    by_contra hc
    have := (ho.shaped.commit (by simpa using hc)).2
    simp [hl] at this
  have hpend : (w.es i).wtFinPending = false := by
    by_contra hp
    have := ho.shaped.pending (by simpa using hp)
    simp [hcommit] at this
  exact
    { occupied := hold.1
      kind := hs
      ok :=
        { linked := hds ▸ ho.linked
          bound := ho.bound
          shaped :=
            { commit := by simp [hcom, hcommit]
              pending := by simp [hfp, hpend]
              sending := fun _ hl => by simp [hc.guest.1] at hl
              receiving := fun hb _ => hc.guest.2 hb }
          foreign := fun _ => hc.guest.1
          owes := fun hl => by
            rcases hl with hl | hl
            · exact absurd hl hc.local'
            · simp [hc.guest.1] at hl
          resident := fun hb => hres ▸ ho.resident hb
          alive := fun hw => .inl (hc.alive hw).1
          quiet := fun hw ha => by simp [(hc.alive hw).2] at ha
          asked := fun hw => absurd hw hc.local'
          answered := fun hw => absurd hw hc.local'
          capsule := fun hf => hse ▸ ho.capsule (hfk ▸ hf)
          served := hc.served
          opened := fun _ hs => by simp [hse, hss] at hs
          unread := fun _ => hse.trans hss
          typed := hc.typed }
      ds := hds
      generation := hgen
      parked := fun hp => absurd (h.parked i hp).1 hold.2.2
      id := hid
      session := hse
      opener := hc.guest.1.trans hl.symm
      bidi := fun h => by simp [hl] at h }

/-- The request parked in a slot is not on a stream of another kind. -/
theorem Coherent.not_parked {i : Nat} (h : Coherent D w) (hk : (w.es i).kind ≠ .request) :
    w.conn.parkedEs ≠ some i := fun hp => hk (h.parked i hp).1

theorem Frame.parkedEs (h : Frame .call w w') : w'.conn.parkedEs = w.conn.parkedEs := by
  change w'.conn.mask.parkedEs = w.conn.mask.parkedEs
  rw [(h.calm id).1]

/-! ## The bytes kept for the replay -/

/-- The stream behind a feed of the bidi classifier that consumed `bs`. -/
def Estream.fed (e : Estream) (pre : Preamble.Dec) (bs : Bytes) : Estream :=
  { e with pre, btypeBuf := e.btypeBuf ++ bs.take (btypeCap - e.btypeBuf.length) }

/-- The audits of a classifier feed that consumed `c` bytes. -/
def World.auditFeed (i : Nat) (data : Bytes) (c : Nat) (w : World σ) : World σ :=
  (w.auditSub data.length c).auditCopy .btypeBuf (w.es i).btypeBuf.length
    ((data.take c).take (btypeCap - (w.es i).btypeBuf.length)).length

@[simp] theorem World.conn_auditFeed (i : Nat) (data : Bytes) (c : Nat) (w : World σ) :
    (w.auditFeed i data c).conn = w.conn := by
  simp [World.auditFeed, World.auditSub, World.auditCopy]

@[simp] theorem World.es_auditFeed (i : Nat) (data : Bytes) (c : Nat) (w : World σ) :
    (w.auditFeed i data c).es = w.es := by
  simp [World.auditFeed, World.auditSub, World.auditCopy]

theorem bufferType_modEs {i : Nat} (hk : (w.es i).kind ≠ .free) (pre : Preamble.Dec)
    (data : Bytes) (c : Nat) :
    bufferType i (data.take c) ((w.auditSub data.length c).modEs i fun e => { e with pre }) =
      (w.auditFeed i data c).putEs i ((w.es i).fed pre (data.take c)) := by
  have haudit : ∀ (e : Estream) (b : Bool) (f : Fault) (v : World σ),
      (v.putEs i e).audit b f = (v.audit b f).putEs i e := fun e b f v => by cases b <;> rfl
  have hes : (w.auditSub data.length c).es = w.es := by simp [World.auditSub]
  rw [World.modEs_of_occupied (by simpa [hes] using hk)]
  unfold bufferType
  dsimp only
  rw [World.auditCopy, haudit, World.modEs_of_occupied (by simpa [hes] using hk)]
  simp only [World.es_putEs_self, putEs_putEs, hes]
  rfl

/-- One feed of the classifier, its writes drawn together. -/
theorem bidiClassifyBytes_eq (tbl : PathTable) {i : Nat} {data : Bytes} {res : Preamble.Result}
    {pre : Preamble.Dec} {c : Nat} (hk : (w.es i).kind = .btype) (hd : data.isEmpty = false)
    (hf : Preamble.decFeed (w.es i).pre .bidi data = (res, pre, c)) :
    bidiClassifyBytes E tbl i data w =
      (let v := w.auditFeed i data c
      let e := (w.es i).fed pre (data.take c)
      match res with
      | .needMore => (true, data.drop c, v.putEs i e)
      | .ok sid _ _ =>
        let u := (wtAssociate E i sid true
          (v.putEs i { w.es i with pre := Preamble.decInit, btypeBuf := [] })).2
        (!u.conn.closed, data.drop c, u)
      | .unexpected _ =>
        match w.conn.persp with
        | .client => (false, data.drop c, connFatal E H3Err.streamCreationError (v.putEs i e))
        | .server =>
          let u := requestStreamBytes E tbl i e.btypeBuf (v.putEs i { w.es i with
            kind := .request, pre, frameDec := H3Frame.decInit, btypeBuf := [] })
          (!u.conn.closed, data.drop c, u)) := by
  have hocc : ((w.es i).fed pre (data.take c)).kind ≠ .free := by simp [Estream.fed, hk]
  unfold bidiClassifyBytes
  simp only [hd, hf, Bool.false_eq_true, if_false]
  rw [bufferType_modEs (by simp [hk])]
  cases res with
  | needMore => rfl
  | ok sid n t =>
    dsimp only
    rw [World.modEs_of_occupied (by simpa using hocc), putEs_putEs, World.es_putEs_self,
      Preamble.decFeed_ok hf]
    rfl
  | unexpected v =>
    simp only [World.conn_putEs, World.conn_auditFeed]
    cases w.conn.persp with
    | client => rfl
    | server =>
      dsimp only
      rw [World.modEs_of_occupied (by simpa using hocc), putEs_putEs, World.es_putEs_self]
      rfl

/-- What the classifier read so far, if it has not come to the session id. -/
theorem Estream.typed.feed {e : Estream} (h : e.typed) {data : Bytes} {res : Preamble.Result}
    {pre : Preamble.Dec} {c : Nat} (hf : Preamble.decFeed e.pre .bidi data = (res, pre, c))
    (hs : e.pre.state ≠ .session) :
    Preamble.decFeed Preamble.decInit .bidi (e.btypeBuf ++ data.take c)
      = (res, pre, e.btypeBuf.length + c) := by
  have hinc := Preamble.incremental .bidi
  have hused := hinc.used e.pre data
  simp only [hf] at hused
  cases hst : e.pre.state with
  | session => exact absurd hst hs
  | type =>
    have hinit := h.2.1 hst
    have hres := hinc.resume Preamble.decInit e.btypeBuf (data.take c) (by simp [hinit])
    simpa [hinit, hused] using hres
  | poisoned =>
    have hinit := h.2.2 hst
    rw [Preamble.decFeed_poisoned hst] at hf
    cases hf
    simpa using hinit

/-- Up to the type nothing is cut off. -/
theorem fed_kept {e : Estream} {data : Bytes} {pre : Preamble.Dec} {c : Nat}
    (hle : c ≤ data.length) (hcap : e.btypeBuf.length + c ≤ 8) :
    (e.fed pre (data.take c)).btypeBuf = e.btypeBuf ++ data.take c ∧
      (e.btypeBuf ++ data.take c).length = e.btypeBuf.length + c := by
  refine ⟨?_, by simp [Nat.min_eq_left hle]⟩
  rw [Estream.fed, List.take_of_length_le]
  simp only [List.length_take, btypeCap]
  omega

theorem Estream.typed.fed {e : Estream} (h : e.typed) {data : Bytes} {res : Preamble.Result}
    {pre : Preamble.Dec} {c : Nat} (hf : Preamble.decFeed e.pre .bidi data = (res, pre, c))
    (hres : ∀ sid n t, res ≠ .ok sid n t) :
    (e.fed pre (data.take c)).typed ∧
      ∀ v, res = .unexpected v →
        ∃ vi, Varint.decFeed Varint.decInit (e.fed pre (data.take c)).btypeBuf
          = (some v, vi, (e.fed pre (data.take c)).btypeBuf.length) := by
  have hle := (Preamble.incremental .bidi).le e.pre data
  simp only [hf] at hle
  by_cases hs : e.pre.state = .session
  · -- the type is behind the decoder
    rw [Preamble.decFeed_session hs] at hf
    unfold Preamble.decFeedSession at hf
    generalize Varint.decFeed e.pre.vi data = x at hf
    obtain ⟨_ | sid, vi, n⟩ := x
    · cases hf
      exact ⟨⟨h.1, fun ht => by simp [Estream.fed, hs] at ht, fun ht => by simp [Estream.fed, hs] at ht⟩,
        nofun⟩
    · cases hf
      exact absurd rfl (hres _ _ _)
  have hfeed := h.feed hf hs
  rcases Preamble.decFeed_init_cases hfeed hres with ⟨rfl, hne⟩ | ⟨rfl, hpre, hvarint⟩
  · refine ⟨⟨h.1, fun ht => ?_, fun ht => absurd ht hne⟩, nofun⟩
    have ht : pre.state = .type := ht
    obtain ⟨hkept, hlen⟩ := fed_kept hle (Preamble.decFeed_init_le hfeed (by simp [ht]) nofun)
    rw [hkept, hlen, hfeed]
    rfl
  · obtain ⟨hkept, hlen⟩ := fed_kept hle (Preamble.decFeed_init_le hfeed (by simp [hpre]) nofun)
    refine ⟨⟨h.1, fun ht => ?_, fun _ => ?_⟩, ?_⟩
    · have ht : pre.state = .type := ht
      simp [hpre] at ht
    · rw [hkept, hlen, hfeed]
      rfl
    · rintro v ⟨⟩
      rw [hkept, hlen]
      exact hvarint

namespace Leads

/-- A stream gets its kind. -/
theorem classify (hE : E.Sound) {i : Nat} {f : Estream → Estream} (hk : (w.es i).pending)
    (hf : (f (w.es i)).mold = (w.es i).mold) (hc : Coherent D w → Cast w.conn (f (w.es i))) :
    Leads E N D w (w.modEs i f) :=
  write hE fun hw => .of_mold hw (.inl hk)
    (.classified hk (hc hw).occupied (hc hw).local') ((hw.slots i hk.ne_free).unread hk)
    (hw.guest hk).1 hf (hc hw)

theorem wtAssociate (hE : E.Sound) {i : Nat} (sid : Nat) (bidi : Bool) (hk : (w.es i).pending) :
    Leads E N D w (wtAssociate E i sid bidi w).2 ∧
      (Engine.wtAssociate E i sid bidi w).2.conn.parkedEs = w.conn.parkedEs := by
  unfold Engine.wtAssociate
  split
  · exact ⟨connFatal hE _ _, (Frame.connFatal hE.toLawful _ w).parkedEs⟩
  split
  · next hm =>
    have ha : w.conn.sessState.active := by
      simp only [sessionMatches, Bool.and_eq_true] at hm
      exact hm.1.2
    have hjoin : Leads E N D w (w.modEs i fun e => { e with
        kind := .wt, wtBidi := bidi, wtLocal := false, wtRecvOpen := true, wtSendOpen := bidi }) :=
      classify hE hk (by rfl) fun _ =>
        ⟨by simp, by simp, ⟨rfl, id⟩, fun _ => ⟨by simp [Estream.wtDone], ha⟩, by simp, by simp⟩
    have hparked : (w.modEs i fun e => { e with
        kind := .wt, wtBidi := bidi, wtLocal := false, wtRecvOpen := true,
        wtSendOpen := bidi }).conn.parkedEs = w.conn.parkedEs := by simp
    dsimp only
    refine ⟨intro fun hw => hjoin.trans (notify hE rfl ?_), ?_⟩
    · simpa using hw.open_of_active ha
    · rw [(Frame.notify hE.toLawful _ _).parkedEs, hparked]
  · have hsp := Leads.spares_shutdownRaw (w := w) hE.toLawful hk.http (w.es i).ds bidi true
      (rejectCode w.conn sid)
    dsimp only
    have hpend : ((Engine.shutdownRaw E (w.es i).ds bidi true (rejectCode w.conn sid) w).es i).pending := by
      rw [hsp.es]
      exact hk
    refine ⟨(shutdownRaw hE _ _ _ _ w).trans (classify hE hpend (by rfl) fun hx => ?_), ?_⟩
    · exact .sink (.inr (.inr rfl)) (hx.guest hpend)
    · simpa using hsp.parkedEs

theorem classifyUni (hE : E.Sound) {i : Nat} (type : Nat) (hk : (w.es i).pending) :
    Leads E N D w (classifyUni E i type w).2 ∧
      (Engine.classifyUni E i type w).2.conn.parkedEs = w.conn.parkedEs := by
  have hdie : ∀ err, Leads E N D w (Engine.connFatal E err w) ∧
      (Engine.connFatal E err w).conn.parkedEs = w.conn.parkedEs := fun err =>
    ⟨connFatal hE _ _, (Frame.connFatal hE.toLawful _ w).parkedEs⟩
  unfold Engine.classifyUni
  split
  · split
    · exact hdie _
    · have hseen : Leads E N D w (w.updConn fun c => { c with peerControlSeen := true }) :=
        updConn hE rfl rfl rfl rfl rfl fun _ => .inl
      dsimp only
      refine ⟨hseen.trans (classify hE hk (by rfl) fun hx => .sink (.inl rfl) (hx.guest hk)),
        by simp⟩
  split
  · have hseen : Leads E N D w (w.updConn fun c =>
        if type = 0x02 then { c with qpackEncSeen := true } else { c with qpackDecSeen := true }) := by
      split <;> exact updConn hE rfl rfl rfl rfl rfl fun _ => .inl
    have hkeep : (w.updConn fun c =>
        if type = 0x02 then { c with qpackEncSeen := true }
        else { c with qpackDecSeen := true }).conn.parkedEs = w.conn.parkedEs := by
      rw [World.conn_updConn]
      split <;> rfl
    have hes : (w.updConn fun c =>
        if type = 0x02 then { c with qpackEncSeen := true }
        else { c with qpackDecSeen := true }).es i = w.es i := by
      rw [World.es_updConn]
      split <;> rfl
    dsimp only
    generalize (w.updConn fun c =>
      if type = 0x02 then { c with qpackEncSeen := true }
      else { c with qpackDecSeen := true }) = v at hseen hkeep hes ⊢
    generalize (if type = 0x02 then w.conn.qpackEncSeen else w.conn.qpackDecSeen) = seen
    split
    · exact hdie _
    · dsimp only
      rw [← hes] at hk
      refine ⟨hseen.trans (classify hE hk (by rfl) fun hx => ?_), ?_⟩
      · exact .sink (.inr (.inl rfl)) (hx.guest hk)
      · simpa using hkeep
  split
  · exact hdie _
  · dsimp only
    exact ⟨classify hE hk (by rfl) fun hx => .sink (.inr (.inr rfl)) (hx.guest hk), by simp⟩

/-- A stream reads on, and its kind stays open. -/
theorem read (hE : E.Sound) {i : Nat} {e : Estream} (hk : (w.es i).pending)
    (he : e.mold = (w.es i).mold) (hkind : e.kind = (w.es i).kind)
    (hg : (w.es i).guest → e.guest) (ht : Coherent D w → e.kind = .btype → e.typed) : Leads E N D w (w.putEs i e) := by
  have hne : e.kind ≠ .connect ∧ e.kind ≠ .wt ∧ e.kind ≠ .request := by
    rw [hkind]
    rcases hk with hk | hk <;> simp [hk]
  refine intro fun hw => act hE (.write i e (.of_mold hw (.inl hk) (hkind ▸ .same _)
    ((hw.slots i hk.ne_free).unread hk) (hw.guest hk).1 he ?_))
  exact ⟨hkind ▸ hk.ne_free, hne.1, hg (hw.guest hk), fun h => absurd h hne.2.1, fun h => absurd h hne.2.2, ht hw⟩

/-- A classified bidi stream is a request stream, or nothing is parked on it. -/
theorem bidiClassifyBytes (hE : E.Sound) (tbl : PathTable) {i : Nat} (data : Bytes)
    (hw : Coherent .none w) (hk : (w.es i).kind = .btype) :
    Leads E N .none w (bidiClassifyBytes E tbl i data w).2.2 := by
  cases hd : data.isEmpty with
  | true =>
    unfold Engine.bidiClassifyBytes
    rw [if_pos hd]
  | false =>
  have htyped := (hw.slots i (by simp [hk])).typed hk
  rcases hf : Preamble.decFeed (w.es i).pre .bidi data with ⟨res, pre, c⟩
  rw [bidiClassifyBytes_eq tbl hk hd hf]
  have haudit : Leads E N .none w (w.auditFeed i data c) :=
    (auditSub hE _ _ w).trans (auditCopy hE _ _ _ _)
  have hpend : ((w.auditFeed i data c).es i).pending := .inr (by simpa using hk)
  have hread : (∀ sid n t, res ≠ .ok sid n t) → Leads E N .none w
      ((w.auditFeed i data c).putEs i ((w.es i).fed pre (data.take c))) := fun hres =>
    haudit.trans (read hE hpend (by simp; rfl) (by simp; rfl) (by simp; exact id)
      fun _ _ => (htyped.fed hf hres).1)
  cases res with
  | needMore => exact hread nofun
  | ok sid n t =>
    have hfresh : Leads E N .none w ((w.auditFeed i data c).putEs i
        { w.es i with pre := Preamble.decInit, btypeBuf := [] }) :=
      haudit.trans (read hE hpend (by simp; rfl) (by simp) (by simp; exact id)
        fun _ _ => ⟨htyped.1, fun _ => rfl, fun h => nomatch h⟩)
    exact hfresh.trans (wtAssociate hE _ true (.inr (by simp [hk]))).1
  | unexpected v =>
    dsimp only
    split
    · exact (hread nofun).trans (connFatal hE _ _)
    next hserver =>
    have hreq : Leads E N .none w ((w.auditFeed i data c).putEs i { w.es i with
        kind := .request, pre, frameDec := H3Frame.decInit, btypeBuf := [] }) := by
      refine haudit.trans (intro fun hx => act hE (.write i _ (.of_mold hx (.inl hpend)
        (.classified hpend nofun nofun) ((hx.slots i hpend.ne_free).unread hpend) (hx.guest hpend).1
        (by simp; rfl) ?_)))
      have hguest := hx.guest hpend
      rw [World.es_auditFeed] at hguest
      exact ⟨nofun, nofun, hguest, (fun h => nomatch h), fun _ => by simpa using hserver, (fun h => nomatch h)⟩
    exact hreq.trans (requestStreamBytes hE tbl _ (hreq.coherent hw) (.inl (by simp))).1

theorem uniClassifyBytes (hE : E.Sound) {i : Nat} (data : Bytes) (hk : (w.es i).kind = .type) :
    Leads E N D w (uniClassifyBytes E i data w).2.2 ∧
      (Engine.uniClassifyBytes E i data w).2.2.conn.parkedEs = w.conn.parkedEs := by
  unfold Engine.uniClassifyBytes
  generalize Preamble.decFeed (w.es i).pre .uni data = x
  obtain ⟨res, pre, c⟩ := x
  have hkv : ((w.auditSub data.length c).es i).kind = .type := by simpa [World.auditSub] using hk
  have hfeed : Leads E N D w ((w.auditSub data.length c).modEs i fun e => { e with pre }) := by
    rw [World.modEs_of_occupied (by simp [hkv])]
    exact (auditSub hE _ _ w).trans (read hE (.inl hkv) (by rfl) (by rfl) id fun _ hb => by
      simp [hkv] at hb)
  have hkf : (((w.auditSub data.length c).modEs i fun e => { e with pre }).es i).kind = .type := by
    simp [World.auditSub, hk]
  have hpf : ((w.auditSub data.length c).modEs i fun e => { e with pre }).conn.parkedEs
      = w.conn.parkedEs := by
    simp [World.auditSub]
  dsimp only
  generalize (w.auditSub data.length c).modEs i (fun e => { e with pre }) = v at hfeed hkf hpf ⊢
  split
  · exact ⟨hfeed, hpf⟩
  · next sid _ _ =>
    obtain ⟨hlead, hp⟩ := wtAssociate (N := N) (D := D) hE sid false (.inl hkf)
    exact ⟨hfeed.trans hlead, hp.trans hpf⟩
  · next type =>
    obtain ⟨hlead, hp⟩ := classifyUni (N := N) (D := D) hE type (.inl hkf)
    exact ⟨hfeed.trans hlead, hp.trans hpf⟩

/-! ## Delivery to a WT stream -/

/-- After the session an unfinished WT stream only absorbs. -/
theorem draining_of_inactive {i : Nat} (hw : Coherent .none w) (hk : (w.es i).kind = .wt)
    (ha : w.conn.sessState.active = false) : (w.es i).wtRecvDrain := by
  have ho := hw.slots i (by simp [hk])
  have hlive := ho.quiet hk ha
  have hdone := (ho.alive hk).resolve_right id
  simp only [Estream.wtLive, Bool.or_eq_false_iff] at hlive
  simpa [Estream.wtDone, hk, hlive] using hdone

theorem wtDeliver (hE : E.Sound) {i : Nat} (data : Bytes) (fin : Bool)
    (hk : (w.es i).kind = .wt) : Leads E N .none w (wtDeliver E i data fin w) := by
  refine intro fun hw => ?_
  unfold Engine.wtDeliver
  dsimp only
  split
  · split
    · exact settle hE hk (fun h => h.less rfl rfl rfl h.pending id id) (by simp [Estream.wtLive])
        (by rfl)
    · rfl
  next hdrain =>
  have hactive : w.conn.sessState.active := by
    by_contra ha
    exact hdrain (draining_of_inactive hw hk (by simpa using ha))
  have hnotify : Leads E N .none w
      (if !data.isEmpty || fin then E.notify (.wtStreamData i data fin) w else w) := by
    split
    · exact notify hE rfl (hw.open_of_active hactive)
    · rfl
  generalize (if !data.isEmpty || fin then E.notify (.wtStreamData i data fin) w else w) = v
    at hnotify ⊢
  split
  · next h =>
    simp only [Bool.and_eq_true, beq_iff_eq] at h
    refine hnotify.trans (settle hE h.2 (fun h => h.less rfl rfl rfl h.pending id (by rintro ⟨⟩))
      (fun hl => ?_) (by rfl))
    simp only [Estream.wtLive, Bool.or_eq_false_iff] at hl ⊢
    simp [hl]
  · exact hnotify

theorem wtDeliverAccounted (hE : E.Sound) {i : Nat} (generation len : Nat) (fin : Bool) (n : Nat)
    (data : Bytes) (hk : (w.es i).kind = .wt) :
    Leads E N .none w (wtDeliverAccounted E i generation len fin n data w).2.2 := by
  induction n generalizing data w with
  | zero => rfl
  | succ n ih =>
    unfold Engine.wtDeliverAccounted
    dsimp only
    split
    · rfl
    split
    · rfl
    have hchunk := wtDeliver (N := N) hE (data.take 65535) (fin && (data.drop 65535).isEmpty) hk
    split
    · exact hchunk
    · next h =>
      simp only [Bool.or_eq_true, not_or, bne_iff_ne, not_not] at h
      exact hchunk.trans (ih _ h.2)

end Leads

/-! ## Classified streams stay -/

/-- A walk that has not come to the end of a frame header touches the decoder only. -/
theorem frameWalk_header {W : FrameWalk σ} {i : Nat} {data : Bytes} (ha : (w.es i).frameActive = false)
    (hh : (H3Frame.decFeed (w.es i).frameDec data).1 = none) :
    ((frameWalk W i data w).es i).kind = (w.es i).kind := by
  unfold frameWalk frameLoop
  split
  · rfl
  unfold frameRound frameHead
  simp only [ha, Bool.false_eq_true, if_false]
  generalize H3Frame.decFeed (w.es i).frameDec data = x at hh ⊢
  obtain ⟨h, dec, c⟩ := x
  dsimp only at hh
  subst hh
  simp [World.auditSub]

/-- One varint is not a frame header. -/
theorem header_of_varint {data : Bytes} {v : Nat} {vi : Varint.Dec}
    (h : Varint.decFeed Varint.decInit data = (some v, vi, data.length)) :
    (H3Frame.decFeed H3Frame.decInit data).1 = none := by
  rw [H3Frame.decFeed_some rfl h, List.drop_length, H3Frame.decFeedLength, H3Frame.Dec.typed,
    Varint.decFeed_some h]
  rfl

theorem wtAssociate_occupied (hE : E.Lawful) {i : Nat} (sid : Nat) (bidi : Bool)
    (hk : (w.es i).pending) : ((wtAssociate E i sid bidi w).2.es i).kind ≠ .free := by
  unfold wtAssociate
  split
  · dsimp only
    rw [(Frame.connFatal (S := .call) hE _ w).http i id hk.http]
    exact hk.ne_free
  split
  · -- a call does not close the receive half for good
    have hheld := (Frame.notify (S := .call) hE (.wtStreamOpened i bidi (w.es i).id)
      (w.modEs i fun e => { e with
        kind := .wt, wtBidi := bidi, wtLocal := false, wtRecvOpen := true,
        wtSendOpen := bidi })).held i id (by simp [Estream.recvHeld])
    intro hfree
    simp only [World.es_modEs_self] at hfree
    have := hheld.1
    simp only [Estream.recvHeld, hfree] at this
    cases this
  · simp

theorem classifyUni_occupied (hE : E.Lawful) {i : Nat} (type : Nat) (hk : (w.es i).pending) :
    ((classifyUni E i type w).2.es i).kind ≠ .free := by
  have hdie : ∀ err, ((connFatal E err w).es i).kind ≠ .free := fun err => by
    rw [(Frame.connFatal (S := .call) hE _ w).http i id hk.http]
    exact hk.ne_free
  unfold classifyUni
  split
  · split
    · exact hdie _
    · simp
  split
  · dsimp only
    generalize (if type = 0x02 then w.conn.qpackEncSeen else w.conn.qpackDecSeen) = seen
    split
    · exact hdie _
    · simp
  split
  · exact hdie _
  · simp

/-- The world in which a uni stream has been classified. -/
def uniClassified (E : Ctx σ) (i : Nat) (data : Bytes) (w : World σ) :
    Bool × Bytes × World σ :=
  if (w.es i).kind = .type ∧ !data.isEmpty then uniClassifyBytes E i data w else (true, data, w)

/-- A unidirectional delivery goes on from the classified stream. -/
theorem uniDelivery_classified (tbl : PathTable) (accounted : Bool) (i gen len : Nat) (data : Bytes)
    (fin : Bool) : uniDelivery E tbl accounted i gen len data fin w =
      (let (live, data, w) := uniClassified E i data w
      if !live then (.proto, len, w)
      else if accounted && (w.conn.closed || (w.es i).generation != gen
          || (w.es i).kind == .free) then (.ok, len, w)
      else if (w.es i).kind = .wt then
        if accounted then wtDeliverAccounted E i gen len fin (data.length + 1) data w
        else (.ok, len, wtDeliver E i data fin w)
      else
        let (rc, w) := sinkDelivery E tbl i data fin w
        (rc, len, w)) := rfl

theorem uniClassified_occupied (hE : E.Lawful) {i : Nat} (data : Bytes)
    (hk : (w.es i).kind ≠ .free) : ((uniClassified E i data w).2.2.es i).kind ≠ .free := by
  unfold uniClassified
  split
  · next h =>
    unfold uniClassifyBytes
    generalize Preamble.decFeed (w.es i).pre .uni data = x
    obtain ⟨res, pre, c⟩ := x
    have hpend : (((w.auditSub data.length c).modEs i fun e => { e with pre }).es i).pending :=
      .inl (by simpa [World.auditSub] using h.1)
    dsimp only
    split
    · exact hpend.ne_free
    · exact wtAssociate_occupied hE _ false hpend
    · exact classifyUni_occupied hE _ hpend
  · exact hk

theorem bidiClassifyBytes_occupied (hE : E.Lawful) (tbl : PathTable) {i : Nat} (data : Bytes)
    (hw : Coherent D w) (hk : (w.es i).kind = .btype) :
    ((bidiClassifyBytes E tbl i data w).2.2.es i).kind ≠ .free := by
  cases hd : data.isEmpty with
  | true => simp [bidiClassifyBytes, hd, hk]
  | false =>
  have htyped := (hw.slots i (by simp [hk])).typed hk
  rcases hf : Preamble.decFeed (w.es i).pre .bidi data with ⟨res, pre, c⟩
  have hocc : ((w.es i).fed pre (data.take c)).kind = .btype := hk
  rw [bidiClassifyBytes_eq tbl hk hd hf]
  cases res with
  | needMore => simp [hocc]
  | ok sid n t => exact wtAssociate_occupied hE sid true (.inr (by simp [hk]))
  | unexpected v =>
    dsimp only
    split
    · rw [(Frame.connFatal (S := .call) hE _ _).http i id (by simp [hocc, EsKind.http])]
      simp [hocc]
    · -- the replay is one varint, so the walk does not come to a frame
      obtain ⟨vi, hvarint⟩ := (htyped.fed hf (by rintro - - - ⟨⟩)).2 v rfl
      unfold requestStreamBytes
      split
      · simp
      · rw [frameWalk_header]
        · simp
        · simpa using htyped.1
        · simpa using header_of_varint hvarint

/-! ## Delivery -/

namespace Leads

theorem requestDeliveryFin (hE : E.Sound) {i : Nat} (fin : Bool)
    (hk : (w.es i).kind ≠ .free → (w.es i).requests) :
    Leads E N .none w (requestDeliveryFin E i fin w).2 := by
  unfold Engine.requestDeliveryFin
  split
  · rfl
  split
  · rfl
  next hne =>
  split
  · rfl
  split
  · split
    · exact connFatal hE _ _
    · have hfin : Leads E N .none w (w.updConn fun c => { c with parkedFin := true }) :=
        updConn hE rfl rfl rfl rfl rfl fun _ => .inl
      exact hfin
  · next hp => exact finish hE (hk hne) hp

theorem requestDelivery (hE : E.Sound) (tbl : PathTable) {i : Nat} (data : Bytes) (fin : Bool)
    (hk : (w.es i).requests) : Leads E N .none w (requestDelivery E tbl i data fin w).2 := by
  refine intro fun hw => ?_
  unfold Engine.requestDelivery
  split
  · next h =>
    simp only [Bool.and_eq_true] at h
    exact sessionStreamPoisoned hE hk h.1.1
  split
  · exact requestDeliveryFin hE fin fun _ => hk
  · obtain ⟨hlead, hstay⟩ := requestStreamBytes hE tbl data hw hk
    exact hlead.trans (requestDeliveryFin hE fin (hstay.requests hk))

/-! ## Sinks -/

theorem sinkControl (hE : E.Sound) (tbl : PathTable) (i : Nat) (data : Bytes) (w : World σ) :
    Leads E N .none w (sinkControl E tbl i data w) := by
  unfold Engine.sinkControl
  split
  · next h =>
    simp only [Bool.and_eq_true, beq_iff_eq] at h
    exact controlBytes hE tbl data h.1.2
  · rfl

theorem sinkQpack (hE : E.Sound) (i : Nat) (data : Bytes) (w : World σ) :
    Leads E N D w (sinkQpack E i data w) := by
  unfold Engine.sinkQpack
  split
  · next h =>
    simp only [Bool.and_eq_true, beq_iff_eq] at h
    exact qpackBytes hE data (by simp [h.1.2])
  · rfl

theorem sinkDelivery (hE : E.Sound) (tbl : PathTable) {i : Nat} (data : Bytes) (fin : Bool)
    (hk : (w.es i).kind ≠ .free) (hp : w.conn.parkedEs ≠ some i) :
    Leads E N .none w (sinkDelivery E tbl i data fin w).2 := by
  by_cases hcrit : (w.es i).kind.critical
  · -- a critical stream stays in its slot, and its FIN is fatal
    have hbytes := (sinkControl (N := N) hE tbl i data w).trans (sinkQpack hE i data _)
    refine intro fun hw => ?_
    have hkeep := (hbytes.acts hw).critical hE.toLawful hcrit
    unfold Engine.sinkDelivery sinkDeliveryFin
    generalize Engine.sinkQpack E i data (Engine.sinkControl E tbl i data w) = v at hbytes hkeep ⊢
    rw [← hkeep] at hcrit
    split
    · exact hbytes
    split
    · exact hbytes
    split
    · exact hbytes.trans (connFatal hE _ _)
    · next hne =>
      revert hcrit hne
      generalize (v.es i).kind = k
      cases k <;> simp [EsKind.critical]
  · have hnone : Engine.sinkQpack E i data (Engine.sinkControl E tbl i data w) = w := by
      have hc : (w.es i).kind ≠ .control := by
        rintro h
        simp [h, EsKind.critical] at hcrit
      have hq : (w.es i).kind ≠ .qpack := by
        rintro h
        simp [h, EsKind.critical] at hcrit
      simp [Engine.sinkControl, Engine.sinkQpack, hc, hq]
    unfold Engine.sinkDelivery sinkDeliveryFin
    rw [hnone]
    split
    · rfl
    split
    · rfl
    split
    · next h =>
      rcases h with h | h <;> simp [h, EsKind.critical] at hcrit
    next hne =>
    rw [not_or] at hne
    exact estreamRelease hE hk hne hp

theorem uniDelivery (hE : E.Sound) (tbl : PathTable) (accounted : Bool) {i : Nat}
    (gen len : Nat) (data : Bytes) (fin : Bool) (hk : (w.es i).kind ≠ .free)
    (hp : w.conn.parkedEs ≠ some i) :
    Leads E N .none w (uniDelivery E tbl accounted i gen len data fin w).2.2 := by
  have hocc := uniClassified_occupied hE.toLawful data hk
  have hclass : Leads E N .none w (uniClassified E i data w).2.2 ∧
      (uniClassified E i data w).2.2.conn.parkedEs = w.conn.parkedEs := by
    unfold uniClassified
    split
    · next h => exact uniClassifyBytes hE data h.1
    · exact ⟨.refl w, rfl⟩
  rw [uniDelivery_classified]
  generalize uniClassified E i data w = x at hclass hocc ⊢
  obtain ⟨live, data', v⟩ := x
  dsimp only at hclass hocc ⊢
  split
  · exact hclass.1
  split
  · exact hclass.1
  split
  · next hk =>
    split
    · exact hclass.1.trans (wtDeliverAccounted hE _ _ _ _ _ hk)
    · exact hclass.1.trans (wtDeliver hE _ _ hk)
  · exact hclass.1.trans (sinkDelivery hE tbl data' fin hocc (by rw [hclass.2]; exact hp))

theorem classifiedDelivery (hE : E.Sound) (tbl : PathTable) (accounted : Bool) {i : Nat}
    (gen len : Nat) (data : Bytes) (fin : Bool) (hk : (w.es i).kind ≠ .free) :
    Leads E N .none w (classifiedDelivery E tbl accounted i gen len data fin w).2.2 := by
  unfold Engine.classifiedDelivery
  split
  · next hk => exact requestDelivery hE tbl data fin hk.symm
  · next hr =>
    rw [not_or] at hr
    exact intro fun hw => uniDelivery hE tbl accounted gen len data fin hk (hw.not_parked hr.2)

theorem streamBytes (hE : E.Sound) (tbl : PathTable) (accounted : Bool) (i : Nat) (data : Bytes)
    (fin : Bool) : Leads E N .none w (streamBytes E tbl accounted i data fin w).2.2 := by
  unfold Engine.streamBytes
  split
  · rfl
  split
  · rfl
  next hfree =>
  dsimp only
  split
  · next hk =>
    refine intro fun hw => (bidiClassifyBytes hE tbl data hw hk).trans ?_
    have hocc := bidiClassifyBytes_occupied hE.toLawful tbl data hw hk
    generalize Engine.bidiClassifyBytes E tbl i data w = x at hocc ⊢
    obtain ⟨live, rest, v⟩ := x
    dsimp only [Engine.bidiDelivery] at hocc ⊢
    split
    · rfl
    split
    · rfl
    split
    · split
      · exact connFatal hE _ _
      · rfl
    · exact classifiedDelivery hE tbl accounted _ _ rest fin hocc
  · exact classifiedDelivery hE tbl accounted _ _ data fin hfree

end Leads

/-! ## The end of a stream -/

/-- Acts lead from `w` to `w'`. When `X` holds, a slot that is free already may have been
released once more at the end. -/
inductive Ends (E : Ctx σ) (N : News) (X : Prop) (w w' : World σ) : Prop
  | leads (h : Leads E N .none w w')
  | twice (hX : X) {v : World σ} {i : Nat} (h : Leads E N .none w v) (hi : (v.es i).kind = .free)
      (he : w' = estreamRelease E i v)

namespace Ends

variable {X : Prop}

/-- The start may be taken as coherent. -/
theorem intro (h : Coherent .none w → Ends E N X w w') : Ends E N X w w' := by
  by_cases hw : Coherent .none w
  · exact h hw
  · exact .leads (.intro fun h => absurd h hw)

theorem after (h : Leads E N .none w w') (h' : Ends E N X w' w'') : Ends E N X w w'' :=
  match h' with
  | .leads h' => .leads (h.trans h')
  | .twice hX h' hi he => .twice hX (h.trans h') hi he

theorem leads_of_not (h : Ends E N X w w') (hX : ¬ X) : Leads E N .none w w' :=
  match h with
  | .leads h => h
  | .twice hx _ _ _ => absurd hx hX

end Ends


namespace Ends

variable {X : Prop}

/-- The terminal report of a WT stream. Nothing may end the session in it, for the session
releases the streams that are finished. -/
theorem wtTerminal (hE : E.Sound) {i : Nat} (hk : (w.es i).kind = .wt)
    (hX : (w.es i).wtLive →
      (E.notify (.wtStreamTerminal i) (w.modEs i Estream.closeAll)).conn.sessState.over → X) :
    Ends E N X w (Engine.estreamRelease E i
      (if (w.es i).wtLive then E.notify (.wtStreamTerminal i) (w.modEs i Estream.closeAll)
        else w.modEs i Estream.closeAll)) := by
  refine .intro fun hw => ?_
  have hclose : Leads E N (.slot .wt i) w (w.modEs i Estream.closeAll) :=
    .write hE fun hv => .of_halves hv hk (by rfl)
      (fun h => h.less rfl rfl rfl nofun nofun nofun) (fun _ => rfl) (.inr ⟨rfl, rfl⟩)
  have hes : (w.modEs i Estream.closeAll).es i = (w.es i).closeAll := World.es_modEs_self _ _ _
  have hsess : (w.modEs i Estream.closeAll).conn.sessState = w.conn.sessState := by simp
  have hclosed : (w.modEs i Estream.closeAll).conn.closed = w.conn.closed := by simp
  generalize w.modEs i Estream.closeAll = v at hclose hes hsess hclosed hX ⊢
  -- a slot that still holds the stream is released here
  have hrelease : ∀ u, Leads E N (.slot .wt i) w u → (u.es i).kind = .wt →
      Leads E N .none w (Engine.estreamRelease E i u) := by
    intro u hu hku
    have hrel : Leads E N (.slot .wt i) u (Engine.estreamRelease E i u) := .intro fun hv =>
      .estreamRelease hE (by simp [hku]) (by simp [hku]) (hv.not_parked (by simp [hku]))
    refine (hu.trans hrel).close fun hv => hv.discharge ?_ fun j hd => nomatch hd.1
    rintro j ⟨-, rfl⟩
    simp [Estream.wtDone, Estream.released]
  split
  · next hlive =>
    have ha : w.conn.sessState.active := by
      by_contra ha
      have := (hw.slots i (by simp [hk])).quiet hk (by simpa using ha)
      simp [hlive] at this
    have hnotify : Leads E N (.slot .wt i) w (E.notify (.wtStreamTerminal i) v) :=
      hclose.trans (.notify hE rfl (hclosed.trans (hw.open_of_active ha)))
    have hdone : (v.es i).wtDone := by simp [hes, Estream.wtDone, Estream.closeAll, hk]
    rcases hE.dormant (.wtStreamTerminal i) v (by rw [hsess]; exact ha) with ⟨ho, hs⟩ | ⟨-, hs⟩
    · rcases hs i hdone with ⟨hs, -⟩ | hs
      · exact .leads (hrelease _ hnotify hs)
      · refine .twice (hX hlive ho) (hnotify.close fun hv => hv.discharge ?_ ?_) hs rfl
        · rintro j ⟨-, rfl⟩
          simp [Estream.wtDone, hs]
        · exact fun j hd => nomatch hd.1
    · obtain ⟨u, hu⟩ := hs i hdone
      exact .leads (hrelease _ hnotify (by rw [hu, hes]; exact hk))
  · exact .leads (hrelease v hclose (by rw [hes]; exact hk))

theorem onStreamTerminal (hE : E.Sound) (i : Nat)
    (hX : (w.es i).kind = .wt → (w.es i).wtLive → w.conn.closed = false →
      (E.notify (.wtStreamTerminal i) (w.modEs i Estream.closeAll)).conn.sessState.over → X) :
    Ends E N X w (onStreamTerminal E i w).2 := by
  unfold Engine.onStreamTerminal
  dsimp only
  cases hk : (w.es i).kind with
  | free => exact .leads (.refl w)
  | drain =>
    dsimp only
    split
    · exact .leads (.refl w)
    · exact .leads (.intro fun hw =>
        .estreamRelease hE (by simp [hk]) (by simp [hk]) (hw.not_parked (by simp [hk])))
  | request =>
    dsimp only
    split
    · exact .leads (.refl w)
    split
    · refine .leads ?_
      have hcancel : Leads E N .none w
          (if w.conn.parkedEs = some i then parkedRequestCancel w else w) := by
        split
        · exact .parkedRequestCancel hE _
        · rfl
      have hes : (if w.conn.parkedEs = some i then parkedRequestCancel w else w).es = w.es := by
        split <;> rfl
      have hpark : (if w.conn.parkedEs = some i then parkedRequestCancel w else w).conn.parkedEs
          ≠ some i := by
        split
        · exact fun h => nomatch h
        · assumption
      exact hcancel.trans (.estreamRelease hE (by simp [hes, hk]) (by simp [hes, hk]) hpark)
    · exact .leads (.refl w)
  | wt =>
    dsimp only
    split
    · exact .leads (.refl w)
    · next ho => exact wtTerminal hE hk fun hl => hX hk hl (by simpa using ho)
  | type | btype | control | qpack | connect | reserved =>
    dsimp only
    split <;> exact .leads (.refl w)

end Ends
end Wtquic.Engine
