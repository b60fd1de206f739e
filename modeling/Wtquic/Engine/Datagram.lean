-- SUMMARY: The datagram fast path agrees with the general decode, and what is sent arrives as it was.
import Wtquic.Engine.Goaway

namespace Wtquic.Engine

/-! # Datagrams

A datagram of the session begins with a varint, the quarter of the session id. The engine
first compares the bytes with the prefix it would send itself. -/

variable {σ : Type} {E : Ctx σ} {D : Doomed} {w w' : World σ}

/-- What becomes of a datagram by its leading varint: it breaks the protocol, is for no session
of ours, or is for ours and carries the rest. -/
inductive DgramFate where
  | broken
  | dropped
  | delivered (payload : Bytes)
  deriving DecidableEq, Repr

def dgramFate (c : Conn) (data : Bytes) : DgramFate :=
  match Varint.decode data with
  | none => .broken
  | some (qsid, n) =>
    if qsid > 2 ^ 60 - 1 then .broken
    else if c.sessState.active && qsid == c.sessionId / 4 then .delivered (data.drop n)
    else .dropped

/-- What the engine does about the fate of a datagram. -/
def dgramApply (E : Ctx σ) : DgramFate → World σ → Rc × World σ
  | .broken, w => (.proto, connFatal E H3Err.datagramError w)
  | .dropped, w => (.ok, w.updConn fun c => { c with dgramsDropped := c.dgramsDropped + 1 })
  | .delivered payload, w => (.ok, E.notify (.wtDatagram payload) w)

/-- The session of a connection has a valid id, and the prefix that belongs to it. -/
structure Quartered (c : Conn) : Prop where
  valid : c.sessState.active → c.sessionId < 2 ^ 62
  pfx : c.sessState.active → Varint.encode (c.sessionId / 4) 8 = .ok c.qsidPrefix

/-- A datagram with our prefix is ours by its varint too. -/
theorem dgramFate_ours {c : Conn} (hq : Quartered c) (ha : c.sessState.active) (payload : Bytes) :
    dgramFate c (c.qsidPrefix ++ payload) = .delivered payload := by
  have hdecode := Varint.decode_append (Varint.decode_encode (hq.pfx ha)) payload
  have hvalid := hq.valid ha
  unfold dgramFate
  rw [hdecode]
  dsimp only
  rw [if_neg (by omega), if_pos (by simp [ha]), List.drop_left]

/-- The comparison of the prefix decides as the varint does. -/
theorem dgramApply_fast {data : Bytes} (hq : Quartered w.conn) :
    (if sessionActive w && w.conn.qsidPrefix.isPrefixOf data then
      (.ok, E.notify (.wtDatagram (data.drop w.conn.qsidPrefix.length)) w)
    else
      match Varint.decode data with
      | none => (.proto, connFatal E H3Err.datagramError w)
      | some (qsid, c) =>
        if qsid > 2 ^ 60 - 1 then (.proto, connFatal E H3Err.datagramError w)
        else if sessionActive w && qsid == w.conn.sessionId / 4 then
          (.ok, E.notify (.wtDatagram (data.drop c)) w)
        else (.ok, w.updConn fun c => { c with dgramsDropped := c.dgramsDropped + 1 }))
      = dgramApply E (dgramFate w.conn data) w := by
  split
  · next h =>
    simp only [Bool.and_eq_true, sessionActive] at h
    obtain ⟨payload, rfl⟩ := List.isPrefixOf_iff_prefix.mp h.2
    rw [dgramFate_ours hq h.1, List.drop_left]
    rfl
  · unfold dgramFate
    generalize Varint.decode data = v
    cases v with
    | none => rfl
    | some r =>
      dsimp only
      rw [sessionActive]
      split
      · rfl
      · split <;> rfl

/-! ## The deferred locals -/

/-- A step that writes nothing but the fields of the local critical streams. -/
def LocalsOnly (w w' : World σ) : Prop :=
  ∃ (a : Bool) (b c d : Nat), w'.conn = { w.conn with
    localsAttempted := a, localCtrl := b, localQpkEnc := c, localQpkDec := d }

theorem LocalsOnly.quartered (h : LocalsOnly w w') (hq : Quartered w.conn) : Quartered w'.conn := by
  obtain ⟨a, b, c, d, hc⟩ := h
  rw [hc]
  exact ⟨hq.valid, hq.pfx⟩

theorem LocalsOnly.trans {w'' : World σ} (h : LocalsOnly w w') (h' : LocalsOnly w' w'') :
    LocalsOnly w w'' := by
  obtain ⟨a, b, c, d, hc⟩ := h
  obtain ⟨a', b', c', d', hc'⟩ := h'
  exact ⟨a', b', c', d', by rw [hc', hc]⟩

theorem localsOnly_openLocal {store : Nat → Conn → Conn} (bytes : Bytes) (w : World σ)
    (hs : ∀ ds (u : World σ), LocalsOnly u (u.updConn (store ds))) :
    LocalsOnly w (openLocal E store bytes w).2 := by
  have hself : ∀ u : World σ, u.conn = w.conn → LocalsOnly w u := fun u hu =>
    ⟨_, _, _, _, hu⟩
  unfold openLocal
  dsimp only
  split
  · exact hself _ rfl
  · exact (hself (w.op E (.openUni none)).2.newDetachedDs.2 rfl).trans
      ((hs _ _).trans ⟨_, _, _, _, rfl⟩)

theorem localsOnly_connOpenLocals (w : World σ) : LocalsOnly w (connOpenLocals E w).2 := by
  have hctrl : ∀ ds (u : World σ), LocalsOnly u (u.updConn fun c => { c with localCtrl := ds }) :=
    fun ds u => ⟨_, ds, _, _, rfl⟩
  have henc : ∀ ds (u : World σ), LocalsOnly u (u.updConn fun c => { c with localQpkEnc := ds }) :=
    fun ds u => ⟨_, _, ds, _, rfl⟩
  have hdec : ∀ ds (u : World σ), LocalsOnly u (u.updConn fun c => { c with localQpkDec := ds }) :=
    fun ds u => ⟨_, _, _, ds, rfl⟩
  unfold connOpenLocals
  dsimp only
  split
  · exact ⟨_, _, _, _, rfl⟩
  next frame _ =>
  have hattempt : LocalsOnly w (w.updConn fun c => { c with localsAttempted := true }) :=
    ⟨true, _, _, _, rfl⟩
  have h₁ := hattempt.trans (localsOnly_openLocal (E := E) (0x00 :: frame) _ hctrl)
  split
  · exact h₁
  have h₂ := h₁.trans (localsOnly_openLocal (E := E) [0x02] _ henc)
  split
  · exact h₂
  · exact h₂.trans (localsOnly_openLocal (E := E) [0x03] _ hdec)

/-- Deferred locals that open leave the rest of the connection alone. -/
theorem localsOnly_deferred (h : (connOpenLocalsIfDeferred E w).1 = .ok) :
    LocalsOnly w (connOpenLocalsIfDeferred E w).2 := by
  unfold connOpenLocalsIfDeferred at h ⊢
  split
  · exact ⟨_, _, _, _, rfl⟩
  · next hd =>
    rw [if_neg hd] at h
    dsimp only at h ⊢
    split
    · next hr =>
      rw [if_pos hr] at h
      cases h
    · exact localsOnly_connOpenLocals w

/-- A datagram is judged by its varint, and nothing else. -/
theorem onDatagram_eq {data : Bytes} (hq : Quartered w.conn) (ho : w.conn.closed = false)
    (hl : (connOpenLocalsIfDeferred E w).1 = .ok) : onDatagram E data w =
      dgramApply E (dgramFate w.conn data) (connOpenLocalsIfDeferred E w).2 := by
  have hlocals := localsOnly_deferred hl
  have hq' := hlocals.quartered hq
  obtain ⟨a, b, c, d, hc⟩ := hlocals
  have hfate : dgramFate w.conn data = dgramFate (connOpenLocalsIfDeferred E w).2.conn data := by
    rw [hc]
    rfl
  rw [hfate, ← dgramApply_fast hq', onDatagram, if_neg (by simp [ho])]
  exact if_neg (not_not.mpr hl)

/-! ## Sending -/

/-- An accepted datagram is one submission of the prefix and the spans, within the maximum. -/
theorem dgramSend_ok {spans : List Bytes} (h : (dgramSend E spans w).1 = .ok) :
    w.conn.sessState.active ∧ w.conn.closed = false ∧
      ∃ m r, (dgramSend E spans w).2 =
          (w.log (.op .dgramMaxSize m)).log (.op (.dgramSend (w.conn.qsidPrefix :: spans)) r) ∧
        r.rc = .ok ∧ w.conn.qsidPrefix.length + spans.flatten.length ≤ m.size := by
  unfold dgramSend at h ⊢
  split at h
  · cases h
  next hspans =>
  split at h
  · cases h
  next hopen =>
  split at h
  · cases h
  next hact =>
  split at h
  · cases h
  next hcap =>
  rw [if_neg hspans, if_neg hopen, if_neg hact, if_neg hcap]
  simp only [Bool.or_eq_true, not_or, Bool.not_eq_true] at hopen
  refine ⟨by simpa [sessionActive] using hact, hopen.1, ?_⟩
  dsimp only at h ⊢
  split at h
  · cases h
  next hpfx =>
  split at h
  · cases h
  next hfit =>
  rw [if_neg hpfx, if_neg hfit]
  refine ⟨(w.op E .dgramMaxSize).1, _, rfl, h, ?_⟩
  rw [List.length_flatten]
  omega

/-! ## Runs -/

theorem run_quartered (env : Env) (depth : Nat) (cfg : ConnCfg) {inputs : List Input}
    (h : HonestRun env depth [] (init cfg) inputs) :
    Quartered (run env depth (init cfg) inputs).world.conn := by
  have hw := run_coherent env depth inputs (coherent_init cfg)
  have hidle : Begun (init cfg).world := by
    intro ha
    unfold init create at ha
    split at ha <;> cases ha
  have hbegun := (run_obeys env depth inputs (coherent_init cfg)).begun hidle
  rw [← List.append_nil inputs] at h
  obtain ⟨-, known, hi, -⟩ := run_ids env depth h (coherent_init cfg) (ids_init cfg)
  have hvalid : (run env depth (init cfg) inputs).world.conn.sessState.active →
      (run env depth (init cfg) inputs).world.conn.sessionId < 2 ^ 62 := fun ha =>
    (hi.known .session _ (World.nativeId_session.mpr ⟨hbegun ha, rfl⟩)).1
  refine ⟨hvalid, fun ha => ?_⟩
  have hsid := hvalid ha
  -- a quarter of a stream id is at most eight bytes long
  have hmax : (run env depth (init cfg) inputs).world.conn.sessionId / 4 ≤ Varint.max := by
    unfold Varint.max
    omega
  have hlen : Varint.len ((run env depth (init cfg) inputs).world.conn.sessionId / 4) ≤ 8 := by
    unfold Varint.len
    repeat' split
    all_goals omega
  obtain ⟨bs, hbs⟩ := Varint.encode_of_le 8 hmax hlen
  rw [hw.quarter (hbegun ha), hbs]
  rfl

/-- In an honest run a datagram is judged by its leading varint alone, of any length: it kills
the connection when the varint is cut short or above 2^60 - 1, is delivered with the bytes behind
the varint when that is a quarter of the session id, and is dropped otherwise. -/
theorem datagram_classified (env : Env) (depth : Nat) (cfg : ConnCfg) (inputs : List Input)
    (data : Bytes) (h : HonestRun env depth [] (init cfg) inputs) :
    let E := env.ctx depth
    let w := (run env depth (init cfg) inputs).world
    w.conn.closed = false → (connOpenLocalsIfDeferred E w).1 = .ok →
      onDatagram E data w = dgramApply E (dgramFate w.conn data) (connOpenLocalsIfDeferred E w).2 :=
  fun ho hl => onDatagram_eq (run_quartered env depth cfg h) ho hl

/-- A driver that carries datagrams, and reports native ids late. -/
def Env.roomy : Env where
  drv _ o :=
    match o with
    | .dgramMaxSize => { size := 1200 }
    | _ => {}
  app _ _ := []

/-- A server gets the client's SETTINGS and its CONNECT. -/
def serverSession : List Input :=
  [.start, .setPaths [{ path := [47] }], .peerUniOpened 2,
    .streamBytes 0 [0, 4, 13, 1, 0, 7, 0, 8, 1, 51, 1, 172, 124, 240, 0, 1] false,
    .peerBidiOpened 0, .streamBytes 1 ([1, 35] ++ plainSection) false]

/-- What a stream id is checked against, as a test. -/
def Conn.idFree (c : Conn) (id : Nat) : Bool :=
  id < 2 ^ 62 && id % 2 == (if c.persp = .client then 1 else 0)
    && (List.range c.streamCapacity).all (fun i => (c.peer i).kind == .free || (c.peer i).id != id)
    && (!c.sessionEstablished || c.sessionId != id)
    && (List.range c.peerCapacity).all fun r => (c.admissionPeers r).isNone

theorem Coherent.peerId_of_idFree {id : Nat} (hw : Coherent D w) (h : w.conn.idFree id) :
    w.conn.PeerId id := by
  simp only [Conn.idFree, Bool.and_eq_true, decide_eq_true_eq, beq_iff_eq, List.all_eq_true,
    List.mem_range, Bool.or_eq_true, bne_iff_ne, Bool.not_eq_true'] at h
  obtain ⟨⟨⟨⟨hv, hp⟩, hslots⟩, hsess⟩, hrec⟩ := h
  refine hw.peerId hv hp (fun i hi hk => (hslots i hi).resolve_left hk) (fun he => ?_) fun r hr => ?_
  · exact hsess.resolve_left (by simp [he])
  · exact Option.isNone_iff_eq_none.mp (hrec r hr)

/-- The ids of the streams that the peer opens in a run. -/
def Input.opens : Input → Option Nat
  | .peerUniOpened id | .peerBidiOpened id | .admissionInit _ _ id => some id
  | _ => none

/-- The test along a run. -/
def freshTest (env : Env) (depth : Nat) : State → List Input → Bool
  | _, [] => true
  | s, inp :: rest =>
    inp.opens.all s.world.conn.idFree && freshTest env depth (step env depth s inp) rest

theorem FreshRun.of_test {env : Env} {depth : Nat} {s : State} {inputs : List Input}
    (hw : Coherent .none s.world) (h : freshTest env depth s inputs) : FreshRun env depth s inputs := by
  induction inputs generalizing s with
  | nil => trivial
  | cons inp inputs ih =>
    simp only [freshTest, Bool.and_eq_true] at h
    obtain ⟨hopens, hrest⟩ := h
    refine ⟨?_, ih (run_coherent env depth [inp] hw) hrest⟩
    cases inp with
    | peerUniOpened id => exact hw.peerId_of_idFree hopens
    | peerBidiOpened id => exact hw.peerId_of_idFree hopens
    | admissionInit r bidi id => exact hw.peerId_of_idFree hopens
    | _ => trivial

theorem honest_client :
    HonestRun .roomy 1 [] (init { persp := .client }) (lateIds.take 6) := by
  have hsilent : (run .roomy 1 (init { persp := .client }) (lateIds.take 6)).world.trace.all
      fun o => o.issue.isNone := by
    rw [show lateIds.take 6 = .start :: .call (.clientConnect plainConnect) ::
      (lateIds.take 6).drop 2 from rfl, Env.run_connecting _ ⟨rfl, rfl, rfl, rfl⟩]
    decide +kernel
  refine .of_silent .roomy 1 ?_ hsilent
  -- the one stream the peer opens is its control stream
  let c := (run .roomy 1 (init { persp := .client }) (lateIds.take 2)).world.conn
  have hfree : c.idFree 3 := by
    rw [show c = (run .roomy 1 Env.roomy.connecting []).world.conn from
      congrArg (·.world.conn) (Env.run_connecting _ ⟨rfl, rfl, rfl, rfl⟩ [])]
    decide +kernel
  have hw := run_coherent .roomy 1 (lateIds.take 2) (coherent_init { persp := .client })
  exact ⟨trivial, trivial, hw.peerId_of_idFree hfree, trivial, trivial, trivial, trivial⟩

theorem honest_server : HonestRun .roomy 1 []
    (init { persp := .server, enableConnectProtocol := true }) serverSession :=
  .of_silent .roomy 1 (.of_test (coherent_init _) (by decide +kernel)) (by decide +kernel)

theorem datagram_classified_long :
    let w := (run .roomy 1 (init { persp := .server, enableConnectProtocol := true })
      serverSession).world
    (onDatagram (Env.roomy.ctx 1) [64, 0, 104] w).2.trace
      = .ret :: .cb (.wtDatagram [104]) :: w.trace := by
  intro w
  have hready : w.conn.closed = false ∧ (connOpenLocalsIfDeferred (Env.roomy.ctx 1) w).1 = .ok := by
    decide +kernel
  rw [datagram_classified .roomy 1 { persp := .server, enableConnectProtocol := true } serverSession
    [64, 0, 104] honest_server hready.1 hready.2]
  decide +kernel

end Wtquic.Engine
