-- SUMMARY: The client connect: null pointers, its buffers, and what it leaves behind on failure and success.
import Wtquic.Engine.CallFrame
import Wtquic.Engine.PathStore
import Wtquic.Proto.ConnectRequest

namespace Wtquic.Engine

open Cells

/-! # The client connect

`wtq_conn_client_connect` down to its pointers and buffers. A pointer argument may be null, and
a write that would leave its buffer has no result. -/

variable {σ : Type}

/-- `wtq_client_connect_cfg_t` as the caller hands it over; `profile` is `none` for a number that
names no profile. -/
structure ConnectArg where
  authority : Option Bytes
  path : Option Bytes
  origin : Option Bytes := none
  protocols : ArrayArg (Option Bytes) := .null 0
  requireProtocol : Bool := false
  profile : Option Profile := some .current
  deriving DecidableEq, Repr

/-- The configuration that an argument without a null pointer stands for. -/
def ConnectArg.cfg (a : ConnectArg) : Option ClientConnectCfg :=
  match a.authority, a.path, a.protocols.strings, a.profile with
  | some authority, some path, some protocols, some profile =>
    some { authority, path, origin := a.origin, protocols,
           requireProtocol := a.requireProtocol, profile }
  | _, _, _, _ => none

/-- `wtq_conn_client_connect` on pointers. -/
def clientConnectArg (E : Ctx σ) (a : Option ConnectArg) (w : World σ) : Rc × World σ :=
  match a with
  | none => (.invalidArg, w)
  | some a =>
    match a.authority, a.path, a.protocols.strings with
    | some authority, some path, some protocols =>
      if protocols.length > maxOffered then (.invalidArg, w)
      else if w.conn.persp ≠ .client then (.state, w)
      else if w.conn.closed || w.conn.sessState != .idle || w.conn.goaway.isSome then (.state, w)
      else
        match a.profile with
        | none => (.invalidArg, w)
        | some profile =>
          clientConnect E
            { authority, path, origin := a.origin, protocols,
              requireProtocol := a.requireProtocol, profile } w
    | _, _, _ => (.invalidArg, w)

/-! ## Buffers -/

/-- `offered_buf`, `offered[]`, `offered_count`, `connect_section` and `connect_section_len`. -/
structure ConnectStore where
  offeredBuf : Cells UInt8 offeredStorage
  offered : Cells Span maxOffered
  offeredCount : Nat
  connectSection : Cells UInt8 connectSectionCap
  connectSectionLen : Nat

/-- The stored offers. -/
def ConnectStore.offers (st : ConnectStore) : List Bytes :=
  (st.offered.read 0 st.offeredCount).map st.offeredBuf.span

/-- The stored section. -/
def ConnectStore.sec (st : ConnectStore) : Bytes := st.connectSection.read 0 st.connectSectionLen

/-- The copies of the committed block. -/
def storeConnect (protocols : List Bytes) (sec : Bytes) (st : ConnectStore) :
    Option ConnectStore :=
  match packStrings [] st.offeredBuf st.offered 0 0 protocols with
  | none => none
  | some (offeredBuf, offered, _) =>
    match st.connectSection.write 0 sec with
    | none => none
    | some connectSection =>
      some { offeredBuf, offered, offeredCount := protocols.length,
             connectSection, connectSectionLen := sec.length }

/-- The copies of a connect that committed, after preflight; a connect that did not commit
copies nothing. -/
def connectStored (E : Ctx σ) (a : Option ConnectArg) (w : World σ) (st : ConnectStore) :
    Option (Rc × World σ × ConnectStore) :=
  let (rc, w) := clientConnectArg E a w
  if rc ≠ .ok then some (rc, w, st)
  else
    match a.bind ConnectArg.cfg with
    | none => none
    | some cfg =>
      match preflight cfg with
      | .error _ => none
      | .ok sec =>
        match storeConnect cfg.protocols sec st with
        | none => none
        | some st => some (rc, w, st)

theorem storeConnect_ok (st : ConnectStore) {protocols : List Bytes} {sec : Bytes}
    (hcount : protocols.length ≤ maxOffered) (hroom : room 0 protocols ≤ offeredStorage)
    (hlen : sec.length ≤ connectSectionCap) :
    ∃ st', storeConnect protocols sec st = some st' ∧ st'.offers = protocols ∧ st'.sec = sec := by
  obtain ⟨buf, spans, hpack, -, hspans, -, hread⟩ := packStrings_ok [] st.offeredBuf st.offered
    (show 0 + room 0 protocols ≤ offeredStorage by simpa using hroom)
    (show 0 + protocols.length ≤ maxOffered by simpa using hcount)
  obtain ⟨section', hwrite, hself, -⟩ :=
    st.connectSection.write_ok (show 0 + sec.length ≤ connectSectionCap by omega)
  refine ⟨⟨buf, spans, protocols.length, section', sec.length⟩, ?_, ?_, hself⟩
  · simp only [storeConnect, hpack, hwrite]
  · simp only [ConnectStore.offers, hspans]
    exact hread

/-! ## Outcomes -/

theorem readback_ok {cfg : ClientConnectCfg} {sec : Bytes} (h : preflightReadback cfg sec = .ok) :
    ∃ rq, Connect.decodeRequest sec (connectPolicy cfg.profile).opts maxOffered settingsCap = .ok rq ∧
      rq.protocols = cfg.protocols := by
  have hopts : (if (connectPolicy cfg.profile).expectLegacyToken then compatOpts else strictOpts)
      = (connectPolicy cfg.profile).opts := by
    cases cfg.profile <;> rfl
  unfold preflightReadback at h
  rw [hopts] at h
  dsimp only at h
  split at h
  · cases h
  · cases h
  next rq hrq =>
    split at h
    next hp => exact ⟨rq, hrq, hp⟩
    next => cases h

theorem preflight_error {cfg : ClientConnectCfg} {rc : Rc} (h : preflight cfg = .error rc) :
    rc ≠ .ok := by
  unfold preflight at h
  dsimp only at h
  generalize (if (connectPolicy cfg.profile).requireOrigin = true then preflightOrigin cfg.origin
    else Rc.ok) = orc at h
  split at h
  next hprot =>
    cases h
    exact hprot
  split at h
  next horigin =>
    cases h
    exact horigin
  split at h
  · cases h
    decide
  · cases h
    decide
  split at h
  · cases h
    decide
  split at h
  next hread =>
    cases h
    exact hread
  · cases h

/-- What a section that passed the preflight is. -/
theorem preflight_ok {cfg : ClientConnectCfg} {sec : Bytes} (h : preflight cfg = .ok sec) :
    room 0 cfg.protocols ≤ offeredStorage ∧ sec.length ≤ settingsCap ∧
      ∃ rq, Connect.decodeRequest sec (connectPolicy cfg.profile).opts maxOffered settingsCap
          = .ok rq ∧
        rq.authority = cfg.authority ∧ rq.path = cfg.path ∧
        rq.origin = cfg.origin.filter (fun o => !o.isEmpty) ∧ rq.protocols = cfg.protocols := by
  unfold preflight at h
  dsimp only at h
  generalize (if (connectPolicy cfg.profile).requireOrigin = true then preflightOrigin cfg.origin
    else Rc.ok) = orc at h
  split at h
  · cases h
  next hprot =>
  split at h
  · cases h
  split at h
  · cases h
  · cases h
  next sec' hsec =>
  split at h
  · cases h
  next hlen =>
  split at h
  · cases h
  next hread =>
    cases h
    have hroom := validateProtocolsFrom_ok (not_not.mp hprot) (Nat.zero_le _)
    obtain ⟨rq, hrq, hprotocols⟩ := readback_ok (not_not.mp hread)
    obtain ⟨hauthority, hpath, horigin⟩ :=
      Connect.decodeRequest_encode hsec (Nat.not_lt.mp hlen) hrq
    rw [Nat.zero_add] at hroom
    exact ⟨hroom, Nat.not_lt.mp hlen, rq, hrq, hauthority, hpath, horigin, hprotocols⟩

/-- A connect either changes nothing, or it committed the section of the preflight, and what
happens afterwards keeps the request. -/
theorem clientConnect_cases {E : Ctx σ} (hE : E.Lawful) (cfg : ClientConnectCfg) (w : World σ) :
    ((clientConnect E cfg w).1 ≠ .ok ∧ (clientConnect E cfg w).2 = w) ∨
      (∃ sec, (clientConnect E cfg w).1 = .ok ∧ cfg.protocols.length ≤ maxOffered ∧
        preflight cfg = .ok sec ∧ (clientConnect E cfg w).2.conn.order =
          ⟨.bit cfg.profile, cfg.protocols, cfg.requireProtocol, sec⟩) := by
  unfold clientConnect
  split
  · exact .inl ⟨nofun, rfl⟩
  next hcount =>
  split
  · exact .inl ⟨nofun, rfl⟩
  split
  · exact .inl ⟨nofun, rfl⟩
  split
  · exact .inl ⟨nofun, rfl⟩
  split
  next rc hrc => exact .inl ⟨preflight_error hrc, rfl⟩
  next sec hsec =>
  refine .inr ⟨sec, ?_, Nat.not_lt.mp hcount, hsec, ?_⟩
  · dsimp only
    split
    · rfl
    split <;> rfl
  · dsimp only
    generalize hv : World.setSess .pending (w.updConn _) = v
    have hplaced : v.conn.order =
        ⟨.bit cfg.profile, cfg.protocols, cfg.requireProtocol, sec⟩ := by
      rw [← hv]
      rfl
    have hpending : v.conn.sessState ≠ .idle := by
      rw [← hv]
      exact (by decide : SessState.pending ≠ .idle)
    rw [← hplaced]
    split
    · rfl
    split
    · exact ((Frame.sessionFailed (S := .call) hE _ v).forward.order hpending).2
    · exact ((Frame.clientSendConnect (S := .call) hE v).forward.order hpending).2

/-- With pointers the same holds: either nothing happens, or no pointer was null. -/
theorem clientConnectArg_cases (E : Ctx σ) (a : Option ConnectArg) (w : World σ) :
    ((clientConnectArg E a w).1 ≠ .ok ∧ (clientConnectArg E a w).2 = w) ∨
      (∃ arg cfg, a = some arg ∧ arg.cfg = some cfg ∧
        clientConnectArg E a w = clientConnect E cfg w) := by
  cases a with
  | none => exact .inl ⟨nofun, rfl⟩
  | some a =>
    unfold clientConnectArg
    dsimp only
    split
    next authority path protocols hauthority hpath hprotocols =>
      split
      · exact .inl ⟨nofun, rfl⟩
      split
      · exact .inl ⟨nofun, rfl⟩
      split
      · exact .inl ⟨nofun, rfl⟩
      split
      · exact .inl ⟨nofun, rfl⟩
      next profile hprofile =>
        refine .inr ⟨a, _, rfl, ?_, rfl⟩
        simp only [ConnectArg.cfg, hauthority, hpath, hprotocols, hprofile]
    next => exact .inl ⟨nofun, rfl⟩

theorem connectStored_failed {E : Ctx σ} {a : Option ConnectArg} {w : World σ}
    {st : ConnectStore} (h : (clientConnectArg E a w).1 ≠ .ok) : connectStored E a w st =
      some ((clientConnectArg E a w).1, (clientConnectArg E a w).2, st) := by
  unfold connectStored
  exact if_pos h

/-- A client connect is all or nothing. Unless it returns OK the connection and its buffers are as
before, and nothing was asked of the driver or reported. On OK the connection holds the configured
offers, the singleton of the requested profile and a section of at most 512 bytes, and so do its
buffers; the decoder of the server reads the configured request out of that section. -/
theorem connect_atomic (env : Env) (depth : Nat) (a : Option ConnectArg) (w : World σ)
    (st : ConnectStore) :
    ∃ rc w' st', connectStored (env.ctx depth) a w st = some (rc, w', st') ∧
      (rc ≠ .ok → w' = w ∧ st' = st) ∧
      (rc = .ok → ∃ arg cfg sec rq, a = some arg ∧ arg.cfg = some cfg ∧
        w'.conn.offered = cfg.protocols ∧ w'.conn.wtProfiles = .bit cfg.profile ∧
        w'.conn.connectSection = sec ∧ st'.offers = cfg.protocols ∧ st'.sec = sec ∧
        sec.length ≤ 512 ∧
        Connect.decodeRequest sec (connectPolicy cfg.profile).opts maxOffered 512 = .ok rq ∧
        rq.authority = cfg.authority ∧ rq.path = cfg.path ∧
        rq.origin = cfg.origin.filter (fun o => !o.isEmpty) ∧ rq.protocols = cfg.protocols) := by
  obtain ⟨hrc, hw⟩ | ⟨arg, cfg, ha, hcfg, heq⟩ := clientConnectArg_cases (env.ctx depth) a w
  · exact ⟨_, _, st, connectStored_failed hrc, fun _ => ⟨hw, rfl⟩, fun hok => absurd hok hrc⟩
  obtain ⟨hrc, hw⟩ | ⟨sec, hrc, hcount, hsec, horder⟩ :=
    clientConnect_cases (env.lawful depth) cfg w
  · rw [← heq] at hrc hw
    exact ⟨_, _, st, connectStored_failed hrc, fun _ => ⟨hw, rfl⟩, fun hok => absurd hok hrc⟩
  obtain ⟨hroom, hlen, rq, hrq, hread⟩ := preflight_ok hsec
  obtain ⟨st', hstore, hoffers, hsecs⟩ := storeConnect_ok st hcount hroom
    (Nat.le_trans hlen (by decide))
  simp only [Conn.order, Order.mk.injEq] at horder
  refine ⟨_, _, st', ?_, fun hne => absurd hrc hne, fun _ => ⟨arg, cfg, sec, rq, ha, hcfg,
    horder.2.1, horder.1, horder.2.2.2, hoffers, hsecs, hlen, hrq, hread⟩⟩
  unfold connectStored
  rw [heq]
  dsimp only
  rw [if_neg (by simpa using hrc), ha]
  simp only [Option.bind_some, hcfg, hsec, hstore]

end Wtquic.Engine
