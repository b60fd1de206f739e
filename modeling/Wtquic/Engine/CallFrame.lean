-- SUMMARY: Frames of the application calls, and the lawfulness of contexts that nest them.
import Wtquic.Engine.SessionFrame

namespace Wtquic.Engine

/-! # Application calls from inside callbacks

Every application call has the frame of a call, and on a closed connection it does next
to nothing. So a callback recipient that does nothing but make such calls is lawful. -/

variable {σ : Type} {E : Ctx σ} {S : Scope} {w : World σ}

theorem World.findFree_some {first stop i : Nat} {p : Estream → Bool}
    (h : w.findFree first stop p = some i) :
    first ≤ i ∧ i < stop ∧ (w.es i).kind = .free ∧ p (w.es i) := by
  have hm := List.mem_of_find?_eq_some h
  have hp := List.find?_some h
  simp only [Bool.and_eq_true, beq_iff_eq] at hp
  rw [List.mem_range'_1] at hm
  exact ⟨hm.1, by omega, hp⟩

@[simp] theorem World.es_claim_self (i : Nat) (e : Estream) (w : World σ) :
    (w.claim i e).es i = { e with generation := w.conn.streamGeneration + 1 } := by
  simp [World.claim]

namespace Frame

/-! ## Frames of the calls -/

/-- A slot that was claimed and is released again. -/
theorem release_new {i : Nat} {v : World σ} (h : Frame (S.insert i) w v)
    (hi : (w.es i).kind = .free) (hrx : v.rx i = w.rx i) :
    Frame S w (Engine.estreamRelease E i v) := by
  have hslot : (S.insert i).slots i := .inr rfl
  refine of_insert (h.trans (estreamRelease (.inl hslot))) hi ?_ ?_
  · rw [rx_estreamRelease, hrx]
  · exact fun _ hk => absurd hk (by simp [Estream.released])

theorem clientSendConnect (hE : E.Lawful) (w : World σ) : Frame S w (clientSendConnect E w) := by
  unfold Engine.clientSendConnect
  split
  · exact sessionFailed hE _ _
  · split
    · exact connFatal hE _ _
    · next i hf =>
      have hi := (World.findFree_some hf).2.2.1
      dsimp only
      have hclaim : Frame (S.insert i) w (w.claim i
          { kind := .connect, resident := w.conn.budgeted, id := streamIdUnknown }) := claim hi _ rfl
      have hborn : (w.claim i
          { kind := .connect, resident := w.conn.budgeted, id := streamIdUnknown }).es i =
          { kind := .connect, resident := w.conn.budgeted, id := streamIdUnknown,
            generation := w.conn.streamGeneration + 1 } := World.es_claim_self _ _ _
      have hrx : (w.claim i
          { kind := .connect, resident := w.conn.budgeted, id := streamIdUnknown }).rx i
          = w.rx i := rfl
      generalize w.claim i _ = v at hclaim hborn hrx ⊢
      have hopen : Frame .call v (v.openFor E true i).2.2 := openFor true i v
      have hrx' : (v.openFor E true i).2.2.rx i = v.rx i := hopen.rx i id
      have hes : (v.openFor E true i).2.2.es i = v.es i :=
        hopen.http i id (by rw [hborn]; rfl)
      generalize v.openFor E true i = x at hopen hrx' hes ⊢
      obtain ⟨r, ds, u⟩ := x
      dsimp only at hopen hrx' hes ⊢
      have hslot : (S.insert i).slots i := .inr rfl
      have hw : Frame (S.insert i) w u := hclaim.trans hopen.of_call
      split
      · exact (release_new hw hi (hrx'.trans hrx)).trans (connFatal hE _ _)
      · have hopened : Frame (S.insert i) u
            ((u.updConn fun c => { c with connectDs := ds }).modEs i fun e =>
              { e with ds, id := r.id, nativeIdPending := r.id == streamIdUnknown }) :=
          Frame.trans (Frame.updConn rfl rfl id rfl rfl (.of_eq rfl rfl) fun _ => rfl)
            (modEs_scope hslot _ _ (by rfl))
        refine Frame.trans (of_insert (hw.trans hopened) hi ?_ ?_) ?_
        · simpa using hrx'.trans hrx
        · intro hfresh _
          have hes' : u.conn.peer i = _ := hes.trans hborn
          refine ⟨?_, ?_⟩
          · simp [Estream.blank, World.es_updConn, hes']
          · simp [World.es_updConn, hes', hrx', hrx, hfresh.rx i _ (Nat.lt_succ_self _)]
        · split
          · exact Frame.trans (sendBoth _ _ _ _ _) (setSess (by decide) _)
          · exact Frame.trans (sendBoth _ _ _ _ _) (connFatal hE _ _)

theorem clientConnect (hE : E.Lawful) (cfg : ClientConnectCfg) (w : World σ) :
    Frame S w (clientConnect E cfg w).2 := by
  unfold Engine.clientConnect
  split
  · rfl
  split
  · rfl
  split
  · rfl
  next hidle =>
  split
  · rfl
  split
  · rfl
  · simp only [Bool.or_eq_true, bne_iff_ne, not_or, not_not] at hidle
    have hlatch : Frame S w ((w.updConn fun c => { c with
        wtProfile := cfg.profile, wtProfiles := ProfileSet.bit cfg.profile,
        offered := cfg.protocols, requireProtocol := cfg.requireProtocol,
        connectSection := ‹Bytes›, clientResponseOk := false,
        clientSelectedOffer := none }).setSess .pending) :=
      Frame.trans (Frame.updConn rfl rfl id rfl rfl (.of_idle hidle.1.2 rfl) fun _ => rfl)
        (setSess (by decide) _)
    dsimp only
    split
    · exact hlatch
    · split
      · exact hlatch.trans (sessionFailed hE _ _)
      · exact hlatch.trans (clientSendConnect hE _)

theorem sessionSendCapsule (hE : E.Lawful) (es : Nat) (cap : Bytes) (fin : Bool) (w : World σ) :
    Frame S w (sessionSendCapsule E es cap fin w).2 := by
  unfold Engine.sessionSendCapsule
  split
  · rfl
  · split
    · rfl
    · dsimp only
      split
      · exact send _ _ _ w
      · exact (send _ _ _ w).trans (connFatal hE _ _)

theorem sessionClose (hE : E.Lawful) (code : UInt32) (reason : Bytes) (w : World σ) :
    Frame S w (sessionClose E code reason w).2 := by
  unfold Engine.sessionClose
  split
  · rfl
  split
  · rfl
  split
  · rfl
  split
  · rfl
  split
  · rfl
  · dsimp only
    split
    · exact sessionSendCapsule hE _ _ _ w
    · exact (sessionSendCapsule hE _ _ _ w).trans (sessionClosed hE _ _ _ _)

theorem sessionDrain (hE : E.Lawful) (w : World σ) : Frame S w (sessionDrain E w).2 := by
  unfold Engine.sessionDrain
  repeat' split
  all_goals first | exact sessionSendCapsule hE _ _ _ w | rfl

theorem wtOpen (hE : E.Lawful) (bidi : Bool) (w : World σ) :
    Frame S w (wtOpen E bidi w).2.2 := by
  unfold Engine.wtOpen
  split
  · rfl
  split
  · rfl
  split
  · rfl
  split
  · rfl
  · next i hf =>
    have hi := (World.findFree_some hf).2.2.1
    dsimp only
    have hclaim : Frame S w (w.claim i
        { id := streamIdUnknown, resident := w.conn.budgeted
          kind := if w.conn.admissionEnabled then .reserved else .free }) := claim hi _ rfl
    have hkind : ((w.claim i
        { id := streamIdUnknown, resident := w.conn.budgeted
          kind := if w.conn.admissionEnabled then .reserved else .free }).es i).kind
          = if w.conn.admissionEnabled then .reserved else .free := by
      rw [World.es_claim_self]
    have hrx : (w.claim i
        { id := streamIdUnknown, resident := w.conn.budgeted
          kind := if w.conn.admissionEnabled then .reserved else .free }).rx i = w.rx i := rfl
    generalize w.claim i _ = v at hclaim hkind hrx ⊢
    have hopen : Frame .call v (v.openFor E bidi i).2.2 := openFor bidi i v
    have hconn : (v.openFor E bidi i).2.2.conn = v.conn := World.conn_openFor E bidi i v
    generalize v.openFor E bidi i = x at hopen hconn ⊢
    obtain ⟨r, ds, u⟩ := x
    dsimp only at hopen hconn ⊢
    have hw : Frame S w u := hclaim.trans hopen.of_call
    have hrxu : u.rx i = w.rx i := (hopen.rx i id).trans hrx
    have hku : (u.es i).kind.http = false ∧ (u.es i).recvHeld = false := by
      have hk : (u.es i).kind = if w.conn.admissionEnabled then .reserved else .free := by
        rw [World.es, hconn]
        exact hkind
      split at hk <;> simp [hk, EsKind.http, Estream.recvHeld]
    have hopened : Frame S w (u.putEs i ((u.es i).opened bidi ds r.id)) :=
      hw.trans (putEs (.inr ⟨hku.1, rfl, by simp [hku.2]⟩) rfl)
    split
    · exact hw.trans (putEs (.inr ⟨hku.1, rfl, by simp [hku.2]⟩) rfl)
    split
    · have hslot : (S.insert i).slots i := .inr rfl
      exact release_new
        ((hw.insert i).trans (modEs_scope hslot (fun e => { e with ds }) _ (by rfl))) hi
        (by simpa using hrxu)
    · unfold Engine.wtOpened
      dsimp only
      split
      · exact (release_new (hopened.insert i) hi hrxu).trans (connFatal hE _ _)
      split
      · exact hopened.trans (send _ _ _ _)
      · exact (release_new ((hopened.trans (send _ _ _ _)).insert i) hi hrxu).trans
          (connFatal hE _ _)

/-- A write to a WT stream that keeps its receive half. -/
theorem modEs_wt {i : Nat} {f : Estream → Estream} (hk : (w.es i).kind = .wt)
    (hf : (w.es i).recvHeld → (f (w.es i)).recvHeld)
    (hg : (f (w.es i)).generation = (w.es i).generation)
    (hfk : (f (w.es i)).kind = (w.es i).kind) :
    Frame S w (w.modEs i f) :=
  modEs (.inr ⟨by simp [hk], by simp [hfk, hk], hf⟩) hg

theorem wtEnableSendCommit (i : Nat) (w : World σ) :
    Frame S w (wtEnableSendCommit i w).2 := by
  unfold Engine.wtEnableSendCommit
  dsimp only
  split
  · rfl
  · next h =>
    split
    · rfl
    · have hk : (w.es i).kind = .wt := by
        simp only [Bool.or_eq_true, not_or, bne_iff_ne, ne_eq, not_not] at h
        exact h.1.1.1.1.2
      exact modEs_wt (f := fun e => { e with wtSendCommit := true }) hk id rfl rfl

theorem wtSend (i : Nat) (spans : List Bytes) (fin : Bool) (cookie : Nat) (w : World σ) :
    Frame S w (wtSend E i spans fin cookie w).2 := by
  unfold Engine.wtSend
  dsimp only
  split
  · rfl
  split
  · rfl
  split
  · rfl
  split
  · rfl
  split
  · next h =>
    have hk : ((w.op E (.sendGather (w.es i).ds spans fin cookie)).2.es i).kind = .wt := h.2.2.2
    have hsent : Frame S w ((w.op E (.sendGather (w.es i).ds spans fin cookie)).2.modEs i
        fun e => { e with wtApplicationSent := true }) :=
      (op E _ w).trans (modEs_wt hk id rfl rfl)
    refine hsent.trans ?_
    split
    · refine Frame.trans (modEs_wt ?_ (by exact id) (by rfl) (by rfl)) (wtReleaseIfDone i _)
      simpa using hk
    · rfl
  · exact op E _ w

end Frame

/-- A shutdown moves an aborted receive half into its drain. -/
theorem Estream.afterShutdown_held {e : Estream} (eff : Shutdown) (h : e.recvHeld) :
    (e.afterShutdown eff).recvHeld := by
  simp only [Estream.recvHeld, Bool.and_eq_true, Bool.or_eq_true] at h
  simp only [Estream.recvHeld, Estream.afterShutdown, h.1, Bool.true_and, Bool.or_eq_true,
    Bool.and_eq_true, Bool.not_eq_true']
  cases eff.abortRecv with
  | true => exact .inr (.inr rfl)
  | false => exact h.2.imp (⟨·, rfl⟩) .inl

namespace Frame

theorem wtShutdownWith (hE : E.Lawful) (i : Nat) (req : Shutdown) (app : Bool) (w : World σ) :
    Frame S w (wtShutdownWith E i req app w).2 := by
  unfold Engine.wtShutdownWith
  dsimp only
  split
  · rfl
  split
  · rfl
  split
  · rfl
  split
  · exact op E _ w
  split
  · exact (op E _ w).trans (connFatal hE _ _)
  split
  · exact op E _ w
  · next h =>
    simp only [ne_eq, not_or, not_not] at h
    exact (op E _ w).trans ((modEs_wt h.2.2 (Estream.afterShutdown_held _) rfl rfl).trans
      (wtReleaseIfDone i _))

theorem wtShutdownCode (hE : E.Lawful) (i : Nat) (code : UInt32) (req : Nat → Shutdown)
    (w : World σ) : Frame S w (wtShutdownCode E i code req w).2 := by
  unfold Engine.wtShutdownCode
  split
  · rfl
  · exact wtShutdownWith hE _ _ _ _

theorem wtReject (hE : E.Lawful) (i : Nat) (w : World σ) : Frame S w (wtReject E i w) := by
  unfold Engine.wtReject
  split
  · rfl
  · next h =>
    have hk : (w.es i).kind = .wt := by
      simp only [Bool.or_eq_true, not_or, bne_iff_ne, ne_eq, not_not] at h
      exact h.2
    exact (modEs_wt hk (by exact id) (by rfl) (by rfl)).trans (wtShutdownWith hE _ _ _ _)

theorem wtRecvEnable (i : Nat) (enabled : Bool) (w : World σ) :
    Frame S w (wtRecvEnable E i enabled w).2 := by
  unfold Engine.wtRecvEnable
  dsimp only
  split
  · rfl
  split
  · rfl
  · next h =>
    simp only [ne_eq, not_or, not_not] at h
    split
    · rfl
    · have hpause : Frame S w (w.modEs i fun e => { e with recvPaused := !enabled }) :=
        modEs_wt h.1 id rfl rfl
      refine hpause.trans ?_
      split
      · refine Frame.trans (op E (.recvEnable (w.es i).ds enabled) _)
          (modEs_wt (f := fun k => { k with recvPaused := (w.es i).recvPaused }) ?_ id rfl rfl)
        simpa [World.op_snd] using h.1
      · exact op E _ _

theorem setUser {i : Nat} (hk : (w.es i).kind = .wt) (user : Option Nat) :
    Frame S w (setUser i user w) :=
  modEs_wt hk id rfl rfl

theorem dgramSend (spans : List Bytes) (w : World σ) : Frame S w (dgramSend E spans w).2 := by
  unfold Engine.dgramSend
  dsimp only
  repeat' split
  all_goals first | rfl | exact op E _ w | exact (op E _ w).trans (op E _ _)

theorem dgramMaxSize (w : World σ) : Frame S w (dgramMaxSize E w).2 := by
  unfold Engine.dgramMaxSize
  split
  · rfl
  · exact op E _ w

/-! ## Calls -/

theorem apply (hE : E.Lawful) (a : AppCall) (hh : handleOk w a.slot) :
    Frame S w (a.apply E w) := by
  cases a with
  | clientConnect cfg => exact clientConnect hE cfg w
  | sessionClose code reason => exact sessionClose hE code reason w
  | sessionDrain => exact sessionDrain hE w
  | wtOpen bidi => exact wtOpen hE bidi w
  | wtEnableSendCommit i => exact wtEnableSendCommit i w
  | wtSend i spans fin cookie => exact wtSend i spans fin cookie w
  | wtShutdown i req => exact wtShutdownWith hE i req true w
  | wtReset i code => exact wtShutdownCode hE i code _ w
  | wtStop i code => exact wtShutdownCode hE i code _ w
  | wtAbort i code => exact wtShutdownCode hE i code _ w
  | wtReject i => exact wtReject hE i w
  | wtRecvEnable i enabled => exact wtRecvEnable i enabled w
  | setUser i user =>
    simp only [AppCall.slot, handleOk, Bool.and_eq_true, beq_iff_eq] at hh
    exact setUser hh.2 user
  | dgramSend spans => exact dgramSend spans w
  | dgramMaxSize => exact dgramMaxSize w
  | sealTransportError => exact connLatchError _ w

theorem call (hE : E.Lawful) (a : AppCall) (w : World σ) : Frame S w (a.run E w) := by
  unfold AppCall.run
  split
  · next h => exact apply hE a h
  · rfl

end Frame

/-! ## Calls on a closed connection -/

theorem Still.connLatchError (e : TransportError) (w : World σ) :
    Still w (Engine.connLatchError e w) := by
  unfold Engine.connLatchError
  split
  · rfl
  · exact ⟨rfl, rfl, rfl, rfl, some e, fun i => (w.conn.peer i).user, rfl⟩

theorem Still.setUser {i : Nat} (hk : (w.es i).kind = .wt) (user : Option Nat) :
    Still w (Engine.setUser i user w) := by
  have hput : Engine.setUser i user w = w.putEs i { w.es i with user } :=
    World.modEs_of_occupied (by simp [hk]) _
  rw [hput]
  refine ⟨rfl, rfl, rfl, rfl, w.conn.transportError,
    Function.update (fun j => (w.conn.peer j).user) i user, ?_⟩
  have hp : Function.update w.conn.peer i { w.es i with user } = fun j =>
      { w.conn.peer j with user := Function.update (fun j => (w.conn.peer j).user) i user j } := by
    funext j
    by_cases hj : j = i
    · subst hj
      simp [World.es]
    · simp [hj]
  rw [World.conn_putEs, hp]

theorem Still.apply (a : AppCall) (hh : handleOk w a.slot) (hc : w.conn.closed) :
    Still w (a.apply E w) := by
  have hsame : ∀ {w' : World σ}, w' = w → Still w w' := fun h => h ▸ .refl w
  cases a with
  | setUser i user =>
    simp only [AppCall.slot, handleOk, Bool.and_eq_true, beq_iff_eq] at hh
    exact .setUser hh.2 user
  | sealTransportError => exact .connLatchError _ w
  | clientConnect cfg =>
    refine hsame ?_
    simp only [AppCall.apply, clientConnect, hc, Bool.true_or, if_true]
    split
    · rfl
    · split <;> rfl
  | sessionClose code reason =>
    refine hsame ?_
    simp only [AppCall.apply, sessionClose, hc, if_true]
    split <;> rfl
  | dgramSend spans =>
    refine hsame ?_
    simp only [AppCall.apply, dgramSend, hc, Bool.true_or, if_true]
    split <;> rfl
  | wtReset i code | wtStop i code | wtAbort i code =>
    refine hsame ?_
    simp only [AppCall.apply, wtResetSend, wtStop, wtAbort, wtShutdownCode, wtShutdown,
      wtShutdownWith, hc, if_true]
    split <;> rfl
  | sessionDrain => exact hsame (by simp [AppCall.apply, sessionDrain, hc])
  | wtOpen bidi => exact hsame (by simp [AppCall.apply, wtOpen, hc])
  | wtEnableSendCommit i => exact hsame (by simp [AppCall.apply, wtEnableSendCommit, hc])
  | wtSend i spans fin cookie => exact hsame (by simp [AppCall.apply, wtSend, hc])
  | wtShutdown i req => exact hsame (by simp [AppCall.apply, wtShutdown, wtShutdownWith, hc])
  | wtReject i => exact hsame (by simp [AppCall.apply, wtReject, hc])
  | wtRecvEnable i enabled => exact hsame (by simp [AppCall.apply, wtRecvEnable, hc])
  | dgramMaxSize => exact hsame (by simp [AppCall.apply, dgramMaxSize, hc])

theorem Still.call (a : AppCall) (hc : w.conn.closed) : Still w (a.run E w) := by
  unfold AppCall.run
  split
  · next h => exact .apply a h hc
  · rfl

/-! ## Nested contexts -/

/-- What a callback recipient may do in between: make calls, and change its own state. -/
inductive Calls (E : Ctx σ) : World σ → World σ → Prop
  | refl (w : World σ) : Calls E w w
  | call {w w' : World σ} (h : Calls E w w') (a : AppCall) : Calls E w (a.run E w')
  | ext {w w' : World σ} (h : Calls E w w') (e : σ) : Calls E w { w' with ext := e }

/-- A context whose callbacks are recorded and answered with calls, from which further
callbacks come, down to callbacks that are answered with nothing. -/
inductive Ctx.Nested : Ctx σ → Prop
  | leaf {E : Ctx σ}
      (h : ∀ c w, ∃ e, E.notify c w = { w.log (.cb c) with ext := e }.log .ret) : Nested E
  | node {E E' : Ctx σ} (hE' : Nested E')
      (h : ∀ c w, ∃ w', Calls E' (w.log (.cb c)) w' ∧ E.notify c w = w'.log .ret) : Nested E

/-- A reflexive and transitive relation that holds for calls holds for sequences of them. -/
theorem Calls.rel {R : World σ → World σ → Prop} (hrefl : ∀ w, R w w)
    (htrans : ∀ {w w' w''}, R w w' → R w' w'' → R w w'')
    (hext : ∀ w (e : σ), R w { w with ext := e }) (hcall : ∀ (a : AppCall) w, R w (a.run E w))
    {w w' : World σ} (h : Calls E w w') : R w w' := by
  induction h with
  | refl => exact hrefl w
  | call _ a ih => exact htrans ih (hcall a _)
  | ext _ e ih => exact htrans ih (hext _ e)

theorem Still.ext (w : World σ) (e : σ) : Still w { w with ext := e } :=
  ⟨rfl, rfl, rfl, rfl, w.conn.transportError, fun i => (w.conn.peer i).user, rfl⟩

theorem Calls.still {w w' : World σ} (h : Calls E w w') (hc : w.conn.closed) : Still w w' := by
  induction h with
  | refl => rfl
  | call _ a ih => exact ih.trans (.call a (by rw [ih.closed]; exact hc))
  | ext _ e ih => exact ih.trans (.ext _ e)

theorem Ctx.Nested.lawful (hE : E.Nested) : E.Lawful := by
  have hext : ∀ (w : World σ) (e : σ), Frame .call w { w with ext := e } :=
    fun _ _ => .of_conn_eq (List.suffix_refl _) (Nat.le_refl _) rfl rfl fun _ => rfl
  induction hE with
  | leaf h =>
    refine ⟨fun c w => ?_, fun c w => ?_, fun c w _ => ?_⟩ <;> obtain ⟨e, he⟩ := h c w <;> rw [he]
    · exact List.suffix_cons _ _
    · exact (Frame.log _ w).trans ((hext _ e).trans (.log _ _))
    · exact .ext _ e
  | node _ h ih =>
    have hcalls : ∀ {w w' : World σ}, Calls _ w w' → Frame .call w w' := fun hw' =>
      hw'.rel Frame.refl Frame.trans hext fun a _ => .call ih a _
    refine ⟨fun c w => ?_, fun c w => ?_, fun c w hc => ?_⟩ <;>
      obtain ⟨w', hw', he⟩ := h c w <;> rw [he]
    · exact (hcalls hw').trace.trans (List.suffix_cons _ _)
    · exact (Frame.log _ w).trans ((hcalls hw').trans (.log _ _))
    · obtain ⟨htr, hds, hf, hrx, hcn⟩ := hw'.still hc
      exact ⟨by simp [htr], hds, hf, hrx, hcn⟩

theorem Calls.foldl {w w' : World σ} (h : Calls E w w') (as : List AppCall) :
    Calls E w (as.foldl (AppCall.run E) w') := by
  induction as generalizing w' with
  | nil => exact h
  | cons a as ih => exact ih (h.call a)

theorem Env.nested (env : Env) (depth : Nat) : (env.ctx (σ := σ) depth).Nested := by
  induction depth with
  | zero => exact .leaf fun c w => ⟨w.ext, rfl⟩
  | succ depth ih =>
    exact .node ih fun c w => ⟨_, (Calls.refl _).foldl _, rfl⟩

theorem Env.lawful (env : Env) (depth : Nat) : (env.ctx (σ := σ) depth).Lawful :=
  (env.nested depth).lawful

end Wtquic.Engine
