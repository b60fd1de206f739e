-- SUMMARY: A stream shutdown is refused without effect, or asks the driver for a legal abort and does it.
import Wtquic.Engine.Outcomes

namespace Wtquic.Engine

/-! # Shutdown

What `wt_shutdown` asks of the driver, and what it leaves behind. -/

variable {σ : Type} {E : Ctx σ} {D : Doomed} {w : World σ}

/-- The send half is open, or its FIN is not settled. -/
def Estream.sendLive (e : Estream) : Bool := e.wtSendOpen || e.wtFinPending

/-- Exactly one half of a bidi stream that is open both ways, as the capability word allows. -/
def Shutdown.OneHalf (e : Estream) (caps : DrvCaps) (eff : Shutdown) : Prop :=
  e.wtSendOpen ∧ e.wtRecvOpen ∧ eff.abortSend ≠ eff.abortRecv ∧
    (if eff.abortSend then caps.shutBidiSend else caps.shutBidiRecv) = true

/-- Both halves with two codes, as the capability word allows. -/
def Shutdown.TwoCodes (caps : DrvCaps) (eff : Shutdown) : Prop :=
  eff.abortSend ∧ eff.abortRecv ∧ eff.sendErr ≠ eff.recvErr ∧ caps.shutSplitCodes

/-- The mode contract of `shutdown_stream`: a whole-stream request names exactly the halves that
are left, with one code. -/
structure Shutdown.Legal (e : Estream) (caps : DrvCaps) (eff : Shutdown) : Prop where
  asked : eff.abortSend ∨ eff.abortRecv
  send : eff.abortSend → e.sendLive
  recv : eff.abortRecv → e.wtRecvOpen
  known : eff.mode ≠ .other
  whole : eff.mode = .wholeStream →
    eff.abortSend = e.sendLive ∧ eff.abortRecv = e.wtRecvOpen ∧ eff.sendErr = eff.recvErr
  halves : eff.mode = .exactHalves → e.wtBidi ∧ (eff.OneHalf e caps ∨ eff.TwoCodes caps)

/-- The only half that is left. -/
theorem Shutdown.legal_whole {e : Estream} {caps : DrvCaps} {req : Shutdown}
    (hsend : req.abortSend = e.sendLive) (hrecv : req.abortRecv = e.wtRecvOpen)
    (hasked : req.abortSend ∨ req.abortRecv) : req.whole.Legal e caps where
  asked := hasked
  send := fun h => hsend ▸ h
  recv := fun h => hrecv ▸ h
  known := by simp [Shutdown.whole]
  whole := fun _ => ⟨hsend, hrecv, rfl⟩
  halves := fun h => by simp [Shutdown.whole] at h

theorem normalizeBidi_legal {e : Estream} {caps : DrvCaps} {req eff : Shutdown}
    (hs : e.Shaped) (hb : e.wtBidi) (hm : req.mode = .exactHalves)
    (hasked : req.abortSend ∨ req.abortRecv) (hsend : req.abortSend → e.sendLive)
    (hrecv : req.abortRecv → e.wtRecvOpen) (h : normalizeBidi e caps req = .ok eff) :
    eff.Legal e caps := by
  -- a bidi stream is not in send-commit mode, so a live send half is an open one
  have hfin : e.wtFinPending = false := by
    by_contra hp
    have hcommit := hs.commit (hs.pending (by simpa using hp))
    simp [hb] at hcommit
  have hlive : e.sendLive = e.wtSendOpen := by simp [Estream.sendLive, hfin]
  unfold normalizeBidi at h
  split at h
  · next hboth =>
    simp only [Bool.and_eq_true] at hboth
    split at h
    · next hcodes =>
      split at h
      · next hcap =>
        cases h
        exact ⟨hasked, hsend, hrecv, by simp [hm], by simp [hm], fun _ =>
          ⟨hb, .inr ⟨hboth.1, hboth.2, hcodes, hcap⟩⟩⟩
      · cases h
    · next hcodes =>
      cases h
      exact ⟨hasked, hsend, hrecv, by simp, fun _ => ⟨by simp [hboth.1, hsend hboth.1],
        by simp [hboth.2, hrecv hboth.2], by simpa using hcodes⟩, by simp⟩
  · next hone =>
    have hne : req.abortSend ≠ req.abortRecv := by
      intro heq
      rw [heq] at hone hasked
      simp_all
    split at h
    · next hopen =>
      simp only [Bool.and_eq_true] at hopen
      generalize hcap : (if req.abortSend then caps.shutBidiSend else caps.shutBidiRecv) = cap at h
      cases cap with
      | true =>
        cases h
        exact ⟨hasked, hsend, hrecv, by simp [hm], by simp [hm], fun _ =>
          ⟨hb, .inl ⟨hopen.1, hopen.2, hne, hcap⟩⟩⟩
      | false => cases h
    · next hopen =>
      cases h
      refine Shutdown.legal_whole ?_ ?_ hasked
      all_goals
        revert hsend hrecv hne hopen
        rw [hlive]
        cases req.abortSend <;> cases req.abortRecv <;> cases e.wtSendOpen <;>
          cases e.wtRecvOpen <;> simp

/-- What passes the validation is a legal request. -/
theorem normalizeShutdown_legal {e : Estream} {caps : DrvCaps} {req eff : Shutdown}
    (hs : e.Shaped) (h : normalizeShutdown e caps req = .ok eff) : eff.Legal e caps := by
  unfold normalizeShutdown at h
  dsimp only at h
  split at h
  · cases h
  · next hm =>
    split at h
    · cases h
    next hcodes =>
    split at h
    · cases h
    next hleft =>
    cases h
    refine ⟨?_, fun h => h, fun h => h, by simp [hm], fun _ => ⟨rfl, rfl, by simpa using hcodes⟩,
      fun h => by simp [hm] at h⟩
    simp only [Bool.and_eq_true, Bool.not_eq_true', not_and_or, Bool.not_eq_false] at hleft
    exact hleft
  · next hm =>
    split at h
    · cases h
    next hnone =>
    split at h
    · cases h
    next hsend =>
    split at h
    · cases h
    next hrecv =>
    have hasked : req.abortSend ∨ req.abortRecv := by
      simp only [Bool.and_eq_true, Bool.not_eq_true', not_and_or, Bool.not_eq_false] at hnone
      exact hnone
    have hsend : req.abortSend → e.sendLive := fun ha => by
      by_contra hl
      exact hsend (by simpa [ha, Estream.sendLive] using hl)
    have hrecv : req.abortRecv → e.wtRecvOpen := fun ha => by simpa [ha] using hrecv
    split at h
    · next hb => exact normalizeBidi_legal hs hb hm hasked hsend hrecv h
    · next hb =>
      -- a uni stream has one half
      cases h
      have hb : e.wtBidi = false := by simpa using hb
      have hhalf : e.sendLive = false ∨ e.wtRecvOpen = false := by
        cases hl : e.wtLocal with
        | true => exact .inr (hs.sending hb hl)
        | false =>
          refine .inl ?_
          have hfin : e.wtFinPending = false := by
            by_contra hp
            have hcommit := hs.commit (hs.pending (by simpa using hp))
            simp [hl] at hcommit
          simp [Estream.sendLive, hs.receiving hb hl, hfin]
      refine Shutdown.legal_whole ?_ ?_ hasked
      all_goals
        revert hsend hrecv hasked hhalf
        cases req.abortSend <;> cases req.abortRecv <;> cases e.sendLive <;>
          cases e.wtRecvOpen <;> simp

/-! ## What a shutdown does -/

/-- The slot behind a shutdown that the driver performed: the halves that were asked for are
closed, a stopped receive half drains, and a stream with nothing left is released. -/
def ShutDone (i : Nat) (eff : Shutdown) (w w' : World σ) : Prop :=
  let e := (w.es i).afterShutdown eff
  w'.es i = (if e.wtDone then e.released else e) ∧ ∀ j, j ≠ i → w'.es j = w.es j

/-- The four ways a shutdown may go. -/
inductive ShutResult (E : Ctx σ) (i : Nat) (appIntent : Bool) (w : World σ) :
    Rc × World σ → Prop
  /-- a refusal has no effect -/
  | refused (rc : Rc) (h : rc = .invalidArg ∨ rc = .state ∨ rc = .unsupported ∨ rc = .closed) :
      ShutResult E i appIntent w (rc, w)
  /-- the native stream is gone: one operation, and nothing else -/
  | gone (eff : Shutdown) (hl : eff.Legal (w.es i) w.conn.caps)
      (hi : eff.appSendCancel = (appIntent && eff.abortSend))
      (hr : (E.drv w.trace (.shutdownStream (w.es i).ds eff)).rc = .closed) :
      ShutResult E i appIntent w (.closed, (w.op E (.shutdownStream (w.es i).ds eff)).2)
  /-- the driver failed, which kills the connection -/
  | failed (eff : Shutdown) (hl : eff.Legal (w.es i) w.conn.caps)
      (hi : eff.appSendCancel = (appIntent && eff.abortSend))
      (hr : (E.drv w.trace (.shutdownStream (w.es i).ds eff)).rc ≠ .ok ∧
        (E.drv w.trace (.shutdownStream (w.es i).ds eff)).rc ≠ .closed) :
      ShutResult E i appIntent w
        (.backend, connFatal E H3Err.internalError (w.op E (.shutdownStream (w.es i).ds eff)).2)
  /-- the driver performed the request -/
  | done (eff : Shutdown) (w' : World σ) (hl : eff.Legal (w.es i) w.conn.caps)
      (hi : eff.appSendCancel = (appIntent && eff.abortSend))
      (hr : (E.drv w.trace (.shutdownStream (w.es i).ds eff)).rc = .ok)
      (hd : ShutDone i eff w w') (hs : w'.conn.sessState = w.conn.sessState) :
      ShutResult E i appIntent w (.ok, w')

theorem normalizeBidi_error {e : Estream} {caps : DrvCaps} {req : Shutdown} {rc : Rc}
    (h : normalizeBidi e caps req = .error rc) : rc = .unsupported := by
  unfold normalizeBidi at h
  generalize (if req.abortSend then caps.shutBidiSend else caps.shutBidiRecv) = cap at h
  repeat' split at h
  all_goals cases h
  all_goals rfl

theorem normalizeShutdown_error {e : Estream} {caps : DrvCaps} {req : Shutdown} {rc : Rc}
    (h : normalizeShutdown e caps req = .error rc) :
    rc = .invalidArg ∨ rc = .state ∨ rc = .unsupported := by
  unfold normalizeShutdown at h
  dsimp only at h
  generalize hb : normalizeBidi e caps req = x at h
  repeat' split at h
  case _ => exact .inl (by cases h; rfl)
  all_goals first
    | exact .inr (.inr (normalizeBidi_error (hb.trans h)))
    | cases h <;> simp

theorem shutDone (o : DrvOp) (i : Nat) (eff : Shutdown) : ShutDone i eff w
    (wtReleaseIfDone E i ((w.op E o).2.modEs i (Estream.afterShutdown eff))) := by
  have hmod : ∀ j, ((w.op E o).2.modEs i (Estream.afterShutdown eff)).es j
      = if j = i then (w.es i).afterShutdown eff else w.es j := fun j => World.es_modEs i j _ _
  have hself := (hmod i).trans (if_pos rfl)
  unfold wtReleaseIfDone
  rw [hself]
  split
  · next hd =>
    refine ⟨?_, fun j hj => ?_⟩
    · rw [es_estreamRelease_self, hself]
      exact (if_pos hd).symm
    · rw [es_estreamRelease, if_neg hj, hmod, if_neg hj]
  · next hd => exact ⟨hself.trans (if_neg hd).symm, fun j hj => (hmod j).trans (if_neg hj)⟩

theorem wtShutdownWith_result (i : Nat) (req : Shutdown) (appIntent : Bool)
    (hw : Coherent D w) : ShutResult E i appIntent w (wtShutdownWith E i req appIntent w) := by
  unfold wtShutdownWith
  dsimp only
  split
  · exact .refused _ (by simp)
  split
  · exact .refused _ (by simp)
  next hk =>
  have hk : (w.es i).kind = .wt := by simpa using hk
  split
  · next rc hn =>
    refine .refused rc ?_
    rcases normalizeShutdown_error hn with h | h | h <;> simp [h]
  next eff hn =>
  have hl := normalizeShutdown_legal (hw.slots i (by simp [hk])).shaped hn
  have hl' : ({ eff with appSendCancel := appIntent && eff.abortSend } : Shutdown).Legal (w.es i)
      w.conn.caps := ⟨hl.asked, hl.send, hl.recv, hl.known, hl.whole, hl.halves⟩
  generalize heff : ({ eff with appSendCancel := appIntent && eff.abortSend } : Shutdown) = eff'
    at hl' ⊢
  have hi : eff'.appSendCancel = (appIntent && eff'.abortSend) := by rw [← heff]
  by_cases hclosed : (w.op E (.shutdownStream (w.es i).ds eff')).1.rc = .closed
  · rw [if_pos hclosed]
    exact .gone eff' hl' hi hclosed
  rw [if_neg hclosed]
  by_cases hok : (w.op E (.shutdownStream (w.es i).ds eff')).1.rc = .ok
  · have hes : (w.op E (.shutdownStream (w.es i).ds eff')).2.es i = w.es i := rfl
    rw [if_neg (not_not.mpr hok), hes, if_neg (by simp [hk])]
    refine .done eff' _ hl' hi hok (shutDone _ _ _) ?_
    rw [sessState_wtReleaseIfDone, World.conn_modEs]
    rfl
  · rw [if_pos hok]
    exact .failed eff' hl' hi ⟨hok, hclosed⟩

end Wtquic.Engine
