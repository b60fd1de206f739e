-- SUMMARY: Every event keeps the flush invariant; an OK probe means flushed, and loss is reported for ever.
import Wtquic.Msquic.FlushSound

namespace Wtquic.Msquic

/-! # Runs -/

variable {s : Nat} {d : Driver}

/-! ## When loss is recorded -/

namespace Driver

@[simp] theorem failed_modDs (f : Dstream → Dstream) :
    (d.modDs s f).flushFailed = d.flushFailed := rfl
@[simp] theorem failed_record (f : Fact) : (d.record f).flushFailed = d.flushFailed := rfl
@[simp] theorem failed_push (f : Frame) : (d.push f).flushFailed = d.flushFailed := rfl
@[simp] theorem failed_flushFail : d.flushFail.flushFailed = true := rfl

@[simp] theorem failed_report (x : Report) : (d.report x).flushFailed = d.flushFailed := by
  unfold report
  split <;> rfl

@[simp] theorem failed_reportFor (x : Report) : (d.reportFor s x).flushFailed = d.flushFailed := by
  unfold reportFor
  split <;> simp

@[simp] theorem failed_flushBegin (bytes fin : Bool) :
    (d.flushBegin s bytes fin).2.flushFailed = d.flushFailed := by
  unfold flushBegin
  cases bytes <;> simp only [if_true, Bool.false_eq_true, if_false] <;> split <;> rfl

@[simp] theorem failed_dropFin : (d.dropFin s).flushFailed = d.flushFailed := by
  unfold dropFin
  split <;> rfl

@[simp] theorem failed_flushRollback (bytes newFin : Bool) :
    (d.flushRollback s bytes newFin).flushFailed = d.flushFailed := by
  unfold flushRollback
  cases bytes <;> cases newFin <;> rfl

@[simp] theorem failed_flushSettle : (d.flushSettle s).flushFailed = d.flushFailed := by
  unfold flushSettle
  dsimp only
  split <;> rfl

@[simp] theorem failed_startSettling : (d.startSettling s).flushFailed = d.flushFailed := by
  unfold startSettling
  split <;> rfl

@[simp] theorem failed_completeBytes (r : SendRec) (required : Bool) :
    (d.completeBytes r required).flushFailed = d.flushFailed := by
  unfold completeBytes
  split <;> rfl

@[simp] theorem failed_submit (r : SendRec) (accepted : Bool) :
    (d.submit r accepted).flushFailed = d.flushFailed := by
  unfold submit
  dsimp only
  split <;> simp

@[simp] theorem failed_writableCheck : (d.writableCheck s).flushFailed = d.flushFailed := by
  unfold writableCheck
  dsimp only
  split <;> simp

theorem failed_failPending : d.failPending.flushFailed = (d.flushFailed || d.flushPending) := by
  unfold failPending
  split <;> simp_all

theorem failed_flushDiscard (h : (d.flushDiscard s).flushFailed = false) :
    d.flushFailed = false ∧ (d.stream s).flushRequiredSends = 0 ∧ (d.stream s).flushFin = false ∧
      (d.stream s).flushSettling = false ∧ (d.stream s).flushDecision = [] := by
  unfold flushDiscard at h
  dsimp only at h
  split at h
  · simp at h
  · simp_all

theorem failed_flushWithdraw (h : (d.flushWithdraw s).flushFailed = false) :
    d.flushFailed = false ∧ (d.stream s).flushEpoch ≠ wordMax := by
  unfold flushWithdraw at h
  split at h
  · simp at h
  · simp_all

theorem failed_flushCancelLoss (h : (d.flushCancelLoss s).flushFailed = false) :
    d.flushFailed = false ∧ (d.stream s).flushDecision ≠ [] := by
  unfold flushCancelLoss at h
  split at h
  · simp at h
  · simp_all

/-- Nothing is discarded that is owed. -/
theorem flushDiscard_eq (h : (d.flushDiscard s).flushFailed = false) : d.flushDiscard s = d := by
  obtain ⟨-, h1, h2, h3, h4⟩ := failed_flushDiscard h
  simp [flushDiscard, dropFin, h1, h2, h3, h4]

/-- A write that changes nothing. -/
theorem update_same {e : Dstream} (h : e = d.stream s) :
    ({ d with stream := Function.update d.stream s e } : Driver) = d := by
  rw [h, Function.update_eq_self]

theorem sizeDec_succ (n : Nat) : sizeDec (n + 1) = n := by simp [sizeDec]

/-- A refused FIN is undone. -/
theorem fin_refused :
    (d.flushBegin s false true).2.flushRollback s false (d.flushBegin s false true).1 = d := by
  cases hf : (d.stream s).flushFin with
  | true => simp [flushBegin, flushRollback, hf]
  | false =>
    simp only [flushBegin, flushRollback, hf, modDs, sizeDec_succ, Function.update_idem,
      Function.update_self, Bool.not_false, Bool.and_self, if_true, Bool.false_eq_true, if_false]
    exact update_same (by rw [← hf])

/-- A refused submission is undone. -/
theorem submit_refused (r : SendRec) : d.submit r false = d := by
  unfold submit flushBegin flushRollback
  cases hb : r.flushBytes <;> cases hn : r.flushFin && !(d.stream r.ds).flushFin <;>
    simp only [hn, modDs, sizeDec_succ, Function.update_idem, Function.update_self, if_true,
      Bool.false_eq_true, if_false]
  · exact update_same rfl
  · simp only [Bool.and_eq_true, Bool.not_eq_true'] at hn
    exact update_same (by rw [← hn.2])
  · exact update_same rfl
  · simp only [Bool.and_eq_true, Bool.not_eq_true'] at hn
    exact update_same (by rw [← hn.2])

end Driver

/-! ## The events -/

namespace Good

variable {r : SendRec}

theorem refs_withdraw (e : Dstream) : e.withdraw.sendRefs = e.sendRefs := by
  unfold Dstream.withdraw Dstream.settle
  split <;> rfl

theorem epoch_withdraw (e : Dstream) :
    e.withdraw.flushEpoch = e.flushEpoch + 1 ∧ e.withdraw.flushRequiredSends = 0 := by
  unfold Dstream.withdraw Dstream.settle
  split <;> exact ⟨rfl, rfl⟩

theorem opened (hg : Good d) (isLocal isBidi critical pooled attached : Bool) :
    Good (d.openStream isLocal isBidi critical pooled attached) := by
  have hnew := hg.blank d.nextDs le_rfl
  have hes : ∀ t, (d.openStream isLocal isBidi critical pooled attached).stream t
      = if t = d.nextDs
        then { isLocal, isBidi, pooled, localCritical := critical, ectx := attached }
        else d.stream t := fun t => Function.update_apply _ _ _ _
  have htotal : ∀ g : Dstream → Nat,
      g { isLocal, isBidi, pooled, localCritical := critical, ectx := attached } = 0 →
      (d.openStream isLocal isBidi critical pooled attached).total g = d.total g := by
    intro g hz
    unfold Driver.total
    rw [show (d.openStream isLocal isBidi critical pooled attached).nextDs = d.nextDs + 1 from rfl,
      Finset.sum_range_succ, hes, if_pos rfl, hz, Nat.add_zero]
    refine Finset.sum_congr rfl fun t ht => ?_
    rw [hes, if_neg (Nat.ne_of_lt (Finset.mem_range.mp ht))]
  refine
    { tells := fun t => ?_
      blank := fun t ht => ?_
      fins := by rw [htotal _ rfl]; exact hg.fins
      settlements := by rw [htotal _ rfl]; exact hg.settlements
      decisions := by rw [htotal _ rfl]; exact hg.decisions
      sends := hg.sends
      refs := fun t => ?_
      required := fun t => ?_
      borrowed := hg.borrowed
      nodup := hg.nodup
      ordered := hg.ordered
      fresh := fun r hr => ⟨(hg.fresh r hr).1, Nat.lt_succ_of_lt (hg.fresh r hr).2⟩
      framed := fun f hf t ht => Nat.lt_succ_of_lt (hg.framed f hf t ht) }
  · rw [hes]
    split
    · next h =>
      subst h
      exact (hnew ▸ hg.tells d.nextDs).same ⟨rfl, rfl, rfl, rfl, rfl⟩
    · exact hg.tells t
  · have hlt : d.nextDs < t := ht
    rw [hes, if_neg (Nat.ne_of_gt hlt)]
    exact hg.blank t (Nat.le_of_lt hlt)
  · rw [hes]
    split
    · next h =>
      subst h
      have := hg.refs d.nextDs
      rwa [hnew] at this
    · exact hg.refs t
  · rw [hes]
    split
    · next h =>
      subst h
      have := hg.required d.nextDs
      rwa [hnew] at this
    · exact hg.required t

theorem discard (hg : Good d) (hs : s < d.nextDs) (hf : (d.flushDiscard s).flushFailed = false)
    {f : Fact} (hds : f.ds = s) (hsent : ∀ r, f ≠ .sent r) (hret : ∀ r c, f ≠ .returned r c)
    (hacc : ¬ f.acceptsFin s) (hcut : ¬ f.cuts s)
    (hdec : deciding s (f :: d.log) = deciding s d.log) : Good ((d.flushDiscard s).record f) := by
  obtain ⟨-, h1, h2, -⟩ := Driver.failed_flushDiscard hf
  rw [Driver.flushDiscard_eq hf]
  refine hg.turn hs (Turn.refl.record f) ?_ rfl (.inl ⟨rfl, rfl⟩) ?_
  · rintro g hg
    cases List.mem_singleton.mp hg
    exact ⟨hds, hsent, hret⟩
  · exact (hg.tells s).ended (hg.owes s) hsent (fun r => hret r true) hacc hcut h1 h2 hdec

theorem withdraw (hg : Good d) (hs : s < d.nextDs) (hf : (d.flushWithdraw s).flushFailed = false) :
    Good ((d.flushWithdraw s).record (.stopped s true)) := by
  obtain ⟨-, he⟩ := Driver.failed_flushWithdraw hf
  refine hg.turn hs ((Turn.withdraw (hg.covers hs) he).record _) ?_ (refs_withdraw _)
    (.inr (epoch_withdraw _)) ((hg.tells s).stopped (hg.idle s))
  rintro f hm
  cases List.mem_singleton.mp hm
  exact ⟨rfl, by simp, by simp⟩

theorem peerReceiveAborted (hg : Good d) (hs : s < d.nextDs) (answer : Bool)
    (hf : (d.peerReceiveAborted s answer).flushFailed = false) :
    Good (d.peerReceiveAborted s answer) := by
  unfold Driver.peerReceiveAborted at hf ⊢
  dsimp only at hf ⊢
  have hmain : ((if Driver.flushIsWt (d.stream s) answer then d.flushWithdraw s
      else d.flushDiscard s)).flushFailed = false →
      Good ((if Driver.flushIsWt (d.stream s) answer then d.flushWithdraw s
        else d.flushDiscard s).record (.stopped s (Driver.flushIsWt (d.stream s) answer))) := by
    cases Driver.flushIsWt (d.stream s) answer with
    | true => exact hg.withdraw hs
    | false =>
      intro hf
      exact hg.discard hs hf rfl (by simp) (by simp) (by simp [Fact.acceptsFin])
        (by simp [Fact.cuts]) rfl
  generalize (if Driver.flushIsWt (d.stream s) answer then d.flushWithdraw s
    else d.flushDiscard s) = u at hmain hf ⊢
  split at hf
  · next h =>
    rw [if_pos h]
    exact hmain (by simpa using hf)
  · next h =>
    rw [if_neg h]
    exact (hmain (by simpa using hf)).reportFor s _

/-- The obligations a completed send shutdown meets or loses. -/
theorem sendShutdownObligations (hg : Good d) (hs : s < d.nextDs) (graceful : Bool)
    (hf : (d.sendShutdownObligations s graceful).flushFailed = false) :
    ∃ e, Turn s e [] d (d.sendShutdownObligations s graceful) ∧
      e.sendRefs = (d.stream s).sendRefs ∧ e.flushEpoch = (d.stream s).flushEpoch ∧
      e.flushRequiredSends = (d.stream s).flushRequiredSends ∧
      Tells s e (.sendDone s graceful :: d.log) := by
  have hc := hg.covers hs
  have ht := hg.tells s
  unfold Driver.sendShutdownObligations at hf ⊢
  dsimp only at hf ⊢
  cases graceful with
  | true => exact ⟨_, Turn.dropFin hc, rfl, rfl, rfl, ht.graceful⟩
  | false =>
    simp only [Bool.false_eq_true, if_false] at hf ⊢
    split at hf
    · next hlost =>
      rw [if_pos hlost]
      obtain ⟨-, hd⟩ := Driver.failed_flushCancelLoss (by simpa using hf)
      have h1 : Turn s _ [] d _ := Turn.cancelLoss hd
      have h2 := h1.trans (Turn.dropFin (h1.covers hc))
      rw [h1.stream_self] at h2
      obtain ⟨p, ps, hp⟩ := List.exists_cons_of_ne_nil hd
      refine ⟨_, h2, rfl, rfl, rfl, ht.aborted (Dstream.loss_cancelLoss hd) ?_ rfl rfl rfl ?_
        (by simp) (by simp [Fact.cuts])⟩
      · simpa [Dstream.dropFin, Dstream.cancelLoss, deciding] using ht.deciding
      · intro q hq hqc
        simp only [Dstream.dropFin, Dstream.cancelLoss, hp, List.modifyHead_cons] at hq
        rcases List.mem_cons.mp hq with rfl | hq
        · exact ⟨p, by simp [hp], hqc⟩
        · exact ⟨q, by simp [hp, hq], hqc⟩
    · next hlost =>
      rw [if_neg hlost]
      simp only [ne_eq, not_or, not_not, Bool.not_eq_true] at hlost
      exact ⟨_, Turn.refl, rfl, rfl, rfl, ht.ended (hg.owes s) (by simp) (by simp)
        (by simp [Fact.acceptsFin]) (by simp [Fact.cuts]) hlost.1 hlost.2 rfl⟩

/-- The evidence a completed send shutdown gives. -/
theorem turn_evidence (hc : Covers s d) :
    Turn s (d.stream s).evidence [] d (d.sendShutdownEvidence s) := by
  unfold Driver.sendShutdownEvidence Dstream.evidence
  have h1 : Turn s _ [] d (d.modDs s fun e => { e with
      flushDecision := e.flushDecision.map fun p : Decision =>
        { p with shutdownComplete := true } }) := Turn.modDs rfl rfl (by simp)
  have hself := h1.stream_self
  dsimp only
  rw [hself]
  split
  · have h2 := h1.trans (Turn.modDs (f := fun e => { e with flushAbortComplete := true }) rfl rfl rfl)
    have h3 := h2.trans (Turn.settle (h2.covers hc))
    rw [h2.stream_self, hself] at h3
    exact h3
  · exact h1

theorem refs_evidence (e : Dstream) : e.evidence.sendRefs = e.sendRefs := by
  unfold Dstream.evidence Dstream.settle
  dsimp only
  split
  · split <;> rfl
  · rfl

theorem epoch_evidence (e : Dstream) : e.evidence.flushEpoch = e.flushEpoch ∧
    e.evidence.flushRequiredSends = e.flushRequiredSends := by
  unfold Dstream.evidence Dstream.settle
  dsimp only
  split
  · split <;> exact ⟨rfl, rfl⟩
  · exact ⟨rfl, rfl⟩

theorem sendShutdownComplete (hg : Good d) (hs : s < d.nextDs) (graceful : Bool)
    (hf : (d.sendShutdownComplete s graceful).flushFailed = false) :
    Good (d.sendShutdownComplete s graceful) := by
  have hev : ∀ u : Driver, (u.sendShutdownEvidence s).flushFailed = u.flushFailed := fun u => by
    unfold Driver.sendShutdownEvidence
    dsimp only
    split <;> simp
  have hf' : (d.sendShutdownObligations s graceful).flushFailed = false := by
    unfold Driver.sendShutdownComplete at hf
    dsimp only at hf
    split at hf <;> simpa [hev] using hf
  obtain ⟨e, h1, hrefs, hepoch, hreq, htell⟩ := hg.sendShutdownObligations hs graceful hf'
  have h2 := h1.trans (turn_evidence (h1.covers (hg.covers hs)))
  rw [h1.stream_self] at h2
  have hidle : Idle s e (.sendDone s graceful :: d.log) := (hg.idle s).cons (by simp) hrefs
  have hgood : Good (((d.sendShutdownObligations s graceful).sendShutdownEvidence s).record
      (.sendDone s graceful)) := by
    refine hg.turn hs (h2.record _) ?_ ((refs_evidence e).trans hrefs)
      (.inl ⟨(epoch_evidence e).1.trans hepoch, (epoch_evidence e).2.trans hreq⟩)
      (htell.evidence ⟨_, rfl⟩ hidle)
    rintro f hm
    cases List.mem_singleton.mp hm
    exact ⟨rfl, by simp, by simp⟩
  have hn : (((d.sendShutdownObligations s graceful).sendShutdownEvidence s).record
      (.sendDone s graceful)).nextDs = d.nextDs := h2.nextDs
  unfold Driver.sendShutdownComplete
  dsimp only
  split
  · exact hgood.modDs (hn ▸ hs) ⟨rfl, rfl, rfl, rfl, rfl⟩ rfl rfl
  · exact hgood.reportFor s _

/-! ### Cancellations -/

theorem shutdown (hg : Good d) (hs : s < d.nextDs) (req : Engine.Shutdown) (answer : Bool) :
    Good (d.opShutdownStream s req answer).2 := by
  unfold Driver.opShutdownStream
  split
  · exact hg
  dsimp only
  have hpush : ∀ (u : Driver) (f : Frame), Good u → f.ds = some s → s < u.nextDs →
      Good (u.push f) := by
    intro u f hu hf hlt
    refine hu.like rfl fun g hm => ?_
    rcases List.mem_cons.mp hm with rfl | hm
    · exact .inr fun t ht => by simp_all
    · exact .inl hm
  split
  · refine hpush _ _ ?_ rfl hs
    refine hg.turn (e := { d.stream s with flushDecision := {} :: (d.stream s).flushDecision })
      (l := [.began s]) hs ⟨rfl, rfl, rfl, rfl, rfl, rfl, rfl, rfl, rfl, ?_⟩ ?_ rfl
      (.inl ⟨rfl, rfl⟩) (hg.tells s).began
    · simp only [Driver.record, List.length_cons]
      omega
    · rintro f hm
      cases List.mem_singleton.mp hm
      exact ⟨rfl, by simp, by simp⟩
  · exact hpush _ _ hg rfl hs

/-- The decision on an application cancellation. -/
theorem decide (hg : Good d) (hs : s < d.nextDs) (ok sendAccepted : Bool)
    (hf : (d.decide s ok sendAccepted).flushFailed = false) :
    Good (d.decide s ok sendAccepted) := by
  have hc := hg.covers hs
  have hl : ∀ {o : Outcome}, ∀ f ∈ [Fact.decided s o],
      f.ds = s ∧ (∀ r, f ≠ .sent r) ∧ ∀ r c, f ≠ .returned r c := by
    intro o f hm
    cases List.mem_singleton.mp hm
    exact ⟨rfl, by simp, by simp⟩
  unfold Driver.decide at hf ⊢
  cases hd : (d.stream s).flushDecision with
  | nil => exact hg
  | cons p ps =>
    simp only [hd] at hf ⊢
    have hpos : 1 ≤ d.flushDecisions := by
      have := hc.decisions
      simp only [hd, List.length_cons] at this
      omega
    have hpop : Turn s { d.stream s with flushDecision := ps } [] d
        { d.modDs s fun e => { e with flushDecision := ps }
          with flushDecisions := sizeDec d.flushDecisions } := by
      refine ⟨rfl, rfl, rfl, rfl, rfl, rfl, rfl, rfl, rfl, ?_⟩
      simp only [sizeDec_of_pos hpos, hd, List.length_cons]
      omega
    generalize ({ d.modDs s fun e => { e with flushDecision := ps }
          with flushDecisions := sizeDec d.flushDecisions } : Driver) = u at hpop hf ⊢
    have hcu := hpop.covers hc
    have hus := hpop.stream_self
    cases ok with
    | true =>
      simp only [if_true] at hf ⊢
      have hseen : ∃ ac : Bool,
          (ac → (d.stream s).flushAbortComplete ∨ p.shutdownComplete) ∧
          Turn s { d.stream s with flushDecision := ps, flushAbortComplete := ac } [] d
            (if p.shutdownComplete then u.modDs s fun e => { e with flushAbortComplete := true }
              else u) := by
        split
        · next hp =>
          have h := hpop.trans (Turn.modDs (f := fun e => { e with flushAbortComplete := true }) rfl rfl rfl)
          rw [hus] at h
          exact ⟨true, fun _ => .inr hp, h⟩
        · exact ⟨_, .inl, hpop⟩
      obtain ⟨ac, hac, hturn⟩ := hseen
      generalize (if p.shutdownComplete then u.modDs s fun e => { e with flushAbortComplete := true }
        else u) = v at hturn hf ⊢
      obtain ⟨-, he⟩ := Driver.failed_flushWithdraw (by simpa using hf)
      have h2 := hturn.trans (Turn.withdraw (hturn.covers hc) he)
      rw [hturn.stream_self] at h2
      exact hg.turn hs (h2.record _) hl (refs_withdraw _) (.inr (epoch_withdraw _))
        ((hg.tells s).accepted (hg.idle s) hd hac)
    | false =>
      simp only [Bool.false_eq_true, if_false] at hf ⊢
      cases sendAccepted with
      | true => simp at hf
      | false =>
        simp only [Bool.false_eq_true, if_false] at hf ⊢
        have hloss : p.loss → ps ≠ [] := fun hp => by
          rw [if_pos hp] at hf
          have hne := (Driver.failed_flushCancelLoss (s := s) (by simpa using hf)).2
          rwa [hus] at hne
        have htell := (hg.tells s).refused hd hloss
        split at htell
        · next hp =>
          rw [if_pos hp]
          have h2 := hpop.trans (Turn.cancelLoss (by simpa [hus] using hloss hp))
          rw [hus] at h2
          exact hg.turn hs (h2.record _) hl rfl (.inl ⟨rfl, rfl⟩) htell
        · next hp =>
          rw [if_neg hp]
          exact hg.turn hs (hpop.record _) hl rfl (.inl ⟨rfl, rfl⟩) htell

theorem nextDs_dropFin : (d.dropFin s).nextDs = d.nextDs := by
  unfold Driver.dropFin
  split <;> rfl

theorem nextDs_flushSettle : (d.flushSettle s).nextDs = d.nextDs := by
  unfold Driver.flushSettle
  dsimp only
  split <;> rfl

theorem nextDs_flushWithdraw : (d.flushWithdraw s).nextDs = d.nextDs := by
  have hstart : ∀ u : Driver, (u.startSettling s).nextDs = u.nextDs := fun u => by
    unfold Driver.startSettling
    split <;> rfl
  unfold Driver.flushWithdraw
  split
  · rfl
  · dsimp only
    rw [nextDs_flushSettle, hstart, nextDs_dropFin]
    rfl

theorem nextDs_flushCancelLoss : (d.flushCancelLoss s).nextDs = d.nextDs := by
  unfold Driver.flushCancelLoss
  split <;> rfl

theorem nextDs_decide (ok sendAccepted : Bool) :
    (d.decide s ok sendAccepted).nextDs = d.nextDs := by
  unfold Driver.decide
  split
  · rfl
  dsimp only
  split
  · show (Driver.flushWithdraw s _).nextDs = _
    rw [nextDs_flushWithdraw]
    split <;> rfl
  · split
    · rfl
    · split
      · exact nextDs_flushCancelLoss
      · rfl

theorem resolve (hg : Good d) (hs : s < d.nextDs) (intent ok sendAccepted : Bool)
    (hf : (d.resolve s intent ok sendAccepted).flushFailed = false) :
    Good (d.resolve s intent ok sendAccepted) := by
  unfold Driver.resolve at hf ⊢
  cases intent with
  | true =>
    refine settle (hg.decide hs ok sendAccepted (by simpa using hf)) ?_
    rw [if_pos rfl, nextDs_decide]
    exact hs
  | false =>
    simp only [Bool.false_eq_true, if_false] at hf ⊢
    split at hf
    · next h =>
      rw [if_pos h]
      have hf : (d.flushDiscard s).flushFailed = false := by simpa using hf
      have hd : Good ((d.flushDiscard s).record (.aborted s)) :=
        hg.discard hs hf rfl (by simp) (by simp) (by simp [Fact.acceptsFin]) (by simp [Fact.cuts]) rfl
      refine hd.settle ?_
      rw [Driver.flushDiscard_eq hf]
      exact hs
    · next h =>
      rw [if_neg h]
      exact hg.settle hs

/-! ### Submissions -/

/-- A FIN without bytes. -/
theorem finSent (hg : Good d) (hs : s < d.nextDs) :
    Good ((d.flushBegin s false true).2.record (.fin s)) := by
  have hturn : Turn s { d.stream s with flushFin := true } [] d (d.flushBegin s false true).2 := by
    cases hf : (d.stream s).flushFin with
    | true =>
      have he : { d.stream s with flushFin := true } = d.stream s := by rw [← hf]
      rw [he]
      simpa [Driver.flushBegin, hf] using Turn.refl
    | false =>
      simp only [Driver.flushBegin, hf, Bool.false_eq_true, if_false, Bool.not_false, Bool.and_self,
        if_true]
      exact ⟨rfl, rfl, rfl, rfl, rfl, rfl, rfl, by simp [hf], rfl, rfl⟩
  refine hg.turn hs (hturn.record _) ?_ rfl (.inl ⟨rfl, rfl⟩) ?_
  · rintro f hm
    cases List.mem_singleton.mp hm
    exact ⟨rfl, by simp, by simp⟩
  · exact (hg.tells s).submitted rfl (by simp) (by simp [Fact.cuts]) (by simp [Fact.ends])
      (by simp) (by simp) rfl (fun _ => rfl) rfl rfl rfl (hg.tells s).deciding

/-- What a submission does to its stream. -/
theorem submit_stream (r : SendRec) : (d.submit r true).stream = Function.update d.stream r.ds
    { d.stream r.ds with
      sendRefs := (d.stream r.ds).sendRefs + 1
      flushSends := (d.stream r.ds).flushSends + (if r.flushBytes then 1 else 0)
      flushRequiredSends := (d.stream r.ds).flushRequiredSends + (if r.flushBytes then 1 else 0)
      flushFin := (d.stream r.ds).flushFin || r.flushFin } := by
  unfold Driver.submit Driver.flushBegin
  cases hb : r.flushBytes <;> cases hn : r.flushFin <;>
    cases hf : (d.stream r.ds).flushFin <;>
    simp [Driver.modDs, Driver.record, hf, Function.update_idem]

theorem submit_counts (r : SendRec) :
    (d.submit r true).flushSends = d.flushSends + (if r.flushBytes then 1 else 0) ∧
      (d.submit r true).flushFins + (d.stream r.ds).flushFin.toNat
        = d.flushFins + ((d.stream r.ds).flushFin || r.flushFin).toNat := by
  unfold Driver.submit Driver.flushBegin
  cases hb : r.flushBytes <;> cases hn : r.flushFin <;>
    cases hf : (d.stream r.ds).flushFin <;>
    simp [Driver.modDs, Driver.record, hf]

theorem submit_rest (r : SendRec) : (d.submit r true).log = .sent r :: d.log ∧
    (d.submit r true).borrowed = r :: d.borrowed ∧ (d.submit r true).nextDs = d.nextDs ∧
    (d.submit r true).nextRec = d.nextRec + 1 ∧ (d.submit r true).frames = d.frames ∧
    (d.submit r true).flushSettlements = d.flushSettlements ∧
    (d.submit r true).flushDecisions = d.flushDecisions := by
  unfold Driver.submit Driver.flushBegin
  cases hb : r.flushBytes <;> cases hn : r.flushFin && !(d.stream r.ds).flushFin <;>
    simp [Driver.modDs, Driver.record, hn]

/-- MsQuic accepted a new record. -/
theorem sent (hg : Good d) {r : SendRec} (hs : r.ds < d.nextDs) (hid : r.id = d.nextRec)
    (hepoch : r.flushEpoch = (d.stream r.ds).flushEpoch) : Good (d.submit r true) := by
  obtain ⟨hsends, hfins⟩ := submit_counts (d := d) r
  obtain ⟨hlog, hborrowed, hnextDs, hnextRec, hframes, hset, hdec⟩ := submit_rest (d := d) r
  have hstream := submit_stream (d := d) r
  have hes : ∀ t, (d.submit r true).stream t = if t = r.ds then _ else d.stream t := fun t => by
    rw [hstream, Function.update_apply]
  have hnew : Fact.sent r ∉ d.log := fun hm => by
    have := (hg.fresh r hm).1
    omega
  have hout : ¬ Returned r d.log := fun hr => hnew (hg.ordered.sent hr)
  have hret : ∀ q, Returned q (.sent r :: d.log) ↔ Returned q d.log := fun q => by
    simp [Returned]
  have htotal : ∀ {g : Dstream → Nat} {n n' : Nat} (e : Dstream),
      (d.submit r true).stream = Function.update d.stream r.ds e → n = d.total g →
      n' + g (d.stream r.ds) = n + g e → n' = (d.submit r true).total g := by
    intro g n n' e he hn hg
    have hsum := sum_update hs e g (f := d.stream)
    rw [Driver.total, he, hnextDs]
    rw [Driver.total] at hn
    omega
  refine
    { tells := fun t => ?_
      blank := fun t ht => ?_
      fins := htotal _ hstream hg.fins hfins
      settlements := htotal _ hstream hg.settlements (by rw [hset])
      decisions := htotal _ hstream hg.decisions (by rw [hdec])
      sends := ?_
      refs := fun t => ?_
      required := fun t => ?_
      borrowed := fun q => ?_
      nodup := ?_
      ordered := ?_
      fresh := fun q hq => ?_
      framed := by rw [hframes, hnextDs]; exact hg.framed }
  · rw [hes, hlog]
    split
    · next h =>
      subst h
      refine (hg.tells r.ds).submitted rfl (by simp) (by simp [Fact.cuts]) (by simp [Fact.ends])
        (by simp) (fun q hq => ?_) rfl (fun hf => ?_) rfl rfl rfl (hg.tells r.ds).deciding
      · cases hq
        exact ⟨hepoch, hnew⟩
      · simpa [Fact.acceptsFin, or_comm] using hf
    · next h => exact (hg.tells t).other (Ne.symm h)
  · rw [hnextDs] at ht
    rw [hes, if_neg (by omega)]
    exact hg.blank t ht
  · rw [hsends, hborrowed, List.countP_cons, hg.sends]
  · rw [hes, hborrowed, List.countP_cons, ← hg.refs t]
    split
    · next h =>
      subst h
      simp
    · next h => simp [Ne.symm h]
  · rw [hes, hborrowed, List.countP_cons]
    split
    · next h =>
      subst h
      rw [← hg.required r.ds]
      simp [hepoch]
    · next h =>
      rw [← hg.required t]
      simp [Ne.symm h]
  · rw [hborrowed, hlog, List.mem_cons, List.mem_cons, hret, hg.borrowed q]
    constructor
    · rintro (rfl | ⟨hq, hn⟩)
      · exact ⟨.inl rfl, hout⟩
      · exact ⟨.inr hq, hn⟩
    · rintro ⟨hq | hq, hn⟩
      · cases hq
        exact .inl rfl
      · exact .inr ⟨hq, hn⟩
  · rw [hborrowed, List.nodup_cons]
    exact ⟨fun hm => hnew ((hg.borrowed r).mp hm).1, hg.nodup⟩
  · rw [hlog]
    refine ⟨fun q hq => ?_, by simp, hg.ordered⟩
    cases hq
    exact ⟨hnew, hout⟩
  · rw [hlog] at hq
    rw [hnextRec, hnextDs]
    rcases List.mem_cons.mp hq with hq | hq
    · cases hq
      exact ⟨by omega, hs⟩
    · exact ⟨Nat.lt_succ_of_lt (hg.fresh q hq).1, (hg.fresh q hq).2⟩

theorem send (hg : Good d) (hs : s < d.nextDs) (len : Nat) (fin alloc accepted : Bool) :
    Good (d.opSend s len fin alloc accepted).2 := by
  unfold Driver.opSend
  split
  · exact hg
  split
  · exact hg
  split
  · dsimp only
    split
    · exact hg.finSent hs
    · rw [Driver.fin_refused]
      exact hg
  split
  · exact hg
  · cases accepted with
    | true => exact hg.sent hs rfl rfl
    | false =>
      simp only [Driver.submit_refused]
      exact hg

theorem sendGather (hg : Good d) (hs : s < d.nextDs) (spans : List Nat) (fin : Bool) (cookie : Nat)
    (alloc accepted : Bool) : Good (d.opSendGather s spans fin cookie alloc accepted).2 := by
  unfold Driver.opSendGather
  dsimp only
  split
  · exact hg
  split
  · exact hg
  split
  · exact hg.modDs (f := fun e => { e with sendBlocked := true }) hs ⟨rfl, rfl, rfl, rfl, rfl⟩ rfl rfl
  split
  · exact hg
  split
  · have hm : Good (d.modDs s fun e => { e with inflightBytes := e.inflightBytes + spans.sum }) :=
      hg.modDs hs ⟨rfl, rfl, rfl, rfl, rfl⟩ rfl rfl
    have hsent := hm.sent (r :=
      { id := d.nextRec, ds := s, gather := true, flushBytes := spans.sum != 0, flushFin := fin
        flushEpoch := (d.stream s).flushEpoch, bytes := spans.sum, cookie }) hs rfl
      (by simp [Driver.modDs])
    refine hsent.like rfl fun f hf => ?_
    rcases List.mem_cons.mp hf with rfl | hf
    · refine .inr fun t ht => ?_
      cases ht
      rw [(submit_rest _).2.2.1]
      exact hs
    · exact .inl hf
  · simp only [Driver.submit_refused]
    exact hg

/-! ### Completions -/

/-- What a canceled completion loses. -/
def lossOf (r : SendRec) (canceled : Bool) (d : Driver) : Driver :=
  let d := if canceled && (r.flushBytes || r.flushFin) then
    d.modDs r.ds fun e => { e with flushOutputCanceled := true } else d
  if canceled && r.flushEpoch == (d.stream r.ds).flushEpoch && (r.flushBytes || r.flushFin) then
    let d := d.flushCancelLoss r.ds
    if r.flushFin then d.dropFin r.ds else d
  else d

theorem flushComplete_eq (r : SendRec) (canceled : Bool) : d.flushComplete r canceled
    = (lossOf r canceled d).completeBytes r (r.flushEpoch == (d.stream r.ds).flushEpoch) := by
  have hepoch : ((if canceled && (r.flushBytes || r.flushFin) then
      d.modDs r.ds fun e => { e with flushOutputCanceled := true } else d).stream r.ds).flushEpoch
      = (d.stream r.ds).flushEpoch := by
    split
    · simp [Driver.modDs]
    · rfl
  unfold Driver.flushComplete lossOf
  dsimp only
  rw [hepoch]

/-- A canceled completion puts what it loses on record. -/
theorem turn_lossOf (hg : Good d) {r : SendRec} (hm : r ∈ d.borrowed) (canceled : Bool)
    (hf : (lossOf r canceled d).flushFailed = false) : ∃ e,
    Turn r.ds e [] d (lossOf r canceled d) ∧ e.sendRefs = (d.stream r.ds).sendRefs ∧
      e.flushEpoch = (d.stream r.ds).flushEpoch ∧
      e.flushRequiredSends = (d.stream r.ds).flushRequiredSends ∧
      Tells r.ds e (.returned r canceled :: d.log) := by
  have hsent := ((hg.borrowed r).mp hm).1
  have hc := hg.covers (hg.fresh r hsent).2
  have hcancel : ∃ e, Turn r.ds e [] d (if canceled && (r.flushBytes || r.flushFin) then
      d.modDs r.ds fun e => { e with flushOutputCanceled := true } else d) ∧
      (d.stream r.ds).Same e ∧ e.sendRefs = (d.stream r.ds).sendRefs ∧
      e.flushRequiredSends = (d.stream r.ds).flushRequiredSends := by
    split
    · exact ⟨_, Turn.modDs rfl rfl rfl, ⟨rfl, rfl, rfl, rfl, rfl⟩, rfl, rfl⟩
    · exact ⟨_, Turn.refl, ⟨rfl, rfl, rfl, rfl, rfl⟩, rfl, rfl⟩
  obtain ⟨e, hturn, hsame, hrefs, hreq⟩ := hcancel
  have ht := (hg.tells r.ds).same hsame
  unfold lossOf at hf ⊢
  dsimp only at hf ⊢
  generalize (if canceled && (r.flushBytes || r.flushFin) then
    d.modDs r.ds fun e => { e with flushOutputCanceled := true } else d) = u at hturn hf ⊢
  have hus := hturn.stream_self
  rw [hus] at hf ⊢
  split at hf
  · next hlost =>
    rw [if_pos hlost]
    simp only [Bool.and_eq_true, beq_iff_eq] at hlost
    have hd : (u.stream r.ds).flushDecision ≠ [] := by
      refine (Driver.failed_flushCancelLoss (s := r.ds) ?_).2
      split at hf <;> simpa using hf
    have h1 := hturn.trans (Turn.cancelLoss hd)
    rw [hus] at h1 hd
    have hlen : e.cancelLoss.flushDecision.length
        = deciding r.ds (.returned r canceled :: d.log) := by
      simpa [Dstream.cancelLoss, deciding] using ht.deciding
    have hwit : ∀ p ∈ e.cancelLoss.flushDecision, p.shutdownComplete →
        ∃ q ∈ e.flushDecision, q.shutdownComplete := by
      obtain ⟨q, qs, hq⟩ := List.exists_cons_of_ne_nil hd
      intro p hp hpc
      simp only [Dstream.cancelLoss, hq, List.modifyHead_cons] at hp
      rcases List.mem_cons.mp hp with rfl | hp
      · exact ⟨q, by simp [hq], hpc⟩
      · exact ⟨p, by simp [hq, hp], hpc⟩
    split
    · have h2 := h1.trans (Turn.dropFin (h1.covers hc))
      rw [h1.stream_self] at h2
      exact ⟨_, h2, hrefs, hsame.flushEpoch, hreq,
        ht.aborted (Dstream.loss_cancelLoss hd) hlen rfl rfl rfl hwit
          (by simp) (by simp [Fact.cuts])⟩
    · exact ⟨_, h1, hrefs, hsame.flushEpoch, hreq,
        ht.aborted (Dstream.loss_cancelLoss hd) hlen rfl rfl rfl hwit
          (by simp) (by simp [Fact.cuts])⟩
  · next hlost =>
    rw [if_neg hlost]
    refine ⟨_, hturn, hrefs, hsame.flushEpoch, hreq, ht.returned rfl (fun h1 h2 h3 => hlost ?_) hsent⟩
    simp [h1, h2, h3]

end Good
end Wtquic.Msquic
