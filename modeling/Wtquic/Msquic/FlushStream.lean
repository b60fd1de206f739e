-- SUMMARY: One stream's flush fields tell the truth about its history, and go on telling it.
import Wtquic.Msquic.FlushHistory

namespace Wtquic.Msquic

/-! # One stream

The flush functions as they act on one stream, and the agreement between the fields of a
stream and its history. Every lemma below leaves the connection's counters aside. -/

namespace Dstream

/-- A cancellation in progress has seen required output get lost. -/
def loss (e : Dstream) : Bool := e.flushDecision.any (·.loss)

def dropFin (e : Dstream) : Dstream := { e with flushFin := false }

/-- The settlement of a withdrawal can end. -/
def settles (e : Dstream) : Prop :=
  e.flushSettling ∧ e.flushAbortComplete ∧ e.sendRefs = 0 ∧ e.flushDecision = []

instance (e : Dstream) : Decidable e.settles := by unfold settles; infer_instance

def settle (e : Dstream) : Dstream := if e.settles then { e with flushSettling := false } else e

def withdraw (e : Dstream) : Dstream :=
  settle { e with
    flushEpoch := e.flushEpoch + 1
    flushRequiredSends := 0
    flushFin := false
    flushSettling := true }

def cancelLoss (e : Dstream) : Dstream :=
  { e with flushDecision := e.flushDecision.modifyHead fun p : Decision => { p with loss := true } }

/-- The evidence of a completed send shutdown. -/
def evidence (e : Dstream) : Dstream :=
  let e := { e with
    flushDecision := e.flushDecision.map fun p : Decision => { p with shutdownComplete := true } }
  if e.flushSettling then settle { e with flushAbortComplete := true } else e

theorem loss_of_decision {e : Dstream} (h : e.flushDecision = []) : e.loss = false := by
  simp [loss, h]

theorem loss_cancelLoss {e : Dstream} (h : e.flushDecision ≠ []) : e.cancelLoss.loss := by
  obtain ⟨p, ps, hp⟩ := List.exists_cons_of_ne_nil h
  simp [loss, cancelLoss, hp]

/-- The fields that the account of a stream's history reads. -/
structure Same (e e' : Dstream) : Prop where
  flushFin : e'.flushFin = e.flushFin
  flushEpoch : e'.flushEpoch = e.flushEpoch
  flushSettling : e'.flushSettling = e.flushSettling
  flushAbortComplete : e'.flushAbortComplete = e.flushAbortComplete
  flushDecision : e'.flushDecision = e.flushDecision

end Dstream

/-- The fields of stream `s` agree with the history. -/
structure Tells (s : Nat) (e : Dstream) (h : History) : Prop where
  epochs : ∀ r, r.ds = s → .sent r ∈ h → r.flushEpoch ≤ e.flushEpoch
  current : ∀ r, r.ds = s → .sent r ∈ h → (r.flushEpoch = e.flushEpoch ↔ Required r h)
  fin : FinRequired s h → e.flushFin ∨ e.loss
  lostSend : ∀ r, r.ds = s → LostSend r h → e.loss
  lostFin : LostFin s h → e.loss
  withdrawn : (∃ f ∈ h, f.cuts s) → e.flushSettling ∨ Settled s h
  observed : e.flushAbortComplete → ∃ graceful, .sendDone s graceful ∈ h
  witnessed : ∀ p ∈ e.flushDecision, p.shutdownComplete → ∃ graceful, .sendDone s graceful ∈ h
  deciding : e.flushDecision.length = deciding s h

/-- When MsQuic borrows no send of stream `s`, all of them have come back. -/
def Idle (s : Nat) (e : Dstream) (h : History) : Prop :=
  e.sendRefs = 0 → ∀ r, .sent r ∈ h → r.ds = s → Returned r h

/-- The required sends that are still out are counted. -/
def Owes (s : Nat) (e : Dstream) (h : History) : Prop :=
  ∀ r, r.ds = s → Required r h → r.flushBytes → ¬ Returned r h → e.flushRequiredSends ≠ 0

variable {s : Nat} {e e' : Dstream} {h : History} {f : Fact} {r : SendRec}

/-- A fact that submits nothing leaves an idle stream idle. -/
theorem Idle.cons (hi : Idle s e h) (hsent : ∀ r, f ≠ .sent r) (hrefs : e'.sendRefs = e.sendRefs) :
    Idle s e' (f :: h) := fun h0 r hr hds =>
  (hi (hrefs ▸ h0) r ((List.mem_cons.mp hr).resolve_left fun e => hsent r e.symm) hds).cons f

namespace Tells

theorem init (s : Nat) : Tells s {} [] where
  epochs := by simp
  current := by simp
  fin := fun hf => hf.elim
  lostSend := fun _ _ hl => hl.elim
  lostFin := fun hl => hl.elim
  withdrawn := by simp
  observed := by simp
  witnessed := by simp
  deciding := rfl

theorem same (ht : Tells s e h) (hs : e.Same e') : Tells s e' h where
  epochs := by rw [hs.flushEpoch]; exact ht.epochs
  current := by rw [hs.flushEpoch]; exact ht.current
  fin := by simpa only [Dstream.loss, hs.flushFin, hs.flushDecision] using ht.fin
  lostSend := by simpa only [Dstream.loss, hs.flushDecision] using ht.lostSend
  lostFin := by simpa only [Dstream.loss, hs.flushDecision] using ht.lostFin
  withdrawn := by rw [hs.flushSettling]; exact ht.withdrawn
  observed := by rw [hs.flushAbortComplete]; exact ht.observed
  witnessed := by rw [hs.flushDecision]; exact ht.witnessed
  deciding := by rw [hs.flushDecision]; exact ht.deciding

/-- A fact about another stream. -/
theorem other (ht : Tells s e h) (hf : f.ds ≠ s) : Tells s e (f :: h) where
  epochs := fun r hr hm => ht.epochs r hr <| by
    rcases List.mem_cons.mp hm with rfl | hm
    · exact absurd hr hf
    · exact hm
  current := fun r hr hm => by
    subst hr
    rw [required_cons hf]
    rcases List.mem_cons.mp hm with rfl | hm
    · exact absurd rfl hf
    · exact ht.current r rfl hm
  fin := by rw [finRequired_cons hf]; exact ht.fin
  lostSend := fun r hr => by
    subst hr
    rw [lostSend_cons hf]
    exact ht.lostSend r rfl
  lostFin := by rw [lostFin_cons hf]; exact ht.lostFin
  withdrawn := fun ⟨g, hg, hc⟩ => by
    rcases List.mem_cons.mp hg with rfl | hg
    · exact absurd (Fact.ds_of_cuts hc) hf
    · exact (ht.withdrawn ⟨g, hg, hc⟩).imp id (settled_cons fun hc => hf (Fact.ds_of_cuts hc))
  observed := fun ha => (ht.observed ha).imp fun _ => List.mem_cons_of_mem _
  witnessed := fun p hp hc => (ht.witnessed p hp hc).imp fun _ => List.mem_cons_of_mem _
  deciding := by rw [deciding_cons hf]; exact ht.deciding

theorem others {l : History} (ht : Tells s e h) (hl : ∀ f ∈ l, f.ds ≠ s) : Tells s e (l ++ h) := by
  induction l with
  | nil => exact ht
  | cons f l ih =>
    exact (ih fun g hg => hl g (List.mem_cons_of_mem _ hg)).other (hl f List.mem_cons_self)

/-- A fact that neither adds to what is required nor takes from it. -/
structure Neutral (s : Nat) (f : Fact) : Prop where
  accepts : ¬ f.acceptsFin s
  sent : ∀ r, f ≠ .sent r
  cuts : ¬ f.cuts s
  ends : ¬ f.ends s
  returned : ∀ r, f ≠ .returned r true

/-- What a neutral fact leaves to be shown. -/
theorem neutral (ht : Tells s e h) (hn : Neutral s f) (hepoch : e'.flushEpoch = e.flushEpoch)
    (hfin : e.flushFin → e'.flushFin ∨ e'.loss ∨ f = .sendDone s true) (hloss : e.loss → e'.loss)
    (hsettling : e.flushSettling → e'.flushSettling ∨ Settled s (f :: h))
    (hobs : e'.flushAbortComplete → e.flushAbortComplete ∨ ∃ g, .sendDone s g ∈ f :: h)
    (hwit : ∀ p ∈ e'.flushDecision, p.shutdownComplete →
      (∃ q ∈ e.flushDecision, q.shutdownComplete) ∨ ∃ g, .sendDone s g ∈ f :: h)
    (hdec : e'.flushDecision.length = Msquic.deciding s (f :: h)) : Tells s e' (f :: h) where
  epochs := fun r hr hm => by
    rw [hepoch]
    exact ht.epochs r hr ((List.mem_cons.mp hm).resolve_left fun e => hn.sent r e.symm)
  current := fun r hr hm => by
    subst hr
    have hm := (List.mem_cons.mp hm).resolve_left fun e => hn.sent r e.symm
    simpa [hepoch, Required, hn.sent, hn.cuts] using ht.current r rfl hm
  fin := fun hq => by
    rcases hq with hq | ⟨-, hd, hq⟩
    · exact absurd hq hn.accepts
    · rcases ht.fin hq with hq | hq
      · rcases hfin hq with hq | hq | hq
        · exact .inl hq
        · exact .inr hq
        · exact absurd hq hd
      · exact .inr (hloss hq)
  lostSend := fun r hr hl => by
    subst hr
    obtain ⟨-, hl | ⟨-, ⟨hl, -⟩ | ⟨hl, -⟩⟩⟩ := hl
    · exact hloss (ht.lostSend r rfl hl)
    · exact absurd hl (hn.returned r)
    · exact absurd hl hn.ends
  lostFin := fun hl => by
    obtain ⟨-, hl | ⟨-, hl⟩⟩ := hl
    · exact hloss (ht.lostFin hl)
    · exact absurd hl hn.ends
  withdrawn := fun ⟨g, hg, hc⟩ => by
    rcases List.mem_cons.mp hg with rfl | hg
    · exact absurd hc hn.cuts
    · rcases ht.withdrawn ⟨g, hg, hc⟩ with hs | hs
      · exact hsettling hs
      · exact .inr (settled_cons hn.cuts hs)
  observed := fun ha => by
    rcases hobs ha with ha | ha
    · exact (ht.observed ha).imp fun _ => List.mem_cons_of_mem _
    · exact ha
  witnessed := fun p hp hc => by
    rcases hwit p hp hc with ⟨q, hq, hqc⟩ | hg
    · exact (ht.witnessed q hq hqc).imp fun _ => List.mem_cons_of_mem _
    · exact hg
  deciding := hdec

/-- The moment a withdrawal is settled. -/
theorem quiet_of_settles (ho : e.flushAbortComplete → ∃ g, .sendDone s g ∈ h) (hi : Idle s e h)
    (hs : e.settles) : Quiet s h :=
  ⟨ho hs.2.1, hi hs.2.2.1⟩

theorem Quiet.settled (hq : Quiet s h) : Settled s h := by
  cases h with
  | nil =>
    obtain ⟨g, hg⟩ := hq.1
    cases hg
  | cons f h => exact .inl hq

theorem settle (ht : Tells s e h) (hi : Idle s e h) : Tells s e.settle h := by
  unfold Dstream.settle
  split
  · next hs =>
    exact { ht with withdrawn := fun _ => .inr (Quiet.settled (quiet_of_settles ht.observed hi hs)) }
  · exact ht

/-- A supersession: whatever was lost before is not required any more. -/
theorem cut (hf : f.cuts s) (hsent : ∀ r, f ≠ .sent r) (hacc : ¬ f.acceptsFin s)
    (hep : ∀ r, r.ds = s → .sent r ∈ h → r.flushEpoch ≤ e.flushEpoch)
    (hobs : e.flushAbortComplete → ∃ g, .sendDone s g ∈ h)
    (hwit : ∀ p ∈ e.flushDecision, p.shutdownComplete → ∃ g, .sendDone s g ∈ h)
    (hdec : e.flushDecision.length = Msquic.deciding s (f :: h)) (hi : Idle s e h) :
    Tells s e.withdraw (f :: h) := by
  have hw : Tells s { e with
      flushEpoch := e.flushEpoch + 1
      flushRequiredSends := 0
      flushFin := false
      flushSettling := true } (f :: h) :=
    { epochs := fun r hr hm => Nat.le_succ_of_le
        (hep r hr ((List.mem_cons.mp hm).resolve_left fun e => hsent r e.symm))
      current := fun r hr hm => by
        subst hr
        have hle := hep r rfl ((List.mem_cons.mp hm).resolve_left fun e => hsent r e.symm)
        simp only [Required, hsent, hf, not_true_eq_false, false_and, or_false, iff_false]
        omega
      fin := fun hq => by
        rcases hq with hq | ⟨hq, -⟩
        · exact absurd hq hacc
        · exact absurd hf hq
      lostSend := fun r hr hl => by
        subst hr
        exact absurd hf hl.1
      lostFin := fun hl => absurd hf hl.1
      withdrawn := fun _ => .inl rfl
      observed := fun ha => (hobs ha).imp fun _ => List.mem_cons_of_mem _
      witnessed := fun p hp hc => (hwit p hp hc).imp fun _ => List.mem_cons_of_mem _
      deciding := hdec }
  exact hw.settle (hi.cons hsent rfl)

theorem began (ht : Tells s e h) :
    Tells s { e with flushDecision := {} :: e.flushDecision } (.began s :: h) := by
  refine ht.neutral ⟨by simp [Fact.acceptsFin], by simp, by simp [Fact.cuts], by simp [Fact.ends],
    by simp⟩ rfl .inl ?_ .inl .inl ?_ ?_
  · simp [Dstream.loss]
  · intro p hp hc
    rcases List.mem_cons.mp hp with rfl | hp
    · cases hc
    · exact .inl ⟨p, hp, hc⟩
  · simp [Msquic.deciding, ht.deciding]

/-- An application cancellation was accepted. -/
theorem accepted {p : Decision} {ps : List Decision} {ac : Bool} (ht : Tells s e h)
    (hi : Idle s e h) (hd : e.flushDecision = p :: ps)
    (hac : ac → e.flushAbortComplete ∨ p.shutdownComplete) :
    Tells s (Dstream.withdraw { e with flushDecision := ps, flushAbortComplete := ac })
      (.decided s .accepted :: h) := by
  refine cut rfl (by simp) (by simp [Fact.acceptsFin]) ht.epochs (fun ha => ?_)
    (fun q hq => ht.witnessed q (hd ▸ List.mem_cons_of_mem _ hq)) ?_ hi
  · rcases hac ha with ha | ha
    · exact ht.observed ha
    · exact ht.witnessed p (hd ▸ List.mem_cons_self) ha
  · have := ht.deciding
    simp only [hd, List.length_cons] at this
    simp [Msquic.deciding, ← this]

/-- The peer stopped a WT stream. -/
theorem stopped (ht : Tells s e h) (hi : Idle s e h) :
    Tells s e.withdraw (.stopped s true :: h) :=
  cut rfl (by simp) (by simp [Fact.acceptsFin]) ht.epochs ht.observed ht.witnessed ht.deciding hi

/-- An application cancellation was refused: what it saw get lost passes to the enclosing one. -/
theorem refused {p : Decision} {ps : List Decision} (ht : Tells s e h)
    (hd : e.flushDecision = p :: ps) (hloss : p.loss → ps ≠ []) :
    Tells s (if p.loss then Dstream.cancelLoss { e with flushDecision := ps }
      else { e with flushDecision := ps }) (.decided s .refused :: h) := by
  have hlen : ps.length = Msquic.deciding s (.decided s .refused :: h) := by
    have := ht.deciding
    simp only [hd, List.length_cons] at this
    simp [Msquic.deciding, ← this]
  have hn : Neutral s (.decided s .refused) :=
    ⟨by simp [Fact.acceptsFin], by simp, by simp [Fact.cuts], by simp [Fact.ends], by simp⟩
  split
  · next hp =>
    obtain ⟨q, qs, rfl⟩ := List.exists_cons_of_ne_nil (hloss hp)
    refine ht.neutral hn rfl .inl (fun _ => Dstream.loss_cancelLoss (by simp)) .inl .inl ?_ ?_
    · intro k hk hc
      rcases List.mem_cons.mp hk with rfl | hk
      · exact .inl ⟨q, by simp [hd], hc⟩
      · exact .inl ⟨k, by simp [hd, hk], hc⟩
    · simpa [Dstream.cancelLoss] using hlen
  · next hp =>
    refine ht.neutral hn rfl .inl (fun hl => ?_) .inl .inl ?_ hlen
    · simpa [Dstream.loss, hd, hp] using hl
    · exact fun k hk hc => .inl ⟨k, hd ▸ List.mem_cons_of_mem _ hk, hc⟩

/-- The send side ended while nothing was owed. -/
theorem ended (ht : Tells s e h) (ho : Owes s e h) (hsent : ∀ r, f ≠ .sent r)
    (hret : ∀ r, f ≠ .returned r true) (hacc : ¬ f.acceptsFin s) (hcut : ¬ f.cuts s)
    (hreq : e.flushRequiredSends = 0) (hfin : e.flushFin = false)
    (hdec : Msquic.deciding s (f :: h) = Msquic.deciding s h) : Tells s e (f :: h) where
  epochs := fun r hr hm =>
    ht.epochs r hr ((List.mem_cons.mp hm).resolve_left fun e => hsent r e.symm)
  current := fun r hr hm => by
    subst hr
    have hm := (List.mem_cons.mp hm).resolve_left fun e => hsent r e.symm
    simpa [Required, hsent, hcut] using ht.current r rfl hm
  fin := fun hq => by
    rcases hq with hq | ⟨-, -, hq⟩
    · exact absurd hq hacc
    · exact ht.fin hq
  lostSend := fun r hr hl => by
    subst hr
    obtain ⟨-, hl | ⟨hq, ⟨hl, -⟩ | ⟨-, hb, hr⟩⟩⟩ := hl
    · exact ht.lostSend r rfl hl
    · exact absurd hl (hret r)
    · exact absurd hreq (ho r rfl hq hb hr)
  lostFin := fun hl => by
    obtain ⟨-, hl | ⟨hq, -⟩⟩ := hl
    · exact ht.lostFin hl
    · rcases ht.fin hq with hq | hq
      · simp [hfin] at hq
      · exact hq
  withdrawn := fun ⟨g, hg, hc⟩ => by
    rcases List.mem_cons.mp hg with rfl | hg
    · exact absurd hc hcut
    · exact (ht.withdrawn ⟨g, hg, hc⟩).imp id (settled_cons hcut)
  observed := fun ha => (ht.observed ha).imp fun _ => List.mem_cons_of_mem _
  witnessed := fun p hp hc => (ht.witnessed p hp hc).imp fun _ => List.mem_cons_of_mem _
  deciding := ht.deciding.trans hdec.symm

/-- A completed send shutdown testifies to every cancellation under way. -/
theorem evidence (ht : Tells s e (f :: h)) (hf : ∃ g, f = .sendDone s g) (hi : Idle s e (f :: h)) :
    Tells s e.evidence (f :: h) := by
  obtain ⟨g, rfl⟩ := hf
  have hloss : ∀ l : List Decision, (l.map fun p : Decision =>
      { p with shutdownComplete := true }).any (·.loss) = l.any (·.loss) := fun l => by
    simp [Function.comp_def]
  have hmap : Tells s { e with
      flushDecision := e.flushDecision.map fun p : Decision => { p with shutdownComplete := true } }
      (.sendDone s g :: h) :=
    { epochs := ht.epochs
      current := ht.current
      fin := by simpa only [Dstream.loss, hloss] using ht.fin
      lostSend := by simpa only [Dstream.loss, hloss] using ht.lostSend
      lostFin := by simpa only [Dstream.loss, hloss] using ht.lostFin
      withdrawn := ht.withdrawn
      observed := ht.observed
      witnessed := fun _ _ _ => ⟨g, List.mem_cons_self⟩
      deciding := by simpa using ht.deciding }
  unfold Dstream.evidence
  dsimp only
  split
  · refine settle ?_ hi
    exact { hmap with observed := fun _ => ⟨g, List.mem_cons_self⟩ }
  · exact hmap

/-- The send side shut down gracefully. -/
theorem graceful (ht : Tells s e h) : Tells s e.dropFin (.sendDone s true :: h) :=
  ht.neutral ⟨by simp [Fact.acceptsFin], by simp, by simp [Fact.cuts], by simp [Fact.ends], by simp⟩
    rfl (fun _ => .inr (.inr rfl)) id .inl .inl (fun p hp hc => .inl ⟨p, hp, hc⟩)
    (by simpa [Dstream.dropFin, Msquic.deciding] using ht.deciding)

/-- A lost obligation is on record with a cancellation under way. -/
theorem aborted (ht : Tells s e h) (hl : e'.loss) (hlen : e'.flushDecision.length = Msquic.deciding s (f :: h))
    (hepoch : e'.flushEpoch = e.flushEpoch) (hset : e'.flushSettling = e.flushSettling)
    (hobs : e'.flushAbortComplete = e.flushAbortComplete)
    (hwit : ∀ p ∈ e'.flushDecision, p.shutdownComplete → ∃ q ∈ e.flushDecision, q.shutdownComplete)
    (hsent : ∀ r, f ≠ .sent r) (hcut : ¬ f.cuts s) : Tells s e' (f :: h) where
  epochs := fun r hr hm => by
    rw [hepoch]
    exact ht.epochs r hr ((List.mem_cons.mp hm).resolve_left fun e => hsent r e.symm)
  current := fun r hr hm => by
    subst hr
    have hm := (List.mem_cons.mp hm).resolve_left fun e => hsent r e.symm
    simpa [hepoch, Required, hsent, hcut] using ht.current r rfl hm
  fin := fun _ => .inr hl
  lostSend := fun _ _ _ => hl
  lostFin := fun _ => hl
  withdrawn := fun ⟨g, hg, hc⟩ => by
    rcases List.mem_cons.mp hg with rfl | hg
    · exact absurd hc hcut
    · rw [hset]
      exact (ht.withdrawn ⟨g, hg, hc⟩).imp id (settled_cons hcut)
  observed := fun ha => (ht.observed (hobs ▸ ha)).imp fun _ => List.mem_cons_of_mem _
  witnessed := fun p hp hc => by
    obtain ⟨q, hq, hqc⟩ := hwit p hp hc
    exact (ht.witnessed q hq hqc).imp fun _ => List.mem_cons_of_mem _
  deciding := hlen

/-- A FIN was accepted, with or without bytes. -/
theorem submitted (ht : Tells s e h) (hne : f.ds = s) (hdone : ∀ g, f ≠ .sendDone s g)
    (hcut : ¬ f.cuts s) (hend : ¬ f.ends s) (hret : ∀ r, f ≠ .returned r true)
    (hnew : ∀ r, f = .sent r → r.flushEpoch = e.flushEpoch ∧ .sent r ∉ h)
    (hepoch : e'.flushEpoch = e.flushEpoch) (hfin : f.acceptsFin s ∨ e.flushFin → e'.flushFin)
    (hset : e'.flushSettling = e.flushSettling)
    (hobs : e'.flushAbortComplete = e.flushAbortComplete)
    (hdec : e'.flushDecision = e.flushDecision)
    (hlen : e.flushDecision.length = Msquic.deciding s (f :: h)) : Tells s e' (f :: h) where
  epochs := fun r hr hm => by
    rw [hepoch]
    rcases List.mem_cons.mp hm with hm | hm
    · exact Nat.le_of_eq (hnew r hm.symm).1
    · exact ht.epochs r hr hm
  current := fun r hr hm => by
    subst hr
    rw [hepoch]
    rcases List.mem_cons.mp hm with rfl | hm
    · simp [Required, (hnew r rfl).1]
    · have hrf : f ≠ .sent r := fun e => (hnew r e).2 hm
      simpa [Required, hrf, hcut] using ht.current r rfl hm
  fin := fun hq => by
    rcases hq with hq | ⟨-, -, hq⟩
    · exact .inl (hfin (.inl hq))
    · rcases ht.fin hq with hq | hq
      · exact .inl (hfin (.inr hq))
      · exact .inr (by simpa [Dstream.loss, hdec] using hq)
  lostSend := fun r hr hl => by
    subst hr
    obtain ⟨-, hl | ⟨-, ⟨hl, -⟩ | ⟨hl, -⟩⟩⟩ := hl
    · simpa [Dstream.loss, hdec] using ht.lostSend r rfl hl
    · exact absurd hl (hret r)
    · exact absurd hl hend
  lostFin := fun hl => by
    obtain ⟨-, hl | ⟨-, hl⟩⟩ := hl
    · simpa [Dstream.loss, hdec] using ht.lostFin hl
    · exact absurd hl hend
  withdrawn := fun ⟨g, hg, hc⟩ => by
    rcases List.mem_cons.mp hg with rfl | hg
    · exact absurd hc hcut
    · rw [hset]
      exact (ht.withdrawn ⟨g, hg, hc⟩).imp id (settled_cons hcut)
  observed := fun ha => (ht.observed (hobs ▸ ha)).imp fun _ => List.mem_cons_of_mem _
  witnessed := fun p hp hc => (ht.witnessed p (hdec ▸ hp) hc).imp fun _ => List.mem_cons_of_mem _
  deciding := by rw [hdec]; exact hlen

/-- A record came back that lost nothing. -/
theorem returned {canceled : Bool} (ht : Tells s e h) (hr : r.ds = s)
    (hok : canceled → r.flushEpoch = e.flushEpoch → (r.flushBytes ∨ r.flushFin) → False)
    (hm : .sent r ∈ h) : Tells s e (.returned r canceled :: h) where
  epochs := fun q hq hm => ht.epochs q hq ((List.mem_cons.mp hm).resolve_left (by simp))
  current := fun q hq hm => by
    subst hq
    have hm := (List.mem_cons.mp hm).resolve_left (by simp)
    simpa [Required, Fact.cuts] using ht.current q rfl hm
  fin := fun hq => by
    rcases hq with hq | ⟨-, -, hq⟩
    · cases hq
    · exact ht.fin hq
  lostSend := fun q hq hl => by
    subst hq
    obtain ⟨-, hl | ⟨hreq, ⟨hl, hb⟩ | ⟨hl, -⟩⟩⟩ := hl
    · exact ht.lostSend q rfl hl
    · cases hl
      exact (hok rfl ((ht.current _ rfl hm).mpr hreq) hb).elim
    · cases hl
  lostFin := fun hl => by
    obtain ⟨-, hl | ⟨-, hl⟩⟩ := hl
    · exact ht.lostFin hl
    · cases hl
  withdrawn := fun ⟨g, hg, hc⟩ => by
    rcases List.mem_cons.mp hg with rfl | hg
    · cases hc
    · exact (ht.withdrawn ⟨g, hg, hc⟩).imp id (settled_cons (by simp [Fact.cuts]))
  observed := fun ha => (ht.observed ha).imp fun _ => List.mem_cons_of_mem _
  witnessed := fun p hp hc => (ht.witnessed p hp hc).imp fun _ => List.mem_cons_of_mem _
  deciding := ht.deciding

end Tells
end Wtquic.Msquic
