-- SUMMARY: What the flush functions do to one stream, losses included.
import Wtquic.Msquic.FlushProbe

namespace Wtquic.Msquic

/-! # Shifts

A turn of one stream as the counters see it. Unlike the account of a stream's history it goes on
when output is lost: the failure of a flush is not among the things that are counted. -/

variable {s : Nat} {l l' : History} {d d' d'' u : Driver}

/-- Stream `s` is turned, and neither a record nor a FIN is submitted or given back. -/
structure Shift (s : Nat) (l : History) (d d' : Driver) : Prop where
  turn : Turn s (d'.stream s) l d d'
  pendingSends : d'.pendingSends = d.pendingSends
  flushSends : (d'.stream s).flushSends = (d.stream s).flushSends
  sendRefs : (d'.stream s).sendRefs = (d.stream s).sendRefs
  collected : (d'.stream s).collected = (d.stream s).collected
  /-- A stream that begins an epoch requires nothing. -/
  epoch : (d'.stream s).flushEpoch = (d.stream s).flushEpoch ∧
      (d'.stream s).flushRequiredSends = (d.stream s).flushRequiredSends ∨
    (d.stream s).flushEpoch < (d'.stream s).flushEpoch ∧ (d'.stream s).flushRequiredSends = 0
  fin : (d'.stream s).flushFin → (d.stream s).flushFin
  done : (d'.stream s).shutdownComplete → (d.stream s).shutdownComplete ∨ .gone s ∈ l
  gone : .gone s ∈ l → (d'.stream s).flushFin = false
  facts : ∀ f ∈ l, f.ds = s ∧ ¬ f.acceptsFin s

namespace Shift

theorem other (h : Shift s l d d') {t : Nat} (ht : t ≠ s) : d'.stream t = d.stream t := by
  rw [h.turn.stream, Function.update_of_ne ht]

theorem covers (h : Shift s l d d') (hc : Covers s d) : Covers s d' := h.turn.covers hc

theorem trans (h : Shift s l d d') (h' : Shift s l' d' d'') : Shift s (l' ++ l) d d'' where
  turn := h.turn.trans h'.turn
  pendingSends := h'.pendingSends.trans h.pendingSends
  flushSends := h'.flushSends.trans h.flushSends
  sendRefs := h'.sendRefs.trans h.sendRefs
  collected := h'.collected.trans h.collected
  epoch := by
    have h1 := h.epoch
    have h2 := h'.epoch
    omega
  fin := fun hf => h.fin (h'.fin hf)
  done := fun hd => by
    obtain hd | hd := h'.done hd
    · exact (h.done hd).imp_right (List.mem_append_right l')
    · exact .inr (List.mem_append_left l hd)
  gone := fun hg => by
    obtain hg | hg := List.mem_append.mp hg
    · exact h'.gone hg
    · cases hf : (d''.stream s).flushFin with
      | false => rfl
      | true =>
        have hfin := h'.fin hf
        rw [h.gone hg] at hfin
        cases hfin
  facts := fun f hf => by
    obtain hf | hf := List.mem_append.mp hf
    · exact h'.facts f hf
    · exact h.facts f hf

/-- A turn that leaves alone what it says here. -/
theorem of_turn {e : Dstream} (h : Turn s e [] d d') (hpending : d'.pendingSends = d.pendingSends)
    (hsends : e.flushSends = (d.stream s).flushSends)
    (hrefs : e.sendRefs = (d.stream s).sendRefs)
    (hcollected : e.collected = (d.stream s).collected)
    (hepoch : e.flushEpoch = (d.stream s).flushEpoch ∧
        e.flushRequiredSends = (d.stream s).flushRequiredSends ∨
      (d.stream s).flushEpoch < e.flushEpoch ∧ e.flushRequiredSends = 0)
    (hfin : e.flushFin → (d.stream s).flushFin)
    (hdone : e.shutdownComplete = (d.stream s).shutdownComplete) : Shift s [] d d' := by
  have he := h.stream_self
  exact
    { turn := by rwa [he]
      pendingSends := hpending
      flushSends := by rwa [he]
      sendRefs := by rwa [he]
      collected := by rwa [he]
      epoch := by rwa [he]
      fin := by rwa [he]
      done := fun hd => by
        rw [he, hdone] at hd
        exact .inl hd
      gone := nofun
      facts := nofun }

theorem refl (s : Nat) (d : Driver) : Shift s [] d d :=
  of_turn Turn.refl rfl rfl rfl rfl (.inl ⟨rfl, rfl⟩) id rfl

/-- A write that no counter notices. -/
theorem modDs {f : Dstream → Dstream}
    (hfin : (f (d.stream s)).flushFin = (d.stream s).flushFin)
    (hset : (f (d.stream s)).flushSettling = (d.stream s).flushSettling)
    (hdec : (f (d.stream s)).flushDecision.length = (d.stream s).flushDecision.length)
    (hsends : (f (d.stream s)).flushSends = (d.stream s).flushSends)
    (hrefs : (f (d.stream s)).sendRefs = (d.stream s).sendRefs)
    (hcollected : (f (d.stream s)).collected = (d.stream s).collected)
    (hepoch : (f (d.stream s)).flushEpoch = (d.stream s).flushEpoch)
    (hreq : (f (d.stream s)).flushRequiredSends = (d.stream s).flushRequiredSends)
    (hdone : (f (d.stream s)).shutdownComplete = (d.stream s).shutdownComplete) :
    Shift s [] d (d.modDs s f) :=
  of_turn (Turn.modDs hfin hset hdec) rfl hsends hrefs hcollected (.inl ⟨hepoch, hreq⟩)
    (fun h => by rwa [hfin] at h) hdone

/-- A fact that neither accepts a FIN nor ends the stream. -/
theorem record (h : Shift s [] d d') {f : Fact} (hds : f.ds = s) (hacc : ¬ f.acceptsFin s)
    (hgone : f ≠ .gone s) : Shift s [f] d (d'.record f) where
  turn := h.turn.record f
  pendingSends := h.pendingSends
  flushSends := h.flushSends
  sendRefs := h.sendRefs
  collected := h.collected
  epoch := h.epoch
  fin := h.fin
  done := fun hd => .inl ((h.done hd).resolve_right List.not_mem_nil)
  gone := fun hg => absurd (List.mem_singleton.mp hg).symm hgone
  facts := fun g hg => by
    rw [List.mem_singleton.mp hg]
    exact ⟨hds, hacc⟩

/-- What is not read by the counters may change afterwards. -/
theorem like (h : Shift s l d d') (hledger : d''.ledger = d'.ledger)
    (hframes : d''.frames = d'.frames) (hpending : d''.pendingSends = d'.pendingSends) :
    Shift s l d d'' := by
  have hstream : d''.stream = d'.stream := (congrArg Driver.stream hledger :)
  have hlog : d''.log = d'.log := (congrArg Driver.log hledger :)
  have hnextDs : d''.nextDs = d'.nextDs := (congrArg Driver.nextDs hledger :)
  have hnextRec : d''.nextRec = d'.nextRec := (congrArg Driver.nextRec hledger :)
  have hborrowed : d''.borrowed = d'.borrowed := (congrArg Driver.borrowed hledger :)
  have hsends : d''.flushSends = d'.flushSends := (congrArg Driver.flushSends hledger :)
  have hfins : d''.flushFins = d'.flushFins := (congrArg Driver.flushFins hledger :)
  have hsets : d''.flushSettlements = d'.flushSettlements :=
    (congrArg Driver.flushSettlements hledger :)
  have hdecs : d''.flushDecisions = d'.flushDecisions := (congrArg Driver.flushDecisions hledger :)
  exact
    { turn :=
        { stream := by rw [hstream]; exact h.turn.stream
          log := hlog.trans h.turn.log
          nextDs := hnextDs.trans h.turn.nextDs
          nextRec := hnextRec.trans h.turn.nextRec
          borrowed := hborrowed.trans h.turn.borrowed
          frames := hframes.trans h.turn.frames
          flushSends := hsends.trans h.turn.flushSends
          fins := by rw [hfins, hstream]; exact h.turn.fins
          settlements := by rw [hsets, hstream]; exact h.turn.settlements
          decisions := by rw [hdecs, hstream]; exact h.turn.decisions }
      pendingSends := hpending.trans h.pendingSends
      flushSends := by rw [hstream]; exact h.flushSends
      sendRefs := by rw [hstream]; exact h.sendRefs
      collected := by rw [hstream]; exact h.collected
      epoch := by rw [hstream]; exact h.epoch
      fin := by rw [hstream]; exact h.fin
      done := by rw [hstream]; exact h.done
      gone := by rw [hstream]; exact h.gone
      facts := h.facts }

theorem report (h : Shift s l d d') (x : Report) : Shift s l d (d'.report x) := by
  unfold Driver.report
  split
  · exact h.like rfl rfl rfl
  · exact h

theorem reportFor (h : Shift s l d d') (t : Nat) (x : Report) : Shift s l d (d'.reportFor t x) := by
  unfold Driver.reportFor
  split
  · exact h.report x
  · exact h

/-! ## Flush bookkeeping -/

theorem flushFail (h : Shift s l d d') : Shift s l d d'.flushFail := h.like rfl rfl rfl

theorem failPending (h : Shift s l d d') : Shift s l d d'.failPending := by
  unfold Driver.failPending
  split
  · exact h.flushFail
  · exact h

theorem dropFin (hc : Covers s d) : Shift s [] d (d.dropFin s) := by
  refine of_turn (Turn.dropFin hc) ?_ rfl rfl rfl (.inl ⟨rfl, rfl⟩) nofun rfl
  unfold Driver.dropFin
  split <;> rfl

theorem dropFin_fin (hc : Covers s d) : ((d.dropFin s).stream s).flushFin = false := by
  rw [(Turn.dropFin hc).stream_self]
  rfl

/-- Ending a settlement writes `flush_settling` only. -/
theorem settle_eq (e : Dstream) : e.settle = { e with flushSettling := e.settle.flushSettling } := by
  unfold Dstream.settle
  split <;> rfl

theorem settle (hc : Covers s d) : Shift s [] d (d.flushSettle s) := by
  have hturn := Turn.settle hc
  rw [settle_eq] at hturn
  refine of_turn hturn ?_ rfl rfl rfl (.inl ⟨rfl, rfl⟩) id rfl
  unfold Driver.flushSettle
  dsimp only
  split <;> rfl

theorem startSettling : Shift s [] d (d.startSettling s) := by
  refine of_turn Turn.startSettling ?_ rfl rfl rfl (.inl ⟨rfl, rfl⟩) id rfl
  unfold Driver.startSettling
  split <;> rfl

theorem withdraw (hc : Covers s d) : Shift s [] d (d.flushWithdraw s) := by
  unfold Driver.flushWithdraw
  split
  · exact (refl s d).flushFail
  · have h1 : Shift s [] d (d.modDs s fun e =>
        { e with flushEpoch := e.flushEpoch + 1, flushRequiredSends := 0 }) :=
      of_turn (Turn.modDs rfl rfl rfl) rfl rfl rfl rfl (.inr ⟨Nat.lt_succ_self _, rfl⟩) id rfl
    have h2 := h1.trans (dropFin (h1.covers hc))
    have h3 := h2.trans startSettling
    exact h3.trans (settle (h3.covers hc))

theorem cancelLoss : Shift s [] d (d.flushCancelLoss s) := by
  unfold Driver.flushCancelLoss
  split
  · exact (refl s d).flushFail
  · next p ps hp => exact modDs rfl rfl (by simp [hp]) rfl rfl rfl rfl rfl rfl

theorem discard (hc : Covers s d) : Shift s [] d (d.flushDiscard s) := by
  unfold Driver.flushDiscard
  dsimp only
  split
  · have hfail : Shift s [] d d.flushFail := (refl s d).flushFail
    exact hfail.trans (dropFin (hfail.covers hc))
  · exact dropFin hc

theorem discard_fin (hc : Covers s d) : ((d.flushDiscard s).stream s).flushFin = false := by
  unfold Driver.flushDiscard
  dsimp only
  split
  · exact dropFin_fin ((refl s d).flushFail.covers hc)
  · exact dropFin_fin hc

/-- The stream is gone, and its FIN with it. -/
theorem discardGone (hc : Covers s d) : Shift s [.gone s] d ((d.flushDiscard s).record (.gone s)) where
  turn := (discard hc).turn.record _
  pendingSends := (discard hc).pendingSends
  flushSends := (discard hc).flushSends
  sendRefs := (discard hc).sendRefs
  collected := (discard hc).collected
  epoch := (discard hc).epoch
  fin := (discard hc).fin
  done := fun _ => .inr List.mem_cons_self
  gone := fun _ => discard_fin hc
  facts := fun f hf => by
    rw [List.mem_singleton.mp hf]
    exact ⟨rfl, id⟩

/-- A gone stream may be marked as such. -/
theorem modDsGone (h : Shift s [.gone s] d d') {f : Dstream → Dstream}
    (hfin : (f (d'.stream s)).flushFin = (d'.stream s).flushFin)
    (hset : (f (d'.stream s)).flushSettling = (d'.stream s).flushSettling)
    (hdec : (f (d'.stream s)).flushDecision.length = (d'.stream s).flushDecision.length)
    (hsends : (f (d'.stream s)).flushSends = (d'.stream s).flushSends)
    (hrefs : (f (d'.stream s)).sendRefs = (d'.stream s).sendRefs)
    (hcollected : (f (d'.stream s)).collected = (d'.stream s).collected)
    (hepoch : (f (d'.stream s)).flushEpoch = (d'.stream s).flushEpoch)
    (hreq : (f (d'.stream s)).flushRequiredSends = (d'.stream s).flushRequiredSends) :
    Shift s [.gone s] d (d'.modDs s f) := by
  have hturn := h.turn.trans (Turn.modDs hfin hset hdec)
  have hself := hturn.stream_self
  exact
    { turn := by rwa [hself]
      pendingSends := h.pendingSends
      flushSends := by rw [hself, hsends, h.flushSends]
      sendRefs := by rw [hself, hrefs, h.sendRefs]
      collected := by rw [hself, hcollected, h.collected]
      epoch := by
        rw [hself, hepoch, hreq]
        exact h.epoch
      fin := by
        rw [hself, hfin]
        exact h.fin
      done := fun _ => .inr List.mem_cons_self
      gone := by
        rw [hself, hfin]
        exact h.gone
      facts := h.facts }

/-- What a canceled completion loses. -/
theorem lossOf {r : SendRec} {canceled : Bool} (hc : Covers r.ds d) :
    Shift r.ds [] d (Good.lossOf r canceled d) := by
  have hmark : Shift r.ds [] d (if canceled && (r.flushBytes || r.flushFin) then
      d.modDs r.ds fun e => { e with flushOutputCanceled := true } else d) := by
    split
    · exact modDs rfl rfl rfl rfl rfl rfl rfl rfl rfl
    · exact refl r.ds d
  unfold Good.lossOf
  dsimp only
  generalize (if canceled && (r.flushBytes || r.flushFin) then
    d.modDs r.ds fun e => { e with flushOutputCanceled := true } else d) = u at hmark ⊢
  split
  · have hloss := hmark.trans cancelLoss
    split
    · exact hloss.trans (dropFin (hloss.covers hc))
    · exact hloss
  · exact hmark

/-! ## Cancellations -/

theorem decide (hc : Covers s d) (ok sendAccepted : Bool) :
    ∃ l, Shift s l d (d.decide s ok sendAccepted) := by
  unfold Driver.decide
  cases hd : (d.stream s).flushDecision with
  | nil => exact ⟨[], refl s d⟩
  | cons p ps =>
    dsimp only
    have hpos : 1 ≤ d.flushDecisions := by
      have hle := hc.decisions
      rw [hd, List.length_cons] at hle
      omega
    have hpop : Shift s [] d
        { d.modDs s fun e => { e with flushDecision := ps }
          with flushDecisions := sizeDec d.flushDecisions } := by
      have hturn : Turn s { d.stream s with flushDecision := ps } [] d
          { d.modDs s fun e => { e with flushDecision := ps }
            with flushDecisions := sizeDec d.flushDecisions } := by
        refine ⟨rfl, rfl, rfl, rfl, rfl, rfl, rfl, rfl, rfl, ?_⟩
        simp only [sizeDec_of_pos hpos, hd, List.length_cons]
        omega
      exact of_turn hturn rfl rfl rfl rfl (.inl ⟨rfl, rfl⟩) id rfl
    generalize ({ d.modDs s fun e => { e with flushDecision := ps }
      with flushDecisions := sizeDec d.flushDecisions } : Driver) = u at hpop ⊢
    cases ok with
    | true =>
      have hseen : Shift s [] d (if p.shutdownComplete then
          u.modDs s fun e => { e with flushAbortComplete := true } else u) := by
        split
        · exact hpop.trans (modDs rfl rfl rfl rfl rfl rfl rfl rfl rfl)
        · exact hpop
      exact ⟨_, (hseen.trans (withdraw (hseen.covers hc))).record rfl id nofun⟩
    | false =>
      cases sendAccepted with
      | true => exact ⟨_, hpop.flushFail.record rfl id nofun⟩
      | false =>
        have hloss : Shift s [] d (if p.loss then u.flushCancelLoss s else u) := by
          split
          · exact hpop.trans cancelLoss
          · exact hpop
        exact ⟨_, hloss.record rfl id nofun⟩

theorem resolve (hc : Covers s d) (intent ok sendAccepted : Bool) :
    ∃ l, Shift s l d (d.resolve s intent ok sendAccepted) := by
  have hmain : ∃ l, Shift s l d (if intent then d.decide s ok sendAccepted
      else if sendAccepted then (d.flushDiscard s).record (.aborted s) else d) := by
    split
    · exact decide hc ok sendAccepted
    · split
      · exact ⟨_, (discard hc).record rfl id nofun⟩
      · exact ⟨_, refl s d⟩
  obtain ⟨l, hmain⟩ := hmain
  exact ⟨_, hmain.trans (settle (hmain.covers hc))⟩

/-- An application cancellation begins. -/
theorem began : Shift s [.began s] d
    ({ d.modDs s fun e => { e with flushDecision := {} :: e.flushDecision }
      with flushDecisions := d.flushDecisions + 1 }.record (.began s)) := by
  have hturn : Turn s { d.stream s with flushDecision := {} :: (d.stream s).flushDecision } [] d
      { d.modDs s fun e => { e with flushDecision := {} :: e.flushDecision }
        with flushDecisions := d.flushDecisions + 1 } := by
    refine ⟨rfl, rfl, rfl, rfl, rfl, rfl, rfl, rfl, rfl, ?_⟩
    rw [List.length_cons, Nat.add_right_comm, Nat.add_assoc]
  have hshift : Shift s [] d { d.modDs s fun e => { e with flushDecision := {} :: e.flushDecision }
      with flushDecisions := d.flushDecisions + 1 } :=
    of_turn hturn rfl rfl rfl rfl (.inl ⟨rfl, rfl⟩) id rfl
  exact hshift.record rfl id nofun

/-! ## Events -/

theorem peerReceiveAborted (hc : Covers s d) (answer : Bool) :
    ∃ l, Shift s l d (d.peerReceiveAborted s answer) := by
  have hmain : Shift s [] d (if Driver.flushIsWt (d.stream s) answer then d.flushWithdraw s
      else d.flushDiscard s) := by
    split
    · exact withdraw hc
    · exact discard hc
  unfold Driver.peerReceiveAborted
  dsimp only
  generalize (if Driver.flushIsWt (d.stream s) answer then d.flushWithdraw s
    else d.flushDiscard s) = u at hmain ⊢
  have hstopped := hmain.record (f := .stopped s (Driver.flushIsWt (d.stream s) answer)) rfl id nofun
  split
  · exact ⟨_, hstopped⟩
  · exact ⟨_, hstopped.reportFor s _⟩

theorem obligations (hc : Covers s d) (graceful : Bool) :
    Shift s [] d (d.sendShutdownObligations s graceful) := by
  unfold Driver.sendShutdownObligations
  dsimp only
  split
  · exact dropFin hc
  split
  · have hloss : Shift s [] d (d.flushCancelLoss s) := cancelLoss
    exact hloss.trans (dropFin (hloss.covers hc))
  · exact refl s d

theorem evidence (hc : Covers s d) : Shift s [] d (d.sendShutdownEvidence s) := by
  unfold Driver.sendShutdownEvidence
  dsimp only
  have h1 : Shift s [] d (d.modDs s fun e => { e with
      flushDecision := e.flushDecision.map fun p : Decision =>
        { p with shutdownComplete := true } }) :=
    modDs rfl rfl (by simp) rfl rfl rfl rfl rfl rfl
  split
  · have h2 := h1.trans (modDs (f := fun e => { e with flushAbortComplete := true })
      rfl rfl rfl rfl rfl rfl rfl rfl rfl)
    exact h2.trans (settle (h2.covers hc))
  · exact h1

theorem sendShutdownComplete (hc : Covers s d) (graceful : Bool) :
    ∃ l, Shift s l d (d.sendShutdownComplete s graceful) := by
  have h1 := obligations hc graceful
  have h2 := (h1.trans (evidence (h1.covers hc))).record (f := .sendDone s graceful) rfl id nofun
  unfold Driver.sendShutdownComplete
  dsimp only
  split
  · exact ⟨_, h2.trans (modDs rfl rfl rfl rfl rfl rfl rfl rfl rfl)⟩
  · exact ⟨_, h2.reportFor s _⟩

theorem detach (answer : Bool) : Shift s [] d (d.opDetach s answer) := by
  unfold Driver.opDetach
  split
  · exact modDs rfl rfl rfl rfl rfl rfl rfl rfl rfl
  · exact refl s d

theorem writableCheck : Shift s [] d (d.writableCheck s) := by
  unfold Driver.writableCheck
  dsimp only
  split
  · exact refl s d
  · exact (modDs rfl rfl rfl rfl rfl rfl rfl rfl rfl).report _

theorem completeTerminal : Shift s [] d (d.completeTerminal s) := by
  unfold Driver.completeTerminal
  dsimp only
  split
  · exact (modDs rfl rfl rfl rfl rfl rfl rfl rfl rfl).reportFor s _
  · exact refl s d

theorem shutdownComplete (hc : Covers s d) (appClose : Bool) :
    Shift s [.gone s] d (d.streamShutdownComplete s appClose) := by
  have hdone := (discardGone hc).modDsGone
    (f := fun e => { e with shutdownComplete := true, stream := e.stream && e.pooled && !appClose })
    rfl rfl rfl rfl rfl rfl rfl rfl
  unfold Driver.streamShutdownComplete
  dsimp only
  split
  · exact hdone.reportFor s _
  · exact hdone

end Shift
end Wtquic.Msquic
