-- SUMMARY: Completions and the end of streams keep the flush invariant; an OK probe means flushed, and loss is reported for ever.
import Wtquic.Msquic.FlushRun

namespace Wtquic.Msquic

variable {s : Nat} {d : Driver}

namespace Good

variable {r : SendRec}

/-! ### Completions -/

/-- How the borrowed records are counted before one comes back. -/
theorem countP_borrowed (hm : r ∈ d.borrowed) (p : SendRec → Bool) :
    d.borrowed.countP p = (d.borrowed.erase r).countP p + (if p r then 1 else 0) := by
  rw [(List.perm_cons_erase hm).countP_eq, List.countP_cons]

/-- The stream of a record that has come back. -/
def completed (r : SendRec) (required : Bool) (e : Dstream) : Dstream :=
  { e with
    flushSends := if r.flushBytes then sizeDec e.flushSends else e.flushSends
    flushRequiredSends :=
      if r.flushBytes && required then sizeDec e.flushRequiredSends else e.flushRequiredSends
    sendRefs := sizeDec e.sendRefs }

/-- A record came back, and its stream has been turned to say what that loses. -/
theorem comeBack {e : Dstream} {canceled : Bool} {x d' : Driver} (hg : Good d)
    (hm : r ∈ d.borrowed) (ht : Turn r.ds e [] d x) (hrefs : e.sendRefs = (d.stream r.ds).sendRefs)
    (hepoch : e.flushEpoch = (d.stream r.ds).flushEpoch)
    (hreq : e.flushRequiredSends = (d.stream r.ds).flushRequiredSends)
    (htell : Tells r.ds e (.returned r canceled :: d.log))
    (hstream : d'.stream = Function.update d.stream r.ds
      (completed r (r.flushEpoch == (d.stream r.ds).flushEpoch) e))
    (hlog : d'.log = .returned r canceled :: d.log) (hnext : d'.nextDs = d.nextDs)
    (hrec : d'.nextRec = d.nextRec) (hborrowed : d'.borrowed = d.borrowed.erase r)
    (hframes : d'.frames = d.frames)
    (hsends : d'.flushSends = if r.flushBytes then sizeDec d.flushSends else d.flushSends)
    (hfins : d'.flushFins = x.flushFins) (hsets : d'.flushSettlements = x.flushSettlements)
    (hdecs : d'.flushDecisions = x.flushDecisions) : Good d' := by
  have hsent := ((hg.borrowed r).mp hm).1
  have hlt := (hg.fresh r hsent).2
  have hes : ∀ t, d'.stream t = if t = r.ds
      then completed r (r.flushEpoch == (d.stream r.ds).flushEpoch) e else d.stream t := fun t => by
    rw [hstream, Function.update_apply]
  have htotal : ∀ {g : Dstream → Nat} {n n' : Nat}, n = d.total g →
      n' + g (d.stream r.ds) = n + g e →
      g (completed r (r.flushEpoch == (d.stream r.ds).flushEpoch) e) = g e → n' = d'.total g := by
    intro g n n' hn hsum hge
    have hall := sum_update hlt (completed r (r.flushEpoch == (d.stream r.ds).flushEpoch) e) g
      (f := d.stream)
    rw [Driver.total, hstream, hnext]
    rw [Driver.total] at hn
    omega
  have hret : ∀ q, Returned q d'.log ↔ q = r ∨ Returned q d.log := fun q => by
    rw [hlog]
    constructor
    · rintro ⟨c, hc⟩
      rcases List.mem_cons.mp hc with hc | hc
      · cases hc
        exact .inl rfl
      · exact .inr ⟨c, hc⟩
    · rintro (rfl | hq)
      · exact ⟨canceled, List.mem_cons_self⟩
      · exact hq.cons _
  have hlogged : ∀ q, .sent q ∈ d'.log ↔ .sent q ∈ d.log := fun q => by rw [hlog]; simp
  refine
    { tells := fun t => ?_
      blank := fun t hle => ?_
      fins := htotal hg.fins (by rw [hfins]; exact ht.fins) rfl
      settlements := htotal hg.settlements (by rw [hsets]; exact ht.settlements) rfl
      decisions := htotal hg.decisions (by rw [hdecs]; exact ht.decisions) rfl
      sends := ?_
      refs := fun t => ?_
      required := fun t => ?_
      borrowed := fun q => ?_
      nodup := by rw [hborrowed]; exact hg.nodup.erase r
      ordered := ?_
      fresh := fun q hq => by rw [hrec, hnext]; exact hg.fresh q ((hlogged q).mp hq)
      framed := by rw [hframes, hnext]; exact hg.framed }
  · rw [hes]
    split
    · next h =>
      rw [h, hlog]
      exact htell.same ⟨rfl, rfl, rfl, rfl, rfl⟩
    · next h =>
      rw [hlog]
      exact (hg.tells t).other (Ne.symm h)
  · rw [hnext] at hle
    rw [hes, if_neg (by omega)]
    exact hg.blank t hle
  · have hcount := countP_borrowed hm (·.flushBytes)
    rw [← hg.sends] at hcount
    rw [hsends, hborrowed]
    split
    · next hb =>
      rw [if_pos hb] at hcount
      rw [hcount, Driver.sizeDec_succ]
    · next hb =>
      rw [if_neg hb] at hcount
      exact hcount
  · have hcount := countP_borrowed hm (·.ds == t)
    rw [← hg.refs t] at hcount
    rw [hes, hborrowed]
    split
    · next h =>
      subst h
      rw [if_pos (by simp), ← hrefs] at hcount
      show sizeDec e.sendRefs = _
      rw [hcount, Driver.sizeDec_succ]
    · next h =>
      rw [if_neg (by simpa using Ne.symm h)] at hcount
      exact hcount
  · have hcount := countP_borrowed hm fun q =>
      q.flushBytes && q.ds == t && q.flushEpoch == (d.stream t).flushEpoch
    rw [← hg.required t] at hcount
    rw [hes, hborrowed]
    split
    · next h =>
      subst h
      simp only [completed, hepoch]
      rw [← hreq] at hcount
      simp only [beq_self_eq_true, Bool.and_true] at hcount
      split at hcount
      · next hb =>
        rw [if_pos hb, hcount, Driver.sizeDec_succ]
      · next hb =>
        rw [if_neg hb]
        exact hcount
    · next h =>
      rw [if_neg (by simp [Ne.symm h])] at hcount
      exact hcount
  · rw [hborrowed, hg.nodup.mem_erase_iff, hg.borrowed, hlogged, hret, not_or]
    exact and_left_comm
  · rw [hlog]
    refine ⟨by simp, fun q c hq => ?_, hg.ordered⟩
    cases hq
    exact hsent

/-- What follows the report of a completion. -/
theorem push (hg : Good d) (f : Frame) (hf : ∀ t, f.ds = some t → t < d.nextDs) :
    Good (d.push f) :=
  hg.like rfl fun g hm => by
    rcases List.mem_cons.mp hm with rfl | hm
    · exact .inr hf
    · exact .inl hm

theorem sendComplete (hg : Good d) (hm : r ∈ d.borrowed) (canceled : Bool)
    (hf : (d.sendComplete r canceled).flushFailed = false) : Good (d.sendComplete r canceled) := by
  have hlt := (hg.fresh r ((hg.borrowed r).mp hm).1).2
  have hloss : (lossOf r canceled d).flushFailed = false := by
    unfold Driver.sendComplete at hf
    dsimp only at hf
    rw [flushComplete_eq] at hf
    split at hf <;> simpa using hf
  obtain ⟨e, ht, hrefs, hepoch, hreq, htell⟩ := hg.turn_lossOf hm canceled hloss
  -- the record leaves the list before the withdrawal of its stream is settled
  let u := ((d.flushComplete r canceled).modDs r.ds fun e => { e with sendRefs := sizeDec e.sendRefs })
  let w : Driver := { u with
    borrowed := u.borrowed.erase r
    pendingSends := sizeDec u.pendingSends }.record (.returned r canceled)
  have hu : u.stream = Function.update d.stream r.ds
      (completed r (r.flushEpoch == (d.stream r.ds).flushEpoch) e) := by
    have hx := ht.stream
    simp only [u, flushComplete_eq, Driver.modDs, Driver.completeBytes]
    cases hb : r.flushBytes <;> simp [hx, completed, hb, Function.update_idem]
  have hw : Good w := by
    refine hg.comeBack (e := e) (x := lossOf r canceled d) hm ht hrefs hepoch hreq htell hu ?_ ?_ ?_ ?_ ?_ ?_ ?_ ?_ ?_
    all_goals simp only [w, u, flushComplete_eq, Driver.modDs, Driver.completeBytes, Driver.record]
    · split <;> simp [ht.log]
    · split <;> simp [ht.nextDs]
    · split <;> simp [ht.nextRec]
    · split <;> simp [ht.borrowed]
    · split <;> simp [ht.frames]
    · split <;> simp [ht.flushSends]
    all_goals split <;> rfl
  have hn : w.nextDs = d.nextDs := by
    simp only [w, u, flushComplete_eq, Driver.modDs, Driver.completeBytes, Driver.record]
    split <;> simp [ht.nextDs]
  have hsettle : ({ u.flushSettle r.ds with
      borrowed := u.borrowed.erase r
      pendingSends := sizeDec u.pendingSends } : Driver).record (.returned r canceled)
      = w.flushSettle r.ds := by
    simp only [w, Driver.flushSettle, Driver.record, Driver.modDs]
    split <;> rfl
  have hdone : Good (w.flushSettle r.ds) := hw.settle (hn ▸ hlt)
  have hlt' : r.ds < (w.flushSettle r.ds).nextDs := by
    rw [nextDs_flushSettle, hn]
    exact hlt
  rw [← hsettle] at hdone hlt'
  unfold Driver.sendComplete
  dsimp only
  split
  · refine report (push (push (hdone.modDs hlt' ⟨rfl, rfl, rfl, rfl, rfl⟩ rfl rfl) _ (by simp [Frame.ds])) _ fun t ht => ?_) _
    cases ht
    exact hlt'
  · exact hdone.push _ (by simp [Frame.ds])

/-! ### The end of streams and of the connection -/

theorem detach (hg : Good d) (hs : s < d.nextDs) (answer : Bool) : Good (d.opDetach s answer) := by
  unfold Driver.opDetach
  split
  · exact hg.modDs (f := fun e => { e with flushWtData := answer, ectx := false }) hs ⟨rfl, rfl, rfl, rfl, rfl⟩ rfl rfl
  · exact hg

theorem writableCheck (hg : Good d) (hs : s < d.nextDs) : Good (d.writableCheck s) := by
  unfold Driver.writableCheck
  dsimp only
  split
  · exact hg
  · exact report (hg.modDs (f := fun e => { e with sendBlocked := false }) hs ⟨rfl, rfl, rfl, rfl, rfl⟩ rfl rfl) _

theorem idealSend (hg : Good d) (hs : s < d.nextDs) (n : Nat) :
    Good (d.apply (.idealSend s n)) := by
  have hm : Good (d.modDs s fun e => { e with idealSend := n }) :=
    hg.modDs hs ⟨rfl, rfl, rfl, rfl, rfl⟩ rfl rfl
  unfold Driver.apply
  dsimp only
  split
  · exact hm.writableCheck hs
  · exact hm

/-- The stream is gone. -/
theorem gone (hg : Good d) (hs : s < d.nextDs) (hf : (d.flushDiscard s).flushFailed = false) :
    Good ((d.flushDiscard s).record (.gone s)) :=
  hg.discard hs hf rfl (by simp) (by simp) (by simp [Fact.acceptsFin]) (by simp [Fact.cuts]) rfl

theorem shutdownComplete (hg : Good d) (hs : s < d.nextDs) (appClose : Bool)
    (hf : (d.streamShutdownComplete s appClose).flushFailed = false) :
    Good (d.streamShutdownComplete s appClose) := by
  have hd : (d.flushDiscard s).flushFailed = false := by
    unfold Driver.streamShutdownComplete at hf
    dsimp only at hf
    split at hf <;> simpa using hf
  have hn : (d.flushDiscard s).nextDs = d.nextDs := by rw [Driver.flushDiscard_eq hd]
  have hgone : Good ((((d.flushDiscard s).record (.gone s)).modDs s fun e =>
      { e with shutdownComplete := true, stream := e.stream && e.pooled && !appClose })) :=
    (hg.gone hs hd).modDs (hn ▸ hs) ⟨rfl, rfl, rfl, rfl, rfl⟩ rfl rfl
  unfold Driver.streamShutdownComplete
  dsimp only
  split
  · exact hgone.reportFor s _
  · exact hgone

theorem completeTerminal (hg : Good d) (hs : s < d.nextDs) : Good (d.completeTerminal s) := by
  unfold Driver.completeTerminal
  dsimp only
  split
  · exact reportFor (hg.modDs (f := fun e => { e with flushShutdownPending := false }) hs ⟨rfl, rfl, rfl, rfl, rfl⟩ rfl rfl) s _
  · exact hg

theorem collect (hg : Good d) (hs : s < d.nextDs) (hf : (d.collect s).flushFailed = false) :
    Good (d.collect s) := by
  unfold Driver.collect at hf ⊢
  split at hf
  · next hc =>
    rw [if_pos hc]
    dsimp only at hf ⊢
    split at hf
    · cases hf
    · next hset =>
      rw [if_neg hset]
      exact hg.modDs (f := fun e => { e with stream := false, collected := true }) hs ⟨rfl, rfl, rfl, rfl, rfl⟩ rfl rfl
  · next hc =>
    rw [if_neg hc]
    exact hg

/-- Nothing fails when nothing is pending. -/
theorem failPending (hg : Good d) (hf : d.failPending.flushFailed = false) :
    Good d.failPending := by
  unfold Driver.failPending at hf ⊢
  split at hf
  · cases hf
  · next hp =>
    rw [if_neg hp]
    exact hg

theorem connShutdown (hg : Good d) (hf : d.connShutdown.flushFailed = false) :
    Good d.connShutdown := by
  unfold Driver.connShutdown at hf ⊢
  split at hf
  · next h =>
    rw [if_pos h]
    exact hg
  · next h =>
    rw [if_neg h]
    exact (hg.failPending hf).like rfl fun _ => .inl

theorem resume (hg : Good d) (f : Frame) (hs : ∀ t, f.ds = some t → t < d.nextDs) :
    Good (d.resume f) := by
  cases f with
  | shutdown s req intent => exact hg
  | sent s => exact hg.modDs (f := fun e => { e with sendBlocked := false }) (hs s rfl) ⟨rfl, rfl, rfl, rfl, rfl⟩ rfl rfl
  | writable s => exact hg.writableCheck (hs s rfl)
  | flushed =>
    unfold Driver.resume Driver.flushedCheck
    dsimp only
    split
    · exact hg.like rfl fun _ => .inl
    · exact hg

/-- The innermost call returns. -/
theorem pop (hg : Good d) {f : Frame} {frames : List Frame} (hd : d.frames = f :: frames) :
    Good { d with frames } ∧ ∀ t, f.ds = some t → t < d.nextDs :=
  ⟨hg.like rfl fun _ hm => .inl (hd ▸ List.mem_cons_of_mem _ hm),
    hg.framed f (hd ▸ List.mem_cons_self)⟩

/-- An event that records no loss keeps the invariant. -/
theorem step (hg : Good d) (ev : Event) (ha : ev.allowed d)
    (hf : (d.apply ev).flushFailed = false) : Good (d.apply ev) := by
  have hds : ∀ s, ev.ds = some s → s < d.nextDs := by
    intro s hs
    cases ev <;> simp_all [Event.allowed, Event.ds]
  cases ev with
  | opened isLocal isBidi critical pooled attached =>
    exact hg.opened isLocal isBidi critical pooled attached
  | attached s => exact hg.modDs (f := fun e => { e with ectx := true }) (hds s rfl) ⟨rfl, rfl, rfl, rfl, rfl⟩ rfl rfl
  | detached s answer => exact hg.detach (hds s rfl) answer
  | send s len fin alloc accepted => exact hg.send (hds s rfl) len fin alloc accepted
  | sendGather s spans fin cookie alloc accepted =>
    exact hg.sendGather (hds s rfl) spans fin cookie alloc accepted
  | shutdown s req answer => exact hg.shutdown (hds s rfl) req answer
  | shutdownReturned first second =>
    simp only [Driver.apply] at hf ⊢
    split
    · next s req intent frames hd =>
      simp only [hd] at hf
      obtain ⟨hpop, hlt⟩ := hg.pop hd
      exact hpop.resolve (hlt s rfl) intent _ _ hf
    · exact hg
  | returned =>
    simp only [Driver.apply]
    split
    · exact hg
    · exact hg
    · next f frames hne hd =>
      obtain ⟨hpop, hlt⟩ := hg.pop hd
      exact hpop.resume f hlt
  | startFailed s => exact hg.gone (hds s rfl) hf
  | peerReceiveAborted s answer => exact hg.peerReceiveAborted (hds s rfl) answer hf
  | sendShutdownComplete s graceful => exact hg.sendShutdownComplete (hds s rfl) graceful hf
  | sendComplete r canceled => exact hg.sendComplete (by simpa [Event.allowed] using ha) canceled hf
  | idealSend s n => exact hg.idealSend (hds s rfl) n
  | shutdownComplete s appClose => exact hg.shutdownComplete (hds s rfl) appClose hf
  | completeTerminal s => exact hg.completeTerminal (hds s rfl)
  | collect s => exact hg.collect (hds s rfl) hf
  | connShutdown => exact hg.connShutdown hf
  | connLost => exact hg.failPending hf
  | shutdownWhenFlushed => exact hg.like rfl fun _ => .inl
  | sessionDropped => exact hg.like rfl fun _ => .inl

end Good

/-! ## Loss is sticky -/

/-- A recorded loss stays recorded, and is told to the session as long as there is one. -/
structure Sticky (d d' : Driver) : Prop where
  failed : d.flushFailed → d'.flushFailed
  latched : d.localFlushFailed → d'.localFlushFailed
  session : d'.session → d.session
  told : d'.flushFailed → d.flushFailed ∨ (d'.session → d'.localFlushFailed)

namespace Sticky

variable {u v : Driver} {r : SendRec}

/-- Nothing is recorded. -/
theorem plain (h1 : v.flushFailed = d.flushFailed)
    (h2 : v.localFlushFailed = d.localFlushFailed)
    (h3 : v.session = d.session) : Sticky d v :=
  ⟨h1 ▸ id, h2 ▸ id, h3 ▸ id, fun h => .inl (h1 ▸ h)⟩

theorem trans (h : Sticky d u) (h' : Sticky u v) : Sticky d v where
  failed := h'.failed ∘ h.failed
  latched := h'.latched ∘ h.latched
  session := h.session ∘ h'.session
  told := fun hf => by
    rcases h'.told hf with hf | hf
    · exact (h.told hf).imp id fun hl hs => h'.latched (hl (h'.session hs))
    · exact .inr hf

theorem flushFail : Sticky d d.flushFail where
  failed := fun _ => rfl
  latched := fun h => by simp [Driver.flushFail, h]
  session := id
  told := fun _ => .inr fun h => by simp_all [Driver.flushFail]

theorem report {x : Report} (h : Sticky d u) : Sticky d (u.report x) := by
  unfold Driver.report
  split
  · exact h.trans (plain rfl rfl rfl)
  · exact h

theorem reportFor {x : Report} (h : Sticky d u) : Sticky d (u.reportFor s x) := by
  unfold Driver.reportFor
  split
  · exact h.report
  · exact h

theorem dropFin : Sticky d (d.dropFin s) := by
  unfold Driver.dropFin
  split <;> exact plain rfl rfl rfl

theorem flushBegin (bytes fin : Bool) : Sticky d (d.flushBegin s bytes fin).2 := by
  unfold Driver.flushBegin
  cases bytes <;> simp only [if_true, Bool.false_eq_true, if_false] <;> split <;> exact plain rfl rfl rfl

theorem failPending : Sticky d d.failPending := by
  unfold Driver.failPending
  split
  · exact flushFail
  · exact plain rfl rfl rfl

theorem flushDiscard : Sticky d (d.flushDiscard s) := by
  unfold Driver.flushDiscard
  dsimp only
  split
  · exact flushFail.trans dropFin
  · exact dropFin

theorem flushSettle : Sticky d (d.flushSettle s) := by
  unfold Driver.flushSettle
  dsimp only
  split <;> exact plain rfl rfl rfl

theorem flushWithdraw : Sticky d (d.flushWithdraw s) := by
  unfold Driver.flushWithdraw
  split
  · exact flushFail
  · have hstart : ∀ u : Driver, Sticky u (u.startSettling s) := fun u => by
      unfold Driver.startSettling
      split <;> exact plain rfl rfl rfl
    have hmod : Sticky d (d.modDs s fun e =>
      { e with flushEpoch := e.flushEpoch + 1, flushRequiredSends := 0 }) := plain rfl rfl rfl
    exact ((hmod.trans dropFin).trans (hstart _)).trans flushSettle

theorem flushCancelLoss : Sticky d (d.flushCancelLoss s) := by
  unfold Driver.flushCancelLoss
  split
  · exact flushFail
  · exact plain rfl rfl rfl

theorem flushComplete (r : SendRec) (canceled : Bool) : Sticky d (d.flushComplete r canceled) := by
  rw [Good.flushComplete_eq]
  have hbytes : ∀ (u : Driver) (required : Bool), Sticky u (u.completeBytes r required) := by
    intro u required
    unfold Driver.completeBytes
    split <;> exact plain rfl rfl rfl
  refine trans ?_ (hbytes _ _)
  unfold Good.lossOf
  dsimp only
  have hmod : Sticky d (if canceled && (r.flushBytes || r.flushFin) then
      d.modDs r.ds fun e => { e with flushOutputCanceled := true } else d) := by
    split <;> exact plain rfl rfl rfl
  refine hmod.trans ?_
  generalize (if canceled && (r.flushBytes || r.flushFin) then
    d.modDs r.ds fun e => { e with flushOutputCanceled := true } else d) = u
  split
  · split
    · exact flushCancelLoss.trans dropFin
    · exact flushCancelLoss
  · exact plain rfl rfl rfl

theorem submit (r : SendRec) (accepted : Bool) : Sticky d (d.submit r accepted) := by
  cases accepted with
  | false =>
    rw [Driver.submit_refused]
    exact plain rfl rfl rfl
  | true =>
    have hrefs : Sticky d { d.modDs r.ds fun e => { e with sendRefs := e.sendRefs + 1 }
      with pendingSends := d.pendingSends + 1 } := plain rfl rfl rfl
    exact (hrefs.trans (flushBegin r.flushBytes r.flushFin)).trans (plain rfl rfl rfl)

theorem send (len : Nat) (fin alloc accepted : Bool) :
    Sticky d (d.opSend s len fin alloc accepted).2 := by
  unfold Driver.opSend
  split
  · exact plain rfl rfl rfl
  split
  · exact plain rfl rfl rfl
  split
  · dsimp only
    split
    · exact (flushBegin false true).trans (plain rfl rfl rfl)
    · rw [Driver.fin_refused]
      exact plain rfl rfl rfl
  split
  · exact plain rfl rfl rfl
  · dsimp only
    exact submit _ _

theorem sendGather (spans : List Nat) (fin : Bool) (cookie : Nat) (alloc accepted : Bool) :
    Sticky d (d.opSendGather s spans fin cookie alloc accepted).2 := by
  unfold Driver.opSendGather
  dsimp only
  split
  · exact plain rfl rfl rfl
  split
  · exact plain rfl rfl rfl
  split
  · exact plain rfl rfl rfl
  split
  · exact plain rfl rfl rfl
  split
  · have hmod : Sticky d (d.modDs s fun e =>
      { e with inflightBytes := e.inflightBytes + spans.sum }) := plain rfl rfl rfl
    exact (hmod.trans (submit _ _)).trans (plain rfl rfl rfl)
  · dsimp only
    exact submit _ _

theorem resolve (intent ok sendAccepted : Bool) : Sticky d (d.resolve s intent ok sendAccepted) := by
  unfold Driver.resolve
  refine trans ?_ flushSettle
  split
  · unfold Driver.decide
    split
    · exact plain rfl rfl rfl
    · next p ps hd =>
      have hpop : Sticky d { d.modDs s fun e => { e with flushDecision := ps }
        with flushDecisions := sizeDec d.flushDecisions } := plain rfl rfl rfl
      dsimp only
      split
      · refine trans (hpop.trans ?_) (flushWithdraw.trans (plain rfl rfl rfl))
        split <;> exact plain rfl rfl rfl
      · split
        · exact hpop.trans (flushFail.trans (plain rfl rfl rfl))
        · split
          · exact hpop.trans (flushCancelLoss.trans (plain rfl rfl rfl))
          · exact hpop.trans (plain rfl rfl rfl)
  · split
    · exact flushDiscard.trans (plain rfl rfl rfl)
    · exact plain rfl rfl rfl

theorem sendShutdownComplete (graceful : Bool) : Sticky d (d.sendShutdownComplete s graceful) := by
  have hob : Sticky d (d.sendShutdownObligations s graceful) := by
    unfold Driver.sendShutdownObligations
    dsimp only
    split
    · exact dropFin
    · split
      · exact flushCancelLoss.trans dropFin
      · exact plain rfl rfl rfl
  have hev : ∀ u : Driver, Sticky u (u.sendShutdownEvidence s) := fun u => by
    unfold Driver.sendShutdownEvidence
    dsimp only
    split
    · exact trans (plain (v := (u.modDs s _).modDs s _) rfl rfl rfl) flushSettle
    · exact plain rfl rfl rfl
  unfold Driver.sendShutdownComplete
  dsimp only
  split
  · exact (hob.trans (hev _)).trans (plain rfl rfl rfl)
  · exact reportFor ((hob.trans (hev _)).trans (plain rfl rfl rfl))

theorem sendComplete (r : SendRec) (canceled : Bool) : Sticky d (d.sendComplete r canceled) := by
  have hmain := (flushComplete (d := d) r canceled).trans
    (plain (v := (d.flushComplete r canceled).modDs r.ds fun e =>
      { e with sendRefs := sizeDec e.sendRefs }) rfl rfl rfl)
  unfold Driver.sendComplete
  dsimp only
  split
  · exact report ((hmain.trans flushSettle).trans (plain rfl rfl rfl))
  · exact (hmain.trans flushSettle).trans (plain rfl rfl rfl)

theorem shutdownComplete (appClose : Bool) : Sticky d (d.streamShutdownComplete s appClose) := by
  unfold Driver.streamShutdownComplete
  dsimp only
  split
  · exact reportFor (flushDiscard.trans (plain rfl rfl rfl))
  · exact flushDiscard.trans (plain rfl rfl rfl)

theorem writableCheck : Sticky d (d.writableCheck s) := by
  unfold Driver.writableCheck
  dsimp only
  split
  · exact plain rfl rfl rfl
  · exact report (plain rfl rfl rfl)

theorem resume (f : Frame) : Sticky d (d.resume f) := by
  cases f with
  | shutdown s req intent => exact plain rfl rfl rfl
  | sent s => exact plain rfl rfl rfl
  | writable s => exact writableCheck
  | flushed =>
    unfold Driver.resume Driver.flushedCheck
    dsimp only
    split <;> exact plain rfl rfl rfl

theorem step (ev : Event) : Sticky d (d.apply ev) := by
  cases ev with
  | opened | attached => exact plain rfl rfl rfl
  | detached s answer =>
    unfold Driver.apply Driver.opDetach
    dsimp only
    split <;> exact plain rfl rfl rfl
  | send s len fin alloc accepted => exact send len fin alloc accepted
  | sendGather s spans fin cookie alloc accepted => exact sendGather spans fin cookie alloc accepted
  | shutdown s req answer =>
    unfold Driver.apply Driver.opShutdownStream
    dsimp only
    split
    · exact plain rfl rfl rfl
    · dsimp only
      split <;> exact plain rfl rfl rfl
  | shutdownReturned first second =>
    simp only [Driver.apply]
    split
    · next s req intent frames hd =>
      exact trans (u := { d with frames }) (plain rfl rfl rfl) (resolve _ _ _)
    · exact plain rfl rfl rfl
  | returned =>
    simp only [Driver.apply]
    split
    · exact plain rfl rfl rfl
    · exact plain rfl rfl rfl
    · next f frames hne hd =>
      exact trans (u := { d with frames }) (plain rfl rfl rfl) (resume f)
  | startFailed s => exact flushDiscard.trans (plain rfl rfl rfl)
  | peerReceiveAborted s answer =>
    have hmain : Sticky d (if Driver.flushIsWt (d.stream s) answer then d.flushWithdraw s
        else d.flushDiscard s) := by
      split
      · exact flushWithdraw
      · exact flushDiscard
    simp only [Driver.apply, Driver.peerReceiveAborted]
    generalize (if Driver.flushIsWt (d.stream s) answer then d.flushWithdraw s
      else d.flushDiscard s) = u at hmain
    split
    · exact hmain.trans (plain rfl rfl rfl)
    · exact reportFor (hmain.trans (plain rfl rfl rfl))
  | sendShutdownComplete s graceful => exact sendShutdownComplete graceful
  | sendComplete r canceled => exact sendComplete r canceled
  | idealSend s n =>
    simp only [Driver.apply]
    split
    · exact trans (plain (v := d.modDs s _) rfl rfl rfl) writableCheck
    · exact plain rfl rfl rfl
  | shutdownComplete s appClose => exact shutdownComplete appClose
  | completeTerminal s =>
    simp only [Driver.apply, Driver.completeTerminal]
    split
    · exact reportFor (plain rfl rfl rfl)
    · exact plain rfl rfl rfl
  | collect s =>
    simp only [Driver.apply, Driver.collect]
    split
    · split
      · exact flushFail.trans (plain rfl rfl rfl)
      · exact plain rfl rfl rfl
    · exact plain rfl rfl rfl
  | connShutdown =>
    simp only [Driver.apply, Driver.connShutdown]
    split
    · exact plain rfl rfl rfl
    · exact failPending.trans (plain rfl rfl rfl)
  | connLost => exact failPending
  | shutdownWhenFlushed => exact plain rfl rfl rfl
  | sessionDropped => exact ⟨id, id, by simp [Driver.apply], fun h => .inl h⟩

theorem run (h : Later d v) : Sticky d v := by
  induction h with
  | refl => exact plain rfl rfl rfl
  | step ev h ha ih => exact ih.trans (step ev)

end Sticky

/-! ## The probe -/

theorem Reachable.later (h : Reachable d) : Later {} d := by
  induction h with
  | init => exact .refl
  | step ev h ha ih => exact ih.step ev ha

theorem Reachable.good (h : Reachable d) (hf : d.flushFailed = false) : Good d := by
  induction h with
  | init => exact Good.init
  | @step d ev h ha ih =>
    have hd : d.flushFailed = false := by
      cases hd : d.flushFailed with
      | false => rfl
      | true => exact absurd ((Sticky.step ev).failed hd) (by simp [hf])
    exact (ih hd).step ev ha hf

namespace Good

variable {r : SendRec}

/-- Nothing is pending, so no cancellation can hold a loss. -/
theorem loss_of_idle (hg : Good d) (hp : d.flushPending = false) (s : Nat) :
    (d.stream s).flushFin = false ∧ (d.stream s).flushSettling = false ∧
      (d.stream s).loss = false := by
  simp only [Driver.flushPending, Bool.or_eq_false_iff, bne_eq_false_iff_eq] at hp
  obtain ⟨⟨⟨-, hfins⟩, hsets⟩, hdecs⟩ := hp
  rcases Nat.lt_or_ge s d.nextDs with hs | hs
  · have hc := hg.covers hs
    have h1 := hc.fins
    have h2 := hc.settlements
    have h3 := hc.decisions
    rw [hfins, Nat.le_zero] at h1
    rw [hsets, Nat.le_zero] at h2
    rw [hdecs, Nat.le_zero, List.length_eq_zero_iff] at h3
    exact ⟨by simpa using h1, by simpa using h2, Dstream.loss_of_decision h3⟩
  · rw [hg.blank s hs]
    exact ⟨rfl, rfl, rfl⟩

theorem superseded (hg : Good d) (hp : d.flushPending = false) {later : History}
    (hlater : later ⊆ d.log) (hcut : ∃ f ∈ later, f.cuts s) : Superseded s later d.log := by
  refine ⟨hcut, ((hg.tells s).withdrawn ?_).resolve_left ?_⟩
  · exact hcut.imp fun f hf => ⟨hlater hf.1, hf.2⟩
  · simp [(hg.loss_of_idle hp s).2.1]

/-- When nothing is pending and nothing was lost, all required output has been delivered. -/
theorem flushed (hg : Good d) (hp : d.flushPending = false) : Flushed d.log where
  bytes := fun later r earlier hlog hb => by
    have hsent : .sent r ∈ d.log := by simp [hlog]
    have hsends : d.flushSends = 0 := by
      simp only [Driver.flushPending, Bool.or_eq_false_iff, bne_eq_false_iff_eq] at hp
      exact hp.1.1.1
    have hback : Returned r d.log := by
      by_contra hn
      rw [hg.sends, List.countP_eq_zero] at hsends
      exact hsends r ((hg.borrowed r).mpr ⟨hsent, hn⟩) hb
    obtain ⟨canceled, hc⟩ := hback
    by_cases hcut : ∃ f ∈ later, f.cuts r.ds
    · exact .inr (hg.superseded hp (by simp [hlog]) hcut)
    · have hreq : Required r d.log := by
        rw [hlog]
        exact required_of_uncut fun f hf hfc => hcut ⟨f, hf, hfc⟩
      cases canceled with
      | false => exact .inl hc
      | true =>
        have hlost := (hg.tells r.ds).lostSend r rfl (lostSend_of_canceled hg.ordered hc hreq (.inl hb))
        simp [(hg.loss_of_idle hp r.ds).2.2] at hlost
  fins := fun later f earlier s hlog hacc => by
    by_cases hdone : .sendDone s true ∈ later
    · exact .inl hdone
    by_cases hcut : ∃ f ∈ later, f.cuts s
    · exact .inr (hg.superseded hp (by simp [hlog]) hcut)
    · have hreq : FinRequired s d.log := by
        rw [hlog]
        exact finRequired_of_uncut hacc (fun g hg hgc => hcut ⟨g, hg, hgc⟩) hdone
      obtain ⟨h1, -, h3⟩ := hg.loss_of_idle hp s
      rcases (hg.tells s).fin hreq with h | h
      · simp [h1] at h
      · simp [h3] at h

/-- As long as no loss was recorded, none has happened. -/
theorem not_lost (hg : Good d) : ¬ Lost d.log := by
  have hidle : ∀ s, deciding s d.log = 0 → (d.stream s).loss = false := fun s h0 => by
    rw [← (hg.tells s).deciding, List.length_eq_zero_iff] at h0
    exact Dstream.loss_of_decision h0
  rintro (⟨r, hl, h0⟩ | ⟨s, hl, h0⟩)
  · simpa [hidle _ h0] using (hg.tells r.ds).lostSend r rfl hl
  · simpa [hidle _ h0] using (hg.tells s).lostFin hl

end Good

/-- An OK probe means that all required output was delivered; once output has been lost, every
later probe fails, and so does every later query of a session that was there. -/
theorem local_flush_sound (h : Reachable d) :
    (d.localFlushProbe = .ok → Flushed d.log) ∧
      (Lost d.log → ∀ d', Later d d' →
        d'.localFlushProbe = .backend ∧ (d.session → d'.localFlushFailed)) := by
  constructor
  · intro hok
    unfold Driver.localFlushProbe at hok
    split at hok
    · cases hok
    next hf =>
    split at hok
    · cases hok
    split at hok
    · cases hok
    next hp => exact (h.good (by simpa using hf)).flushed (by simpa using hp)
  · intro hl d' hd'
    have hf : d.flushFailed := by
      by_contra hf
      exact (h.good (by simpa using hf)).not_lost hl
    have hs := Sticky.run hd'
    refine ⟨by simp [Driver.localFlushProbe, hs.failed hf], fun hsession => hs.latched ?_⟩
    rcases (Sticky.run h.later).told hf with h0 | h0
    · cases h0
    · exact h0 hsession

/-- One send of five bytes is accepted and comes back canceled. -/
theorem local_flush_sound_canceled :
    let r : SendRec :=
      { id := 0, ds := 0, gather := false, flushBytes := true, flushFin := false, flushEpoch := 0 }
    let sent := (({} : Driver).apply (.opened true true false true true)).apply
      (.send 0 5 false true true)
    (sent.localFlushProbe = .ok → Flushed sent.log) ∧
      (sent.apply (.sendComplete r true)).localFlushProbe = .backend := by
  intro r sent
  have hopened : Reachable (({} : Driver).apply (.opened true true false true true)) :=
    Reachable.init.step _ (by decide)
  have hsent : Reachable sent := hopened.step _ (by decide)
  have hback : Reachable (sent.apply (.sendComplete r true)) := hsent.step _ (by decide)
  have hlost : LostSend r (sent.apply (.sendComplete r true)).log :=
    ⟨id, .inr ⟨.inl rfl, .inl ⟨rfl, .inl rfl⟩⟩⟩
  exact ⟨(local_flush_sound hsent).1, ((local_flush_sound hback).2 (.inl ⟨r, hlost, rfl⟩) _ .refl).1⟩

end Wtquic.Msquic
