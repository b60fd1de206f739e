-- SUMMARY: The flush counters count what the history owes; the local flush probe is sound, and loss is sticky.
import Mathlib.Algebra.Order.BigOperators.Group.Finset
import Mathlib.Data.List.Count
import Wtquic.Msquic.FlushStream

namespace Wtquic.Msquic

open Finset (range)

/-! # Soundness of the local flush probe

As long as no loss was recorded, every stream tells the truth about its history, and the
counters of the connection are the totals over its streams. -/

/-! ## Totals -/

/-- The sum of `g` over the streams of a connection. -/
def Driver.total (d : Driver) (g : Dstream → Nat) : Nat := ∑ s ∈ range d.nextDs, g (d.stream s)

theorem sum_update {f : Nat → Dstream} {n s : Nat} (hs : s < n) (e : Dstream)
    (g : Dstream → Nat) :
    (∑ t ∈ range n, g (Function.update f s e t)) + g (f s)
      = (∑ t ∈ range n, g (f t)) + g e := by
  have hm : s ∈ range n := Finset.mem_range.mpr hs
  rw [← Finset.add_sum_erase _ _ hm, ← Finset.add_sum_erase (range n) (fun t => g (f t)) hm]
  have hrest : ∑ t ∈ (range n).erase s, g (Function.update f s e t)
      = ∑ t ∈ (range n).erase s, g (f t) :=
    Finset.sum_congr rfl fun t ht => by rw [Function.update_of_ne (Finset.ne_of_mem_erase ht)]
  rw [hrest, Function.update_self]
  omega

theorem Driver.le_total {d : Driver} {s : Nat} (hs : s < d.nextDs) (g : Dstream → Nat) :
    g (d.stream s) ≤ d.total g :=
  Finset.single_le_sum (f := fun t => g (d.stream t)) (fun _ _ => Nat.zero_le _)
    (Finset.mem_range.mpr hs)

theorem sizeDec_of_pos {n : Nat} (h : 1 ≤ n) : sizeDec n = n - 1 :=
  if_neg (Nat.ne_of_gt (Nat.lt_of_lt_of_le Nat.one_pos h))

/-! ## A turn of one stream -/

/-- The counters of the connection count stream `s` in. -/
structure Covers (s : Nat) (d : Driver) : Prop where
  fins : (d.stream s).flushFin.toNat ≤ d.flushFins
  settlements : (d.stream s).flushSettling.toNat ≤ d.flushSettlements
  decisions : (d.stream s).flushDecision.length ≤ d.flushDecisions

/-- Stream `s` becomes `e`, the facts `l` are recorded, and the counters follow. -/
structure Turn (s : Nat) (e : Dstream) (l : History) (d d' : Driver) : Prop where
  stream : d'.stream = Function.update d.stream s e
  log : d'.log = l ++ d.log
  nextDs : d'.nextDs = d.nextDs
  nextRec : d'.nextRec = d.nextRec
  borrowed : d'.borrowed = d.borrowed
  frames : d'.frames = d.frames
  flushSends : d'.flushSends = d.flushSends
  fins : d'.flushFins + (d.stream s).flushFin.toNat = d.flushFins + e.flushFin.toNat
  settlements : d'.flushSettlements + (d.stream s).flushSettling.toNat
    = d.flushSettlements + e.flushSettling.toNat
  decisions : d'.flushDecisions + (d.stream s).flushDecision.length
    = d.flushDecisions + e.flushDecision.length

namespace Turn

variable {s : Nat} {e e' : Dstream} {l l' : History} {d d' d'' : Driver}

theorem stream_self (h : Turn s e l d d') : d'.stream s = e := by
  rw [h.stream, Function.update_self]

theorem covers (h : Turn s e l d d') (hc : Covers s d) : Covers s d' := by
  have h1 := h.fins
  have h2 := h.settlements
  have h3 := h.decisions
  have c1 := hc.fins
  have c2 := hc.settlements
  have c3 := hc.decisions
  refine ⟨?_, ?_, ?_⟩ <;> rw [h.stream_self] <;> omega

theorem trans (h : Turn s e l d d') (h' : Turn s e' l' d' d'') : Turn s e' (l' ++ l) d d'' where
  stream := by rw [h'.stream, h.stream, Function.update_idem]
  log := by rw [h'.log, h.log, List.append_assoc]
  nextDs := h'.nextDs.trans h.nextDs
  nextRec := h'.nextRec.trans h.nextRec
  borrowed := h'.borrowed.trans h.borrowed
  frames := h'.frames.trans h.frames
  flushSends := h'.flushSends.trans h.flushSends
  fins := by
    have h1 := h.fins
    have h2 := h'.fins
    rw [h.stream_self] at h2
    omega
  settlements := by
    have h1 := h.settlements
    have h2 := h'.settlements
    rw [h.stream_self] at h2
    omega
  decisions := by
    have h1 := h.decisions
    have h2 := h'.decisions
    rw [h.stream_self] at h2
    omega

/-- A write that no counter notices. -/
theorem modDs {f : Dstream → Dstream}
    (hfin : (f (d.stream s)).flushFin = (d.stream s).flushFin)
    (hset : (f (d.stream s)).flushSettling = (d.stream s).flushSettling)
    (hdec : (f (d.stream s)).flushDecision.length = (d.stream s).flushDecision.length) :
    Turn s (f (d.stream s)) [] d (d.modDs s f) :=
  ⟨rfl, rfl, rfl, rfl, rfl, rfl, rfl, by simp [Driver.modDs, hfin], by simp [Driver.modDs, hset],
    by simp [Driver.modDs, hdec]⟩

theorem refl : Turn s (d.stream s) [] d d :=
  ⟨(Function.update_eq_self s d.stream).symm, rfl, rfl, rfl, rfl, rfl, rfl, rfl, rfl, rfl⟩

theorem record (h : Turn s e [] d d') (f : Fact) : Turn s e [f] d (d'.record f) :=
  { h with log := by simp [Driver.record, h.log] }

theorem dropFin (hc : Covers s d) : Turn s (d.stream s).dropFin [] d (d.dropFin s) := by
  unfold Driver.dropFin
  split
  · next hf =>
    have hpos : 1 ≤ d.flushFins := by simpa [hf] using hc.fins
    refine ⟨rfl, rfl, rfl, rfl, rfl, rfl, rfl, ?_, by simp [Dstream.dropFin, Driver.modDs],
      by simp [Dstream.dropFin, Driver.modDs]⟩
    simp only [sizeDec_of_pos hpos, hf, Dstream.dropFin, Bool.toNat_true, Bool.toNat_false]
    omega
  · next hf =>
    have he : (d.stream s).dropFin = d.stream s := by
      simp only [Bool.not_eq_true] at hf
      simp [Dstream.dropFin, ← hf]
    rw [he]
    exact refl

theorem settle (hc : Covers s d) : Turn s (d.stream s).settle [] d (d.flushSettle s) := by
  by_cases hs : (d.stream s).settles
  · have hpos : 1 ≤ d.flushSettlements := by simpa [hs.1] using hc.settlements
    rw [Dstream.settle, if_pos hs, show d.flushSettle s = _ from if_pos hs]
    refine ⟨rfl, rfl, rfl, rfl, rfl, rfl, rfl, by simp [Driver.modDs], ?_, by simp [Driver.modDs]⟩
    simp only [sizeDec_of_pos hpos, hs.1, Bool.toNat_true, Bool.toNat_false]
    omega
  · rw [Dstream.settle, if_neg hs, show d.flushSettle s = d from if_neg hs]
    exact refl

theorem startSettling :
    Turn s { d.stream s with flushSettling := true } [] d (d.startSettling s) := by
  unfold Driver.startSettling
  split
  · next hs =>
    have he : { d.stream s with flushSettling := true } = d.stream s := by rw [← hs]
    rw [he]
    exact refl
  · next hs =>
    refine ⟨rfl, rfl, rfl, rfl, rfl, rfl, rfl, by simp [Driver.modDs], ?_, by simp [Driver.modDs]⟩
    simp [hs]

theorem withdraw (hc : Covers s d) (he : (d.stream s).flushEpoch ≠ wordMax) :
    Turn s (d.stream s).withdraw [] d (d.flushWithdraw s) := by
  unfold Driver.flushWithdraw
  rw [if_neg he]
  have h1 : Turn s _ [] d (d.modDs s fun e =>
    { e with flushEpoch := e.flushEpoch + 1, flushRequiredSends := 0 }) := modDs rfl rfl rfl
  have h2 := h1.trans (dropFin (h1.covers hc))
  have h3 := h2.trans startSettling
  have h4 := h3.trans (settle (h3.covers hc))
  simpa [h3.stream_self, h2.stream_self, h1.stream_self, Dstream.withdraw, Dstream.dropFin] using h4

theorem cancelLoss (hd : (d.stream s).flushDecision ≠ []) :
    Turn s (d.stream s).cancelLoss [] d (d.flushCancelLoss s) := by
  unfold Driver.flushCancelLoss
  obtain ⟨p, ps, hp⟩ := List.exists_cons_of_ne_nil hd
  simp only [hp]
  have h : Turn s _ [] d (d.modDs s fun e =>
      { e with flushDecision := { p with loss := true } :: ps }) := modDs rfl rfl (by simp [hp])
  simpa [Dstream.cancelLoss, hp] using h

end Turn

/-! ## The invariant -/

/-- The stream a frame goes back to. -/
def Frame.ds : Frame → Option Nat
  | .shutdown s _ _ | .sent s | .writable s => some s
  | .flushed => none

/-- What holds as long as no loss was recorded. -/
structure Good (d : Driver) : Prop where
  tells : ∀ s, Tells s (d.stream s) d.log
  blank : ∀ s, d.nextDs ≤ s → d.stream s = {}
  fins : d.flushFins = d.total (·.flushFin.toNat)
  settlements : d.flushSettlements = d.total (·.flushSettling.toNat)
  decisions : d.flushDecisions = d.total (·.flushDecision.length)
  sends : d.flushSends = d.borrowed.countP (·.flushBytes)
  refs : ∀ s, (d.stream s).sendRefs = d.borrowed.countP (·.ds == s)
  required : ∀ s, (d.stream s).flushRequiredSends = d.borrowed.countP fun r =>
    r.flushBytes && r.ds == s && r.flushEpoch == (d.stream s).flushEpoch
  borrowed : ∀ r, r ∈ d.borrowed ↔ .sent r ∈ d.log ∧ ¬ Returned r d.log
  nodup : d.borrowed.Nodup
  ordered : Ordered d.log
  fresh : ∀ r, .sent r ∈ d.log → r.id < d.nextRec ∧ r.ds < d.nextDs
  framed : ∀ f ∈ d.frames, ∀ s, f.ds = some s → s < d.nextDs

/-- The part of a connection that the invariant reads, its calls aside. -/
def Driver.ledger (d : Driver) : Driver :=
  { stream := d.stream
    nextDs := d.nextDs
    nextRec := d.nextRec
    borrowed := d.borrowed
    flushSends := d.flushSends
    flushFins := d.flushFins
    flushSettlements := d.flushSettlements
    flushDecisions := d.flushDecisions
    log := d.log }

namespace Good

variable {s : Nat} {e : Dstream} {l : History} {d d' : Driver} {r : SendRec}

theorem init : Good {} where
  tells := Tells.init
  blank := fun _ _ => rfl
  fins := rfl
  settlements := rfl
  decisions := rfl
  sends := rfl
  refs := fun _ => rfl
  required := fun _ => rfl
  borrowed := by simp
  nodup := List.nodup_nil
  ordered := trivial
  fresh := by simp
  framed := by simp

theorem covers (hg : Good d) (hs : s < d.nextDs) : Covers s d where
  fins := hg.fins ▸ Driver.le_total hs (·.flushFin.toNat)
  settlements := hg.settlements ▸ Driver.le_total hs (·.flushSettling.toNat)
  decisions := hg.decisions ▸ Driver.le_total hs (·.flushDecision.length)

theorem idle (hg : Good d) (s : Nat) : Idle s (d.stream s) d.log := fun h0 r hr hds => by
  by_contra hn
  have hm := (hg.borrowed r).mpr ⟨hr, hn⟩
  rw [hg.refs s, List.countP_eq_zero] at h0
  simpa [hds] using h0 r hm

theorem owes (hg : Good d) (s : Nat) : Owes s (d.stream s) d.log := fun r hr hq hb hn h0 => by
  have hm := (hg.borrowed r).mpr ⟨hq.sent, hn⟩
  rw [hg.required s, List.countP_eq_zero] at h0
  have hcur := ((hg.tells s).current r hr hq.sent).mpr hq
  simpa [hr, hb, hcur] using h0 r hm

/-- Nothing that the invariant reads has changed. -/
theorem like (hg : Good d) (hd : d'.ledger = d.ledger)
    (h : ∀ f ∈ d'.frames, f ∈ d.frames ∨ ∀ s, f.ds = some s → s < d.nextDs) : Good d' := by
  have hs : d'.stream = d.stream := (congrArg Driver.stream hd :)
  have hl : d'.log = d.log := (congrArg Driver.log hd :)
  have hn : d'.nextDs = d.nextDs := (congrArg Driver.nextDs hd :)
  have hr : d'.nextRec = d.nextRec := (congrArg Driver.nextRec hd :)
  have hb : d'.borrowed = d.borrowed := (congrArg Driver.borrowed hd :)
  have h1 : d'.flushFins = d.flushFins := (congrArg Driver.flushFins hd :)
  have h2 : d'.flushSettlements = d.flushSettlements := (congrArg Driver.flushSettlements hd :)
  have h3 : d'.flushDecisions = d.flushDecisions := (congrArg Driver.flushDecisions hd :)
  exact
    { tells := by rw [hs, hl]; exact hg.tells
      blank := by rw [hs, hn]; exact hg.blank
      fins := by simpa only [Driver.total, hs, hn, h1] using hg.fins
      settlements := by simpa only [Driver.total, hs, hn, h2] using hg.settlements
      decisions := by simpa only [Driver.total, hs, hn, h3] using hg.decisions
      sends := by rw [hb]; exact (congrArg Driver.flushSends hd).trans hg.sends
      refs := by rw [hs, hb]; exact hg.refs
      required := by rw [hs, hb]; exact hg.required
      borrowed := by rw [hb, hl]; exact hg.borrowed
      nodup := by rw [hb]; exact hg.nodup
      ordered := by rw [hl]; exact hg.ordered
      fresh := by rw [hl, hr, hn]; exact hg.fresh
      framed := fun f hm s hds => by
        rw [hn]
        exact (h f hm).elim (fun hm => hg.framed f hm s hds) fun hlt => hlt s hds }

theorem total_turn {g : Dstream → Nat} {n n' : Nat} (hs : s < d.nextDs) (ht : Turn s e l d d')
    (hn : n = d.total g) (hg : n' + g (d.stream s) = n + g e) : n' = d'.total g := by
  have hsum := sum_update hs e g (f := d.stream)
  rw [Driver.total, ht.stream, ht.nextDs]
  rw [Driver.total] at hn
  omega

/-- A turn of one stream that submits nothing and gets nothing back. -/
theorem turn (hg : Good d) (hs : s < d.nextDs) (ht : Turn s e l d d')
    (hl : ∀ f ∈ l, f.ds = s ∧ (∀ r, f ≠ .sent r) ∧ ∀ r c, f ≠ .returned r c)
    (hrefs : e.sendRefs = (d.stream s).sendRefs)
    (hreq : (e.flushEpoch = (d.stream s).flushEpoch
        ∧ e.flushRequiredSends = (d.stream s).flushRequiredSends)
      ∨ (e.flushEpoch = (d.stream s).flushEpoch + 1 ∧ e.flushRequiredSends = 0))
    (htell : Tells s e (l ++ d.log)) : Good d' := by
  have hmem : ∀ r, .sent r ∈ l ++ d.log ↔ .sent r ∈ d.log := fun r => by
    rw [List.mem_append, or_iff_right]
    exact fun hm => (hl _ hm).2.1 r rfl
  have hret : ∀ r, Returned r (l ++ d.log) ↔ Returned r d.log := fun r => by
    refine exists_congr fun c => ?_
    rw [List.mem_append, or_iff_right]
    exact fun hm => (hl _ hm).2.2 r c rfl
  have hes : ∀ t, d'.stream t = if t = s then e else d.stream t := fun t => by
    rw [ht.stream, Function.update_apply]
  exact
    { tells := fun t => by
        rw [hes, ht.log]
        split
        · next h => exact h ▸ htell
        · next h => exact (hg.tells t).others fun f hf => (hl f hf).1 ▸ Ne.symm h
      blank := fun t hle => by
        rw [ht.nextDs] at hle
        rw [hes, if_neg (by omega)]
        exact hg.blank t hle
      fins := total_turn hs ht hg.fins ht.fins
      settlements := total_turn hs ht hg.settlements ht.settlements
      decisions := total_turn hs ht hg.decisions ht.decisions
      sends := by rw [ht.flushSends, ht.borrowed]; exact hg.sends
      refs := fun t => by
        rw [hes, ht.borrowed]
        split
        · next h =>
          subst h
          rw [hrefs]
          exact hg.refs t
        · exact hg.refs t
      required := fun t => by
        rw [hes, ht.borrowed]
        split
        · next h =>
          subst h
          rcases hreq with ⟨h1, h2⟩ | ⟨h1, h2⟩
          · rw [h1, h2]
            exact hg.required t
          · rw [h1, h2, eq_comm, List.countP_eq_zero]
            intro r hr
            simp only [Bool.and_eq_true, beq_iff_eq, not_and]
            rintro ⟨-, hds⟩
            have := (hg.tells t).epochs r hds ((hg.borrowed r).mp hr).1
            omega
        · exact hg.required t
      borrowed := fun r => by
        rw [ht.borrowed, ht.log, hmem, hret]
        exact hg.borrowed r
      nodup := by rw [ht.borrowed]; exact hg.nodup
      ordered := by
        rw [ht.log]
        exact hg.ordered.append fun f hf => (hl f hf).2
      fresh := fun r hr => by
        rw [ht.log, hmem] at hr
        rw [ht.nextRec, ht.nextDs]
        exact hg.fresh r hr
      framed := by rw [ht.frames, ht.nextDs]; exact hg.framed }

/-- A write that the account of the stream's history does not read. -/
theorem modDs (hg : Good d) (hs : s < d.nextDs) {f : Dstream → Dstream}
    (hsame : (d.stream s).Same (f (d.stream s)))
    (hrefs : (f (d.stream s)).sendRefs = (d.stream s).sendRefs)
    (hreq : (f (d.stream s)).flushRequiredSends = (d.stream s).flushRequiredSends) :
    Good (d.modDs s f) :=
  hg.turn hs (Turn.modDs hsame.flushFin hsame.flushSettling (by rw [hsame.flushDecision]))
    (by simp) hrefs (.inl ⟨hsame.flushEpoch, hreq⟩) ((hg.tells s).same hsame)

theorem report (hg : Good d) (x : Report) : Good (d.report x) := by
  unfold Driver.report
  split
  · exact hg.like rfl fun _ => .inl
  · exact hg

theorem reportFor (hg : Good d) (s : Nat) (x : Report) : Good (d.reportFor s x) := by
  unfold Driver.reportFor
  split
  · exact hg.report x
  · exact hg

theorem settle (hg : Good d) (hs : s < d.nextDs) : Good (d.flushSettle s) := by
  refine hg.turn hs (Turn.settle (hg.covers hs)) (by simp) ?_ (.inl ?_)
    ((hg.tells s).settle (hg.idle s))
  · unfold Dstream.settle
    split <;> rfl
  · unfold Dstream.settle
    split <;> exact ⟨rfl, rfl⟩

end Good
end Wtquic.Msquic
