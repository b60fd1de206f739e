-- SUMMARY: The flush counters count the records that are out, whatever is lost.
import Wtquic.Msquic.FlushShift

namespace Wtquic.Msquic

open Finset (range)

/-! # Counting

The counters of a connection and of its streams against the records that are out. -/

variable {s : Nat} {l : History} {d d' : Driver} {r : SendRec} {out : List SendRec}

/-- The counters count the records `out`, and the flags of the streams. -/
structure Counted (out : List SendRec) (d : Driver) : Prop where
  blank : ∀ s, d.nextDs ≤ s → d.stream s = {}
  fins : d.flushFins = d.total (·.flushFin.toNat)
  settlements : d.flushSettlements = d.total (·.flushSettling.toNat)
  decisions : d.flushDecisions = d.total (·.flushDecision.length)
  sends : d.flushSends = out.countP (·.flushBytes)
  streamSends : ∀ s, (d.stream s).flushSends = out.countP fun r => r.flushBytes && r.ds == s
  required : ∀ s, (d.stream s).flushRequiredSends = out.countP fun r =>
    r.flushBytes && r.ds == s && r.flushEpoch == (d.stream s).flushEpoch
  refs : ∀ s, (d.stream s).sendRefs = out.countP (·.ds == s)
  pending : d.pendingSends = out.length
  live : ∀ r ∈ out, r.ds < d.nextDs ∧ r.flushEpoch ≤ (d.stream r.ds).flushEpoch
  framed : ∀ f ∈ d.frames, ∀ s, f.ds = some s → s < d.nextDs

namespace Driver

/-- The part of a connection that is counted, its calls aside. -/
def tally (d : Driver) : Driver :=
  { stream := d.stream
    nextDs := d.nextDs
    pendingSends := d.pendingSends
    flushSends := d.flushSends
    flushFins := d.flushFins
    flushSettlements := d.flushSettlements
    flushDecisions := d.flushDecisions }

/-- The submission up to its `StreamSend`: the record is published. -/
def publish (r : SendRec) (d : Driver) : Bool × Driver :=
  { d.modDs r.ds fun e => { e with sendRefs := e.sendRefs + 1 }
    with pendingSends := d.pendingSends + 1 }.flushBegin r.ds r.flushBytes r.flushFin

/-- The submission behind a refused `StreamSend`: the record is withdrawn again. -/
def unpublish (r : SendRec) (newFin : Bool) (d : Driver) : Driver :=
  { d.modDs r.ds fun e => { e with sendRefs := sizeDec e.sendRefs }
    with pendingSends := sizeDec d.pendingSends }.flushRollback r.ds r.flushBytes newFin

/-- The record of a completed send is given back. -/
def giveBack (r : SendRec) (canceled : Bool) (d : Driver) : Driver :=
  let u := (d.flushComplete r canceled).modDs r.ds fun e => { e with sendRefs := sizeDec e.sendRefs }
  { u with
    borrowed := u.borrowed.erase r
    pendingSends := sizeDec u.pendingSends }.record (.returned r canceled)

/-- A submission is its two halves. -/
theorem submit_eq (r : SendRec) (accepted : Bool) : d.submit r accepted =
    if accepted then { (d.publish r).2 with
      nextRec := (d.publish r).2.nextRec + 1
      borrowed := r :: (d.publish r).2.borrowed }.record (.sent r)
    else (d.publish r).2.unpublish r (d.publish r).1 := rfl

theorem publish_fst (r : SendRec) :
    (d.publish r).1 = (r.flushFin && !(d.stream r.ds).flushFin) := by
  unfold publish flushBegin
  cases hb : r.flushBytes <;> cases hn : r.flushFin <;> cases hf : (d.stream r.ds).flushFin <;>
    simp [modDs, hf]

theorem publish_rest (r : SendRec) : (d.publish r).2.log = d.log ∧
    (d.publish r).2.borrowed = d.borrowed ∧ (d.publish r).2.nextRec = d.nextRec ∧
    (d.publish r).2.pendingSends = d.pendingSends + 1 := by
  unfold publish flushBegin
  cases hb : r.flushBytes <;> cases hn : r.flushFin && !(d.stream r.ds).flushFin <;>
    simp [modDs, hn]

theorem unpublish_stream (r : SendRec) (newFin : Bool) :
    (d.unpublish r newFin).stream = Function.update d.stream r.ds
      { d.stream r.ds with
        sendRefs := sizeDec (d.stream r.ds).sendRefs
        flushSends := if r.flushBytes then sizeDec (d.stream r.ds).flushSends
          else (d.stream r.ds).flushSends
        flushRequiredSends := if r.flushBytes then sizeDec (d.stream r.ds).flushRequiredSends
          else (d.stream r.ds).flushRequiredSends
        flushFin := !newFin && (d.stream r.ds).flushFin } := by
  unfold unpublish flushRollback
  cases hb : r.flushBytes <;> cases newFin <;> simp [modDs, Function.update_idem]

theorem unpublish_rest (r : SendRec) (newFin : Bool) :
    (d.unpublish r newFin).nextDs = d.nextDs ∧ (d.unpublish r newFin).frames = d.frames ∧
      ((d.unpublish r newFin).log = d.log ∧ (d.unpublish r newFin).borrowed = d.borrowed) ∧
      (d.unpublish r newFin).pendingSends = sizeDec d.pendingSends ∧
      (d.unpublish r newFin).flushSends = (if r.flushBytes then sizeDec d.flushSends
        else d.flushSends) ∧
      (d.unpublish r newFin).flushFins = (if newFin then sizeDec d.flushFins else d.flushFins) ∧
      (d.unpublish r newFin).flushSettlements = d.flushSettlements ∧
      (d.unpublish r newFin).flushDecisions = d.flushDecisions := by
  unfold unpublish flushRollback
  cases r.flushBytes <;> cases newFin <;>
    exact ⟨rfl, rfl, ⟨rfl, rfl⟩, rfl, rfl, rfl, rfl, rfl⟩

end Driver

namespace Counted

theorem init : Counted [] {} where
  blank := fun _ _ => rfl
  fins := rfl
  settlements := rfl
  decisions := rfl
  sends := rfl
  streamSends := fun _ => rfl
  required := fun _ => rfl
  refs := fun _ => rfl
  pending := rfl
  live := nofun
  framed := nofun

theorem covers (hc : Counted out d) (hs : s < d.nextDs) : Covers s d where
  fins := hc.fins ▸ Driver.le_total hs (·.flushFin.toNat)
  settlements := hc.settlements ▸ Driver.le_total hs (·.flushSettling.toNat)
  decisions := hc.decisions ▸ Driver.le_total hs (·.flushDecision.length)

/-- The order of the records does not matter. -/
theorem perm {out' : List SendRec} (hc : Counted out d) (h : out.Perm out') : Counted out' d where
  blank := hc.blank
  fins := hc.fins
  settlements := hc.settlements
  decisions := hc.decisions
  sends := hc.sends.trans (h.countP_eq _)
  streamSends := fun s => (hc.streamSends s).trans (h.countP_eq _)
  required := fun s => (hc.required s).trans (h.countP_eq _)
  refs := fun s => (hc.refs s).trans (h.countP_eq _)
  pending := hc.pending.trans h.length_eq
  live := fun r hr => hc.live r (h.mem_iff.mpr hr)
  framed := hc.framed

/-- Nothing that is counted has changed. -/
theorem like (hc : Counted out d) (hd : d'.tally = d.tally)
    (hframes : ∀ f ∈ d'.frames, f ∈ d.frames ∨ ∀ s, f.ds = some s → s < d.nextDs) :
    Counted out d' := by
  have hstream : d'.stream = d.stream := (congrArg Driver.stream hd :)
  have hnext : d'.nextDs = d.nextDs := (congrArg Driver.nextDs hd :)
  have hpending : d'.pendingSends = d.pendingSends := (congrArg Driver.pendingSends hd :)
  have hsends : d'.flushSends = d.flushSends := (congrArg Driver.flushSends hd :)
  have hfins : d'.flushFins = d.flushFins := (congrArg Driver.flushFins hd :)
  have hsets : d'.flushSettlements = d.flushSettlements := (congrArg Driver.flushSettlements hd :)
  have hdecs : d'.flushDecisions = d.flushDecisions := (congrArg Driver.flushDecisions hd :)
  exact
    { blank := by rw [hstream, hnext]; exact hc.blank
      fins := by simpa only [Driver.total, hstream, hnext, hfins] using hc.fins
      settlements := by simpa only [Driver.total, hstream, hnext, hsets] using hc.settlements
      decisions := by simpa only [Driver.total, hstream, hnext, hdecs] using hc.decisions
      sends := hsends.trans hc.sends
      streamSends := by rw [hstream]; exact hc.streamSends
      required := by rw [hstream]; exact hc.required
      refs := by rw [hstream]; exact hc.refs
      pending := hpending.trans hc.pending
      live := by rw [hstream, hnext]; exact hc.live
      framed := fun f hf s hds => by
        rw [hnext]
        obtain hf | hlt := hframes f hf
        · exact hc.framed f hf s hds
        · exact hlt s hds }

/-- The total of a stream property after one stream was turned. -/
theorem total_eq {g : Dstream → Nat} {n n' : Nat} {e : Dstream} (hs : s < d.nextDs)
    (hstream : d'.stream = Function.update d.stream s e) (hnext : d'.nextDs = d.nextDs)
    (hn : n = d.total g) (hg : n' + g (d.stream s) = n + g e) : n' = d'.total g := by
  have hsum := sum_update hs e g (f := d.stream)
  rw [Driver.total, hstream, hnext]
  rw [Driver.total] at hn
  omega

/-- A turn of one stream that submits nothing and gets nothing back. -/
theorem turn {e : Dstream} (hc : Counted out d) (hs : s < d.nextDs) (ht : Turn s e l d d')
    (hpending : d'.pendingSends = d.pendingSends)
    (hsends : e.flushSends = (d.stream s).flushSends)
    (hrefs : e.sendRefs = (d.stream s).sendRefs)
    (hepoch : e.flushEpoch = (d.stream s).flushEpoch ∧
        e.flushRequiredSends = (d.stream s).flushRequiredSends ∨
      (d.stream s).flushEpoch < e.flushEpoch ∧ e.flushRequiredSends = 0) : Counted out d' := by
  have hother : ∀ t, t ≠ s → d'.stream t = d.stream t := fun t hne => by
    rw [ht.stream, Function.update_of_ne hne]
  exact
    { blank := fun t hle => by
        rw [ht.nextDs] at hle
        rw [hother t (by omega)]
        exact hc.blank t hle
      fins := total_eq hs ht.stream ht.nextDs hc.fins ht.fins
      settlements := total_eq hs ht.stream ht.nextDs hc.settlements ht.settlements
      decisions := total_eq hs ht.stream ht.nextDs hc.decisions ht.decisions
      sends := ht.flushSends.trans hc.sends
      streamSends := fun t => by
        obtain rfl | hne := eq_or_ne t s
        · rw [ht.stream_self, hsends]
          exact hc.streamSends t
        · rw [hother t hne]
          exact hc.streamSends t
      required := fun t => by
        obtain rfl | hne := eq_or_ne t s
        · rw [ht.stream_self]
          obtain ⟨hsame, hreq⟩ | ⟨hlt, hreq⟩ := hepoch
          · rw [hsame, hreq]
            exact hc.required t
          · -- no record that is out belongs to the epoch that begins
            rw [hreq, eq_comm, List.countP_eq_zero]
            intro r hr
            simp only [Bool.and_eq_true, beq_iff_eq, not_and]
            rintro ⟨-, rfl⟩
            have hle := (hc.live r hr).2
            omega
        · rw [hother t hne]
          exact hc.required t
      refs := fun t => by
        obtain rfl | hne := eq_or_ne t s
        · rw [ht.stream_self, hrefs]
          exact hc.refs t
        · rw [hother t hne]
          exact hc.refs t
      pending := hpending.trans hc.pending
      live := fun r hr => by
        rw [ht.nextDs]
        refine ⟨(hc.live r hr).1, ?_⟩
        have hle := (hc.live r hr).2
        obtain heq | hne := eq_or_ne r.ds s
        · rw [heq, ht.stream_self]
          rw [heq] at hle
          omega
        · rw [hother _ hne]
          exact hle
      framed := by rw [ht.frames, ht.nextDs]; exact hc.framed }

theorem shift (hc : Counted out d) (hs : s < d.nextDs) (h : Shift s l d d') : Counted out d' :=
  hc.turn hs h.turn h.pendingSends h.flushSends h.sendRefs h.epoch

/-! ## Records -/

/-- A record is published. -/
theorem publish (hc : Counted out d) (hs : r.ds < d.nextDs)
    (hepoch : r.flushEpoch = (d.stream r.ds).flushEpoch) :
    Counted (r :: out) (d.publish r).2 := by
  obtain ⟨hsends, hfins⟩ := Good.submit_counts (d := d) r
  obtain ⟨-, -, hnext, -, hframes, hsets, hdecs⟩ := Good.submit_rest (d := d) r
  have hstream := Good.submit_stream (d := d) r
  rw [Driver.submit_eq] at hsends hfins hnext hframes hsets hdecs hstream
  have hself := congrFun hstream r.ds
  rw [Function.update_self] at hself
  have hother : ∀ t, t ≠ r.ds → (d.publish r).2.stream t = d.stream t := fun t hne =>
    (congrFun hstream t).trans (Function.update_of_ne hne _ _)
  exact
    { blank := fun t hle => by
        have hle : d.nextDs ≤ t := hnext ▸ hle
        rw [hother t (by omega)]
        exact hc.blank t hle
      fins := total_eq hs hstream hnext hc.fins hfins
      settlements := total_eq hs hstream hnext hc.settlements (congrArg (· + _) hsets)
      decisions := total_eq hs hstream hnext hc.decisions (congrArg (· + _) hdecs)
      sends := by
        rw [List.countP_cons, ← hc.sends]
        exact hsends
      streamSends := fun t => by
        rw [List.countP_cons, ← hc.streamSends t]
        obtain rfl | hne := eq_or_ne t r.ds
        · refine (congrArg Dstream.flushSends hself).trans ?_
          simp
        · rw [hother t hne]
          simp [Ne.symm hne]
      required := fun t => by
        obtain rfl | hne := eq_or_ne t r.ds
        · have hreq := congrArg Dstream.flushRequiredSends hself
          have heq := congrArg Dstream.flushEpoch hself
          refine hreq.trans ?_
          rw [List.countP_cons, show ((d.publish r).2.stream r.ds).flushEpoch = _ from heq,
            ← hc.required r.ds]
          simp [hepoch]
        · rw [hother t hne, List.countP_cons, ← hc.required t]
          simp [Ne.symm hne]
      refs := fun t => by
        rw [List.countP_cons, ← hc.refs t]
        obtain rfl | hne := eq_or_ne t r.ds
        · refine (congrArg Dstream.sendRefs hself).trans ?_
          simp
        · rw [hother t hne]
          simp [Ne.symm hne]
      pending := by rw [(Driver.publish_rest r).2.2.2, hc.pending, List.length_cons]
      live := fun q hq => by
        have hnextDs : (d.publish r).2.nextDs = d.nextDs := hnext
        have hsame : ∀ t, ((d.publish r).2.stream t).flushEpoch = (d.stream t).flushEpoch := by
          intro t
          obtain rfl | hne := eq_or_ne t r.ds
          · exact (congrArg Dstream.flushEpoch hself :)
          · rw [hother t hne]
        rw [hnextDs, hsame]
        obtain rfl | hq := List.mem_cons.mp hq
        · exact ⟨hs, Nat.le_of_eq hepoch⟩
        · exact hc.live q hq
      framed := by
        have hnextDs : (d.publish r).2.nextDs = d.nextDs := hnext
        have hsame : (d.publish r).2.frames = d.frames := hframes
        rw [hsame, hnextDs]
        exact hc.framed }

/-- A record comes back, by its completion or because it was refused. -/
theorem drop {e : Dstream} (hc : Counted (r :: out) d)
    (hstream : d'.stream = Function.update d.stream r.ds e) (hnext : d'.nextDs = d.nextDs)
    (hframes : d'.frames = d.frames) (hpending : d'.pendingSends = sizeDec d.pendingSends)
    (hsends : d'.flushSends = if r.flushBytes then sizeDec d.flushSends else d.flushSends)
    (hfins : d'.flushFins + (d.stream r.ds).flushFin.toNat = d.flushFins + e.flushFin.toNat)
    (hsets : d'.flushSettlements + (d.stream r.ds).flushSettling.toNat
      = d.flushSettlements + e.flushSettling.toNat)
    (hdecs : d'.flushDecisions + (d.stream r.ds).flushDecision.length
      = d.flushDecisions + e.flushDecision.length)
    (hepoch : e.flushEpoch = (d.stream r.ds).flushEpoch)
    (hrefs : e.sendRefs = sizeDec (d.stream r.ds).sendRefs)
    (hssends : e.flushSends = if r.flushBytes then sizeDec (d.stream r.ds).flushSends
      else (d.stream r.ds).flushSends)
    (hreq : e.flushRequiredSends =
      if r.flushBytes && r.flushEpoch == (d.stream r.ds).flushEpoch then
        sizeDec (d.stream r.ds).flushRequiredSends
      else (d.stream r.ds).flushRequiredSends) : Counted out d' := by
  have hs := (hc.live r List.mem_cons_self).1
  have hself : d'.stream r.ds = e := by rw [hstream, Function.update_self]
  have hother : ∀ t, t ≠ r.ds → d'.stream t = d.stream t := fun t hne => by
    rw [hstream, Function.update_of_ne hne]
  exact
    { blank := fun t hle => by
        rw [hnext] at hle
        rw [hother t (by omega)]
        exact hc.blank t hle
      fins := total_eq hs hstream hnext hc.fins hfins
      settlements := total_eq hs hstream hnext hc.settlements hsets
      decisions := total_eq hs hstream hnext hc.decisions hdecs
      sends := by
        have hcount := hc.sends
        rw [List.countP_cons] at hcount
        rw [hsends]
        split
        · next hb => rw [hcount, if_pos hb, Driver.sizeDec_succ]
        · next hb => rw [hcount, if_neg hb, Nat.add_zero]
      streamSends := fun t => by
        have hcount := hc.streamSends t
        rw [List.countP_cons] at hcount
        obtain rfl | hne := eq_or_ne t r.ds
        · rw [hself, hssends, hcount]
          cases r.flushBytes <;> simp [Driver.sizeDec_succ]
        · rw [hother t hne, hcount]
          simp [Ne.symm hne]
      required := fun t => by
        have hcount := hc.required t
        rw [List.countP_cons] at hcount
        obtain rfl | hne := eq_or_ne t r.ds
        · rw [hself, hreq, hcount, hepoch]
          cases r.flushBytes <;> cases r.flushEpoch == (d.stream r.ds).flushEpoch <;>
            simp [Driver.sizeDec_succ]
        · rw [hother t hne, hcount]
          simp [Ne.symm hne]
      refs := fun t => by
        have hcount := hc.refs t
        rw [List.countP_cons] at hcount
        obtain rfl | hne := eq_or_ne t r.ds
        · rw [hself, hrefs, hcount]
          simp [Driver.sizeDec_succ]
        · rw [hother t hne, hcount]
          simp [Ne.symm hne]
      pending := by rw [hpending, hc.pending, List.length_cons, Driver.sizeDec_succ]
      live := fun q hq => by
        rw [hnext]
        refine ⟨(hc.live q (List.mem_cons_of_mem r hq)).1, ?_⟩
        have hle := (hc.live q (List.mem_cons_of_mem r hq)).2
        obtain heq | hne := eq_or_ne q.ds r.ds
        · rw [heq] at hle ⊢
          rw [hself, hepoch]
          exact hle
        · rw [hother _ hne]
          exact hle
      framed := by rw [hframes, hnext]; exact hc.framed }

/-- A submission that MsQuic accepted. -/
theorem accepted (hc : Counted out d) (hs : r.ds < d.nextDs)
    (hepoch : r.flushEpoch = (d.stream r.ds).flushEpoch) :
    Counted (r :: out) (d.submit r true) :=
  (hc.publish hs hepoch).like rfl fun _ => .inl

/-- A submission that MsQuic refused is undone, as long as nothing happened to its stream. -/
theorem unpublish {newFin : Bool} (hc : Counted (r :: out) d)
    (hepoch : r.flushEpoch = (d.stream r.ds).flushEpoch)
    (hfin : newFin = true → (d.stream r.ds).flushFin = true) :
    Counted out (d.unpublish r newFin) := by
  have hs := (hc.live r List.mem_cons_self).1
  have hreq : (r.flushBytes && r.flushEpoch == (d.stream r.ds).flushEpoch) = r.flushBytes := by
    rw [hepoch, beq_self_eq_true, Bool.and_true]
  obtain ⟨hnext, hframes, -, hpending, hsends, hfins, hsets, hdecs⟩ :=
    Driver.unpublish_rest (d := d) r newFin
  refine hc.drop (Driver.unpublish_stream r newFin) hnext hframes hpending hsends ?_ (by rw [hsets])
    (by rw [hdecs]) rfl rfl rfl (by rw [hreq])
  rw [hfins]
  cases newFin with
  | false => rfl
  | true =>
    have hpos := (hc.covers hs).fins
    rw [hfin rfl] at hpos ⊢
    simp only [Bool.toNat_true, if_true, Bool.not_true, Bool.false_and, Bool.toNat_false] at hpos ⊢
    rw [sizeDec_of_pos hpos]
    omega

/-- A bare FIN is published. -/
theorem turn_fin : Turn s { d.stream s with flushFin := true } [] d
    (d.flushBegin s false true).2 := by
  cases hf : (d.stream s).flushFin with
  | true =>
    have he : { d.stream s with flushFin := true } = d.stream s := by rw [← hf]
    rw [he]
    simpa [Driver.flushBegin, hf] using Turn.refl
  | false =>
    simp only [Driver.flushBegin, hf, Bool.false_eq_true, if_false, Bool.not_false, Bool.and_self,
      if_true]
    exact ⟨rfl, rfl, rfl, rfl, rfl, rfl, rfl, by simp [hf], rfl, rfl⟩

theorem fin (hc : Counted out d) (hs : s < d.nextDs) :
    Counted out (d.flushBegin s false true).2 := by
  refine hc.turn hs turn_fin ?_ rfl rfl (.inl ⟨rfl, rfl⟩)
  unfold Driver.flushBegin
  simp only [Bool.false_eq_true, if_false]
  split <;> rfl

/-- A refused bare FIN is undone. -/
theorem unfin {newFin : Bool} (hc : Counted out d) (hs : s < d.nextDs)
    (hfin : newFin = true → (d.stream s).flushFin = true) :
    Counted out (d.flushRollback s false newFin) := by
  cases newFin with
  | false => exact hc
  | true =>
    have hdrop : d.flushRollback s false true = d.dropFin s := by
      rw [Driver.dropFin, if_pos (hfin rfl)]
      rfl
    rw [hdrop]
    exact hc.shift hs (Shift.dropFin (hc.covers hs))

theorem opened (hc : Counted out d) (isLocal isBidi critical pooled attached : Bool) :
    Counted out (d.openStream isLocal isBidi critical pooled attached) := by
  have hnew := hc.blank d.nextDs le_rfl
  have hself : (d.openStream isLocal isBidi critical pooled attached).stream d.nextDs
      = { isLocal, isBidi, pooled, localCritical := critical, ectx := attached } :=
    Function.update_self ..
  have hother : ∀ t, t ≠ d.nextDs →
      (d.openStream isLocal isBidi critical pooled attached).stream t = d.stream t :=
    fun t hne => Function.update_of_ne hne ..
  have htotal : ∀ g : Dstream → Nat,
      g { isLocal, isBidi, pooled, localCritical := critical, ectx := attached } = 0 →
      (d.openStream isLocal isBidi critical pooled attached).total g = d.total g := by
    intro g hz
    unfold Driver.total
    rw [show (d.openStream isLocal isBidi critical pooled attached).nextDs = d.nextDs + 1 from rfl,
      Finset.sum_range_succ, hself, hz, Nat.add_zero]
    refine Finset.sum_congr rfl fun t ht => ?_
    rw [hother t (Nat.ne_of_lt (Finset.mem_range.mp ht))]
  exact
    { blank := fun t hlt => by
        have hlt : d.nextDs < t := hlt
        rw [hother t (Nat.ne_of_gt hlt)]
        exact hc.blank t (Nat.le_of_lt hlt)
      fins := by rw [htotal _ rfl]; exact hc.fins
      settlements := by rw [htotal _ rfl]; exact hc.settlements
      decisions := by rw [htotal _ rfl]; exact hc.decisions
      sends := hc.sends
      streamSends := fun t => by
        obtain rfl | hne := eq_or_ne t d.nextDs
        · have hzero := hc.streamSends d.nextDs
          rw [hnew] at hzero
          rw [hself]
          exact hzero
        · rw [hother t hne]
          exact hc.streamSends t
      required := fun t => by
        obtain rfl | hne := eq_or_ne t d.nextDs
        · have hzero := hc.required d.nextDs
          rw [hnew] at hzero
          rw [hself]
          exact hzero
        · rw [hother t hne]
          exact hc.required t
      refs := fun t => by
        obtain rfl | hne := eq_or_ne t d.nextDs
        · have hzero := hc.refs d.nextDs
          rw [hnew] at hzero
          rw [hself]
          exact hzero
        · rw [hother t hne]
          exact hc.refs t
      pending := hc.pending
      live := fun r hr => by
        have hlive := hc.live r hr
        rw [hother _ (Nat.ne_of_lt hlive.1)]
        exact ⟨Nat.lt_succ_of_lt hlive.1, hlive.2⟩
      framed := fun f hf t ht => Nat.lt_succ_of_lt (hc.framed f hf t ht) }

theorem push (hc : Counted out d) (f : Frame) (hf : ∀ t, f.ds = some t → t < d.nextDs) :
    Counted out (d.push f) := by
  refine hc.like rfl fun g hg => ?_
  obtain rfl | hg := List.mem_cons.mp hg
  · exact .inr hf
  · exact .inl hg

theorem collect (hc : Counted out d) (hs : s < d.nextDs) : Counted out (d.collect s) := by
  unfold Driver.collect
  split
  · dsimp only
    have hsettle : Counted out (if (d.stream s).flushSettling then
        { d.flushFail.modDs s fun e => { e with flushSettling := false }
          with flushSettlements := sizeDec d.flushSettlements }
        else d) := by
      split
      · next hset =>
        have hpos := (hc.covers hs).settlements
        rw [hset, Bool.toNat_true] at hpos
        have hturn : Turn s { d.stream s with flushSettling := false } [] d
            { d.flushFail.modDs s fun e => { e with flushSettling := false }
              with flushSettlements := sizeDec d.flushSettlements } := by
          refine ⟨rfl, rfl, rfl, rfl, rfl, rfl, rfl, rfl, ?_, rfl⟩
          simp only [sizeDec_of_pos hpos, hset, Bool.toNat_true, Bool.toNat_false]
          omega
        exact hc.turn hs hturn rfl rfl rfl (.inl ⟨rfl, rfl⟩)
      · exact hc
    have hnext : (if (d.stream s).flushSettling then
        { d.flushFail.modDs s fun e => { e with flushSettling := false }
          with flushSettlements := sizeDec d.flushSettlements }
        else d).nextDs = d.nextDs := by
      split <;> rfl
    exact hsettle.turn (hnext ▸ hs) (Turn.modDs rfl rfl rfl) rfl rfl rfl (.inl ⟨rfl, rfl⟩)
  · exact hc

/-- `SEND_COMPLETE` is the return of its record, a settlement, and the reports. -/
theorem sendComplete_eq (r : SendRec) (canceled : Bool) : d.sendComplete r canceled =
    let u := (d.giveBack r canceled).flushSettle r.ds
    if r.gather then
      (((u.modDs r.ds fun e => { e with inflightBytes := e.inflightBytes - r.bytes }).push
        .flushed).push (.writable r.ds)).report (.sendComplete r.cookie canceled)
    else u.push .flushed := by
  have hsettle : ∀ u : Driver, ({ u.flushSettle r.ds with
      borrowed := u.borrowed.erase r
      pendingSends := sizeDec u.pendingSends } : Driver).record (.returned r canceled)
      = ({ u with
        borrowed := u.borrowed.erase r
        pendingSends := sizeDec u.pendingSends }.record (.returned r canceled)).flushSettle r.ds := by
    intro u
    by_cases hset : (u.stream r.ds).settles
    · have hleft : u.flushSettle r.ds = _ := if_pos hset
      rw [hleft]
      exact (if_pos hset).symm
    · have hleft : u.flushSettle r.ds = u := if_neg hset
      rw [hleft]
      exact (if_neg hset).symm
  unfold Driver.sendComplete Driver.giveBack
  dsimp only
  rw [hsettle]

theorem epoch_lossOf (r : SendRec) (canceled : Bool) :
    ((Good.lossOf r canceled d).stream r.ds).flushEpoch = (d.stream r.ds).flushEpoch := by
  have hdrop : ∀ u : Driver, ((u.dropFin r.ds).stream r.ds).flushEpoch
      = (u.stream r.ds).flushEpoch := by
    intro u
    unfold Driver.dropFin
    split
    · simp [Driver.modDs]
    · rfl
  have hcancel : ∀ u : Driver, ((u.flushCancelLoss r.ds).stream r.ds).flushEpoch
      = (u.stream r.ds).flushEpoch := by
    intro u
    unfold Driver.flushCancelLoss
    split
    · rfl
    · simp [Driver.modDs]
  have hmark : ((if canceled && (r.flushBytes || r.flushFin) then
      d.modDs r.ds fun e => { e with flushOutputCanceled := true } else d).stream r.ds).flushEpoch
      = (d.stream r.ds).flushEpoch := by
    split
    · simp [Driver.modDs]
    · rfl
  unfold Good.lossOf
  dsimp only
  generalize (if canceled && (r.flushBytes || r.flushFin) then
    d.modDs r.ds fun e => { e with flushOutputCanceled := true } else d) = u at hmark ⊢
  split
  · split
    · rw [hdrop, hcancel, hmark]
    · rw [hcancel, hmark]
  · exact hmark

/-- What a completed record leaves behind when it is given back. -/
theorem giveBack_stream (r : SendRec) (canceled : Bool) :
    (d.giveBack r canceled).stream = Function.update (Good.lossOf r canceled d).stream r.ds
      (Good.completed r (r.flushEpoch == (d.stream r.ds).flushEpoch)
        ((Good.lossOf r canceled d).stream r.ds)) := by
  simp only [Driver.giveBack, Good.flushComplete_eq, Driver.modDs, Driver.completeBytes,
    Driver.record]
  cases hb : r.flushBytes <;> simp [Good.completed, hb, Function.update_idem]

theorem giveBack_rest (r : SendRec) (canceled : Bool) :
    (d.giveBack r canceled).nextDs = (Good.lossOf r canceled d).nextDs ∧
      (d.giveBack r canceled).frames = (Good.lossOf r canceled d).frames ∧
      (d.giveBack r canceled).borrowed = (Good.lossOf r canceled d).borrowed.erase r ∧
      (d.giveBack r canceled).log = .returned r canceled :: (Good.lossOf r canceled d).log ∧
      (d.giveBack r canceled).pendingSends = sizeDec (Good.lossOf r canceled d).pendingSends ∧
      (d.giveBack r canceled).flushSends = (if r.flushBytes then
        sizeDec (Good.lossOf r canceled d).flushSends
        else (Good.lossOf r canceled d).flushSends) ∧
      (d.giveBack r canceled).flushFins = (Good.lossOf r canceled d).flushFins ∧
      (d.giveBack r canceled).flushSettlements = (Good.lossOf r canceled d).flushSettlements ∧
      (d.giveBack r canceled).flushDecisions = (Good.lossOf r canceled d).flushDecisions := by
  simp only [Driver.giveBack, Good.flushComplete_eq, Driver.modDs, Driver.completeBytes,
    Driver.record]
  split <;> exact ⟨rfl, rfl, rfl, rfl, rfl, rfl, rfl, rfl, rfl⟩

/-- A completion gives back its record. -/
theorem giveBack {subs : List SendRec} (hc : Counted (subs ++ d.borrowed) d) (hm : r ∈ d.borrowed)
    (canceled : Bool) :
    Counted (subs ++ (d.giveBack r canceled).borrowed) (d.giveBack r canceled) := by
  have hlt := (hc.live r (List.mem_append_right subs hm)).1
  have hloss : Shift r.ds [] d (Good.lossOf r canceled d) := Shift.lossOf (hc.covers hlt)
  have hperm : (subs ++ d.borrowed).Perm (r :: (subs ++ d.borrowed.erase r)) :=
    ((List.perm_cons_erase hm).append_left subs).trans List.perm_middle
  have hout := (hc.perm hperm).shift hlt hloss
  obtain ⟨hnext, hframes, hborrowed, -, hpending, hsends, hfins, hsets, hdecs⟩ :=
    giveBack_rest (d := d) r canceled
  rw [hborrowed, hloss.turn.borrowed]
  refine hout.drop (giveBack_stream r canceled) hnext hframes hpending hsends ?_ ?_ ?_ rfl rfl rfl ?_
  · rw [hfins]
    rfl
  · rw [hsets]
    rfl
  · rw [hdecs]
    rfl
  · rw [epoch_lossOf]
    rfl

end Counted
end Wtquic.Msquic
