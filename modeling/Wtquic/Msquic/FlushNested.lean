-- SUMMARY: Events inside refused sends, and what holds of the counters through all of them.
import Mathlib.Algebra.BigOperators.Group.Finset.Piecewise
import Mathlib.Algebra.BigOperators.Ring.Finset
import Wtquic.Msquic.FlushEffect

namespace Wtquic.Msquic

open Finset (range)

/-! # Refused sends

MsQuic may work on other streams before it refuses a send. The submission is published meanwhile,
and withdrawn when the call returns. -/

/-- A submission that is going to be refused; one without a record is a bare FIN. -/
structure Submission where
  ds : Nat
  record : Option SendRec
  newFin : Bool
  deriving DecidableEq, Repr

/-- The send half of a connection, and the refused submissions under way, the innermost first. -/
structure Sends where
  driver : Driver := {}
  refusing : List Submission := []

variable {x x' : Sends}

namespace Sends

/-- The records that MsQuic was given and that neither came back nor were refused. -/
def outstanding (x : Sends) : List SendRec :=
  x.refusing.filterMap Submission.record ++ x.driver.borrowed

/-- Publish a record that is going to be refused, with the bytes of a gather send. -/
def refuse (r : SendRec) (x : Sends) : Sends :=
  let (newFin, d) := (x.driver.modDs r.ds fun e =>
    { e with inflightBytes := e.inflightBytes + r.bytes }).publish r
  { driver := d, refusing := { ds := r.ds, record := some r, newFin } :: x.refusing }

/-- Publish a bare FIN that is going to be refused. -/
def refuseFin (s : Nat) (x : Sends) : Sends :=
  let (newFin, d) := x.driver.flushBegin s false true
  { driver := d, refusing := { ds := s, record := none, newFin } :: x.refusing }

/-- Behind the refusal. -/
def undo (sub : Submission) (d : Driver) : Driver :=
  match sub.record with
  | some r => (d.unpublish r sub.newFin).modDs r.ds fun e =>
    { e with inflightBytes := e.inflightBytes - r.bytes }
  | none => d.flushRollback sub.ds false sub.newFin

/-- No event is about a stream while a send on it is being refused. -/
inductive Step : Sends → Sends → Prop where
  | event {x : Sends} (ev : Event) (ha : ev.allowed x.driver)
      (hs : ∀ s, ev.touches x.driver = some s → s ∉ x.refusing.map Submission.ds) :
      Step x { x with driver := x.driver.apply ev }
  | refuse {x : Sends} (r : SendRec) (hds : r.ds < x.driver.nextDs)
      (hlive : (x.driver.stream r.ds).collected = false)
      (hs : r.ds ∉ x.refusing.map Submission.ds)
      (hepoch : r.flushEpoch = (x.driver.stream r.ds).flushEpoch) : Step x (x.refuse r)
  | refuseFin {x : Sends} (s : Nat) (hds : s < x.driver.nextDs)
      (hlive : (x.driver.stream s).collected = false)
      (hs : s ∉ x.refusing.map Submission.ds) : Step x (x.refuseFin s)
  | refused {x : Sends} {sub : Submission} {subs : List Submission}
      (h : x.refusing = sub :: subs) :
      Step x { driver := undo sub x.driver, refusing := subs }

inductive Reachable : Sends → Prop where
  | init : Reachable {}
  | step {x x' : Sends} (h : Reachable x) (hstep : Step x x') : Reachable x'

end Sends

/-- A FIN of stream `s` was accepted after the stream was gone. -/
def LateFin (s : Nat) : History → Prop
  | [] => False
  | f :: h => f.acceptsFin s ∧ .gone s ∈ h ∨ LateFin s h

theorem LateFin.append {s : Nat} {h : History} (hlate : LateFin s h) (l : History) :
    LateFin s (l ++ h) := by
  induction l with
  | nil => exact hlate
  | cons f l ih => exact .inr ih

theorem LateFin.of_mem {s : Nat} {l h : History} {f : Fact} (hf : f ∈ l) (hacc : f.acceptsFin s)
    (hgone : .gone s ∈ h) : LateFin s (l ++ h) := by
  induction l with
  | nil => cases hf
  | cons g l ih =>
    obtain rfl | hf := List.mem_cons.mp hf
    · exact .inl ⟨hacc, List.mem_append_right l hgone⟩
    · exact .inr (ih hf)

/-- What a retirement writes. -/
theorem Driver.collect_eq {s : Nat} {d : Driver} (h : collectable (d.stream s)) :
    (d.collect s).stream = Function.update d.stream s
        { d.stream s with flushSettling := false, stream := false, collected := true } ∧
      (d.collect s).log = d.log ∧ (d.collect s).borrowed = d.borrowed ∧
      (d.collect s).nextDs = d.nextDs ∧ (d.collect s).frames = d.frames := by
  unfold collect
  rw [if_pos h]
  cases hset : (d.stream s).flushSettling with
  | true => simp [modDs, Driver.flushFail]
  | false =>
    have he : { d.stream s with stream := false, collected := true } =
        { d.stream s with flushSettling := false, stream := false, collected := true } := by
      rw [← hset]
    rw [← he]
    exact ⟨rfl, rfl, rfl, rfl, rfl⟩

namespace Sends

/-- What holds in every state. -/
structure Inv (x : Sends) : Prop where
  counted : Counted x.outstanding x.driver
  subs : ∀ sub ∈ x.refusing, sub.ds < x.driver.nextDs ∧
    (x.driver.stream sub.ds).collected = false ∧
    (∀ r ∈ sub.record, r.ds = sub.ds ∧ r.flushEpoch = (x.driver.stream sub.ds).flushEpoch) ∧
    (sub.newFin = true → (x.driver.stream sub.ds).flushFin = true)
  distinct : (x.refusing.map Submission.ds).Nodup
  done : ∀ s, (x.driver.stream s).shutdownComplete → .gone s ∈ x.driver.log
  late : ∀ s, .gone s ∈ x.driver.log → (x.driver.stream s).flushFin →
    LateFin s x.driver.log ∨ ∃ sub ∈ x.refusing, sub.ds = s ∧ sub.newFin = true
  retired : ∀ s, (x.driver.stream s).collected → .gone s ∈ x.driver.log ∧
    (x.driver.stream s).sendRefs = 0 ∧ (x.driver.stream s).flushSettling = false ∧
    ∀ f ∈ x.driver.frames, f.ds ≠ some s

/-- No counter is moved up by more than one, as a decrement at zero would. -/
structure NoWrap (d d' : Driver) : Prop where
  pending : d'.pendingSends ≤ d.pendingSends + 1
  sends : d'.flushSends ≤ d.flushSends + 1
  fins : d'.flushFins ≤ d.flushFins + 1
  settlements : d'.flushSettlements ≤ d.flushSettlements + 1
  streamSends : ∀ s, (d'.stream s).flushSends ≤ (d.stream s).flushSends + 1
  required : ∀ s, (d'.stream s).flushRequiredSends ≤ (d.stream s).flushRequiredSends + 1

theorem NoWrap.refl (d : Driver) : NoWrap d d where
  pending := Nat.le_succ _
  sends := Nat.le_succ _
  fins := Nat.le_succ _
  settlements := Nat.le_succ _
  streamSends := fun _ => Nat.le_succ _
  required := fun _ => Nat.le_succ _

/-- The total of a flag when one stream has been written. -/
theorem total_le {d d' : Driver} {g : Dstream → Nat} {s : Nat} (hg : ∀ e, g e ≤ 1)
    (hblank : ∀ t, d.nextDs ≤ t → g (d.stream t) = 0)
    (hother : ∀ t, t ≠ s → d'.stream t = d.stream t) (hnext : d.nextDs ≤ d'.nextDs) :
    d'.total g ≤ d.total g + 1 := by
  have hbeyond : ∑ t ∈ range d'.nextDs, g (d.stream t) = d.total g := by
    refine (Finset.sum_subset (Finset.range_mono hnext) fun t _ ht => ?_).symm
    exact hblank t (Nat.le_of_not_lt fun h => ht (Finset.mem_range.mpr h))
  have hone : d'.total g ≤ ∑ t ∈ range d'.nextDs, (g (d.stream t) + if t = s then 1 else 0) := by
    refine Finset.sum_le_sum fun t _ => ?_
    split
    · exact Nat.le_trans (hg _) (Nat.le_add_left 1 _)
    · next hne => rw [hother t hne, Nat.add_zero]
  rw [Finset.sum_add_distrib, hbeyond] at hone
  refine Nat.le_trans hone (Nat.add_le_add_left ?_ _)
  rw [Finset.sum_ite_eq']
  split
  · exact Nat.le_refl 1
  · exact Nat.zero_le 1

theorem NoWrap.of_counted {out out' : List SendRec} {d d' : Driver} {s : Nat}
    (hc : Counted out d) (hc' : Counted out' d') (hgrown : Grown out out')
    (hother : ∀ t, t ≠ s → d'.stream t = d.stream t) (hnext : d.nextDs ≤ d'.nextDs)
    (hepoch : ∀ t, (d.stream t).flushEpoch ≤ (d'.stream t).flushEpoch) : NoWrap d d' := by
  obtain ⟨r, hgrown⟩ := hgrown
  have hone : ∀ p : SendRec → Bool, out'.countP p ≤ out.countP p + 1 := fun p => by
    have hle := hgrown p
    split at hle <;> omega
  refine ⟨?_, ?_, ?_, ?_, fun t => ?_, fun t => ?_⟩
  · have hall := hone fun _ => true
    simp only [List.countP_true] at hall
    rwa [hc.pending, hc'.pending]
  · rw [hc.sends, hc'.sends]
    exact hone _
  · rw [hc.fins, hc'.fins]
    exact total_le (fun e => Bool.toNat_le _) (fun t ht => by rw [hc.blank t ht]; rfl) hother hnext
  · rw [hc.settlements, hc'.settlements]
    exact total_le (fun e => Bool.toNat_le _) (fun t ht => by rw [hc.blank t ht]; rfl) hother hnext
  · rw [hc.streamSends, hc'.streamSends]
    exact hone _
  · rw [hc.required, hc'.required]
    obtain heq | hlt := Nat.eq_or_lt_of_le (hepoch t)
    · rw [← heq]
      exact hone _
    · -- a record of an epoch that has just begun is the one that was added
      have hzero : out.countP (fun r => r.flushBytes && r.ds == t &&
          r.flushEpoch == (d'.stream t).flushEpoch) = 0 := by
        rw [List.countP_eq_zero]
        intro q hq
        simp only [Bool.and_eq_true, beq_iff_eq, not_and]
        rintro ⟨-, rfl⟩
        have hle := (hc.live q hq).2
        omega
      have hle := hone fun r => r.flushBytes && r.ds == t &&
        r.flushEpoch == (d'.stream t).flushEpoch
      rw [hzero] at hle
      omega

namespace Inv

theorem init : Inv {} where
  counted := Counted.init
  subs := nofun
  distinct := List.nodup_nil
  done := nofun
  late := nofun
  retired := nofun

/-- The stream an event writes has not been retired. -/
theorem touched_live (h : x.Inv) (ev : Event) (ha : ev.allowed x.driver) {s : Nat}
    (hs : ev.touches x.driver = some s) : (x.driver.stream s).collected = false := by
  have hframe : ∀ f ∈ x.driver.frames, f.ds = some s →
      (x.driver.stream s).collected = false := by
    intro f hf hds
    cases hcol : (x.driver.stream s).collected with
    | false => rfl
    | true => exact absurd hds ((h.retired s hcol).2.2.2 f hf)
  cases ev with
  | opened isLocal isBidi critical pooled attached =>
    obtain rfl := Option.some.inj hs
    rw [h.counted.blank _ le_rfl]
  | sendComplete r canceled =>
    obtain rfl := Option.some.inj hs
    have hm : r ∈ x.driver.borrowed := by simpa [Event.allowed] using ha
    cases hcol : (x.driver.stream r.ds).collected with
    | false => rfl
    | true =>
      -- the record that comes back holds a reference
      have hrefs := (h.retired _ hcol).2.1
      rw [h.counted.refs, List.countP_eq_zero] at hrefs
      exact absurd (beq_self_eq_true r.ds) (hrefs r (List.mem_append_right _ hm))
  | shutdownReturned first second =>
    obtain ⟨f, hf, hds⟩ := Option.bind_eq_some_iff.mp hs
    exact hframe f (List.mem_of_mem_head? hf) hds
  | returned =>
    obtain ⟨f, hf, hds⟩ := Option.bind_eq_some_iff.mp hs
    exact hframe f (List.mem_of_mem_head? hf) hds
  | _ => simp_all [Event.allowed, Event.touches, Event.ds]

/-- An event that keeps the counters true, and writes one stream at most. -/
theorem keeps {o : Option Nat} {d' : Driver} (h : x.Inv)
    (hk : Keeps (x.refusing.filterMap Submission.record) o x.driver d')
    (hs : ∀ s, o = some s → s ∉ x.refusing.map Submission.ds)
    (hlive : ∀ s, o = some s → (x.driver.stream s).collected = false) :
    ({ x with driver := d' } : Sends).Inv := by
  obtain ⟨l, he⟩ := hk.effect
  exact
    { counted := hk.counted
      subs := fun sub hsub => by
        have hother : d'.stream sub.ds = x.driver.stream sub.ds :=
          he.other _ fun ho => hs _ ho (List.mem_map_of_mem hsub)
        obtain ⟨hlt, hrest⟩ := h.subs sub hsub
        exact ⟨Nat.lt_of_lt_of_le hlt he.nextDs, by rwa [hother]⟩
      distinct := h.distinct
      done := fun s hd => by
        rw [he.log]
        obtain hd | hg := he.done s hd
        · exact List.mem_append_right l (h.done s hd)
        · exact List.mem_append_left _ hg
      late := fun s hg hf => by
        rw [he.log] at hg ⊢
        obtain hg | hg := List.mem_append.mp hg
        · rw [he.gone s hg] at hf
          cases hf
        · obtain hf | ⟨f, hf, hacc⟩ := he.fin s hf
          · exact (h.late s hg hf).imp_left fun hlate => hlate.append l
          · exact .inl (LateFin.of_mem hf hacc hg)
      retired := fun s hcol => by
        rw [he.collected] at hcol
        have hne : o ≠ some s := fun ho => by
          rw [hlive s ho] at hcol
          cases hcol
        obtain ⟨hg, hrefs, hset, hframes⟩ := h.retired s hcol
        rw [he.other s hne, he.log]
        refine ⟨List.mem_append_right l hg, hrefs, hset, fun f hf => ?_⟩
        obtain hf | hf | hf := he.frames f hf
        · exact hframes f hf
        · rw [hf]
          exact nofun
        · rw [hf]
          exact hne }

/-- A retirement. -/
theorem collect (h : x.Inv) {s : Nat} (ha : (Event.collect s).allowed x.driver)
    (hs : s ∉ x.refusing.map Submission.ds) :
    ({ x with driver := x.driver.collect s } : Sends).Inv := by
  obtain ⟨⟨hidle, hlt⟩, -⟩ : (x.driver.frames = [] ∧ s < x.driver.nextDs) ∧
      (x.driver.stream s).collected = false := by
    simpa [Event.allowed] using ha
  have hcounted := h.counted.collect hlt
  by_cases hcan : Driver.collectable (x.driver.stream s)
  · obtain ⟨hstream, hlog, hborrowed, hnext, hframes⟩ := Driver.collect_eq hcan
    obtain ⟨⟨⟨⟨hdone, -⟩, hrefs⟩, -⟩, -⟩ :
        ((((x.driver.stream s).shutdownComplete ∧ _) ∧ (x.driver.stream s).sendRefs = 0) ∧ _) ∧ _ := by
      simpa [Driver.collectable] using hcan
    have hself : (x.driver.collect s).stream s = { x.driver.stream s with
        flushSettling := false, stream := false, collected := true } := by
      rw [hstream, Function.update_self]
    have hother : ∀ t, t ≠ s → (x.driver.collect s).stream t = x.driver.stream t := by
      intro t hne
      rw [hstream, Function.update_of_ne hne]
    exact
      { counted := by
          rw [show ({ x with driver := x.driver.collect s } : Sends).outstanding
            = x.refusing.filterMap Submission.record ++ (x.driver.collect s).borrowed from rfl,
            hborrowed]
          exact hcounted
        subs := fun sub hsub => by
          have hne : sub.ds ≠ s := fun heq => hs (heq ▸ List.mem_map_of_mem hsub)
          rw [hother _ hne, hnext]
          exact h.subs sub hsub
        distinct := h.distinct
        done := fun t hd => by
          rw [hlog]
          obtain rfl | hne := eq_or_ne t s
          · exact h.done t hdone
          · rw [hother t hne] at hd
            exact h.done t hd
        late := fun t hg hf => by
          rw [hlog] at hg ⊢
          obtain rfl | hne := eq_or_ne t s
          · rw [hself] at hf
            exact h.late t hg hf
          · rw [hother t hne] at hf
            exact h.late t hg hf
        retired := fun t hcol => by
          rw [hlog, hframes]
          obtain rfl | hne := eq_or_ne t s
          · rw [hself]
            refine ⟨h.done t hdone, hrefs, rfl, ?_⟩
            rw [hidle]
            exact fun f hf => absurd hf List.not_mem_nil
          · rw [hother t hne] at hcol ⊢
            exact h.retired t hcol }
  · rw [show x.driver.collect s = x.driver from if_neg hcan]
    exact h

end Inv
end Sends

/-! ## Submissions -/

/-- A submission is published or withdrawn on stream `s`. -/
structure Submits (s : Nat) (d d' : Driver) : Prop where
  other : ∀ t, t ≠ s → d'.stream t = d.stream t
  log : d'.log = d.log
  borrowed : d'.borrowed = d.borrowed
  nextDs : d'.nextDs = d.nextDs
  frames : d'.frames = d.frames
  collected : (d'.stream s).collected = (d.stream s).collected
  epoch : (d'.stream s).flushEpoch = (d.stream s).flushEpoch
  done : (d'.stream s).shutdownComplete = (d.stream s).shutdownComplete

namespace Submits

variable {s : Nat} {l : History} {d d' d'' : Driver}

theorem trans (h : Submits s d d') (h' : Submits s d' d'') : Submits s d d'' where
  other := fun t ht => (h'.other t ht).trans (h.other t ht)
  log := h'.log.trans h.log
  borrowed := h'.borrowed.trans h.borrowed
  nextDs := h'.nextDs.trans h.nextDs
  frames := h'.frames.trans h.frames
  collected := h'.collected.trans h.collected
  epoch := h'.epoch.trans h.epoch
  done := h'.done.trans h.done

theorem update {e : Dstream} (hstream : d'.stream = Function.update d.stream s e)
    (hlog : d'.log = d.log) (hborrowed : d'.borrowed = d.borrowed) (hnext : d'.nextDs = d.nextDs)
    (hframes : d'.frames = d.frames) (hcollected : e.collected = (d.stream s).collected)
    (hepoch : e.flushEpoch = (d.stream s).flushEpoch)
    (hdone : e.shutdownComplete = (d.stream s).shutdownComplete) : Submits s d d' where
  other := fun t ht => by rw [hstream, Function.update_of_ne ht]
  log := hlog
  borrowed := hborrowed
  nextDs := hnext
  frames := hframes
  collected := by rw [hstream, Function.update_self, hcollected]
  epoch := by rw [hstream, Function.update_self, hepoch]
  done := by rw [hstream, Function.update_self, hdone]

theorem epochs (h : Submits s d d') (t : Nat) :
    (d.stream t).flushEpoch ≤ (d'.stream t).flushEpoch := by
  obtain rfl | hne := eq_or_ne t s
  · rw [h.epoch]
  · rw [h.other t hne]

theorem inflight (f : Nat → Nat) :
    Submits s d (d.modDs s fun e => { e with inflightBytes := f e.inflightBytes }) :=
  update rfl rfl rfl rfl rfl rfl rfl rfl

theorem publish (r : SendRec) : Submits r.ds d (d.publish r).2 := by
  obtain ⟨-, -, hnext, -, hframes, -, -⟩ := Good.submit_rest (d := d) r
  have hstream := Good.submit_stream (d := d) r
  rw [Driver.submit_eq] at hnext hframes hstream
  obtain ⟨hlog, hborrowed, -, -⟩ := Driver.publish_rest (d := d) r
  exact update hstream hlog hborrowed hnext hframes rfl rfl rfl

theorem unpublish (r : SendRec) (newFin : Bool) : Submits r.ds d (d.unpublish r newFin) := by
  obtain ⟨hnext, hframes, ⟨hlog, hborrowed⟩, -⟩ := Driver.unpublish_rest (d := d) r newFin
  exact update (Driver.unpublish_stream r newFin) hlog hborrowed hnext hframes rfl rfl rfl

theorem turn {e : Dstream} (h : Turn s e [] d d') (hcollected : e.collected = (d.stream s).collected)
    (hepoch : e.flushEpoch = (d.stream s).flushEpoch)
    (hdone : e.shutdownComplete = (d.stream s).shutdownComplete) : Submits s d d' :=
  update h.stream h.log h.borrowed h.nextDs h.frames hcollected hepoch hdone

theorem unfin (newFin : Bool) : Submits s d (d.flushRollback s false newFin) := by
  cases newFin with
  | false => exact update (Function.update_eq_self s d.stream).symm rfl rfl rfl rfl rfl rfl rfl
  | true =>
    have hstream : (d.flushRollback s false true).stream
        = Function.update d.stream s { d.stream s with flushFin := false } := rfl
    exact update hstream rfl rfl rfl rfl rfl rfl rfl

end Submits

theorem Driver.publish_fin {d : Driver} (r : SendRec) :
    ((d.publish r).2.stream r.ds).flushFin = ((d.stream r.ds).flushFin || r.flushFin) := by
  unfold publish flushBegin
  cases hb : r.flushBytes <;> cases hn : r.flushFin <;> cases hf : (d.stream r.ds).flushFin <;>
    simp [modDs, hf]

namespace Sends
namespace Inv

/-- A submission is published. -/
theorem publish (h : x.Inv) (sub : Submission) {d' : Driver} (hw : Submits sub.ds x.driver d')
    (hs : sub.ds < x.driver.nextDs) (hlive : (x.driver.stream sub.ds).collected = false)
    (hfresh : sub.ds ∉ x.refusing.map Submission.ds)
    (hcounted : Counted (outstanding { driver := d', refusing := sub :: x.refusing }) d')
    (hrecord : ∀ r ∈ sub.record, r.ds = sub.ds ∧
      r.flushEpoch = (x.driver.stream sub.ds).flushEpoch)
    (hnew : sub.newFin = true → (d'.stream sub.ds).flushFin = true)
    (hfin : (d'.stream sub.ds).flushFin →
      (x.driver.stream sub.ds).flushFin ∨ sub.newFin = true) :
    ({ driver := d', refusing := sub :: x.refusing } : Sends).Inv where
  counted := hcounted
  subs := fun q hq => by
    rw [hw.nextDs]
    obtain rfl | hq := List.mem_cons.mp hq
    · rw [hw.collected, hw.epoch]
      exact ⟨hs, hlive, hrecord, hnew⟩
    · have hne : q.ds ≠ sub.ds := fun heq => hfresh (heq ▸ List.mem_map_of_mem hq)
      rw [hw.other _ hne]
      exact h.subs q hq
  distinct := List.nodup_cons.mpr ⟨hfresh, h.distinct⟩
  done := fun s hd => by
    rw [hw.log]
    obtain rfl | hne := eq_or_ne s sub.ds
    · rw [hw.done] at hd
      exact h.done _ hd
    · rw [hw.other s hne] at hd
      exact h.done s hd
  late := fun s hg hf => by
    rw [hw.log] at hg ⊢
    have hold : (x.driver.stream s).flushFin → LateFin s x.driver.log ∨
        ∃ q ∈ sub :: x.refusing, q.ds = s ∧ q.newFin = true := by
      intro hf
      obtain hlate | ⟨q, hq, hds⟩ := h.late s hg hf
      · exact .inl hlate
      · exact .inr ⟨q, List.mem_cons_of_mem sub hq, hds⟩
    obtain rfl | hne := eq_or_ne s sub.ds
    · obtain hf | hf := hfin hf
      · exact hold hf
      · exact .inr ⟨sub, List.mem_cons_self, rfl, hf⟩
    · rw [hw.other s hne] at hf
      exact hold hf
  retired := fun s hcol => by
    have hne : s ≠ sub.ds := by
      rintro rfl
      rw [hw.collected, hlive] at hcol
      cases hcol
    rw [hw.other s hne] at hcol ⊢
    rw [hw.log, hw.frames]
    exact h.retired s hcol

/-- The innermost submission is withdrawn. -/
theorem withdraw {sub : Submission} {subs : List Submission} {d' : Driver} (h : x.Inv)
    (hx : x.refusing = sub :: subs) (hw : Submits sub.ds x.driver d')
    (hcounted : Counted (outstanding { driver := d', refusing := subs }) d')
    (hfin : (d'.stream sub.ds).flushFin →
      (x.driver.stream sub.ds).flushFin ∧ sub.newFin = false) :
    ({ driver := d', refusing := subs } : Sends).Inv := by
  have hdistinct := h.distinct
  rw [hx, List.map_cons, List.nodup_cons] at hdistinct
  have hmem : ∀ {q : Submission}, q ∈ subs → q ∈ x.refusing := fun hq =>
    hx ▸ List.mem_cons_of_mem sub hq
  exact
    { counted := hcounted
      subs := fun q hq => by
        have hne : q.ds ≠ sub.ds := fun heq => hdistinct.1 (heq ▸ List.mem_map_of_mem hq)
        rw [hw.nextDs, hw.other _ hne]
        exact h.subs q (hmem hq)
      distinct := hdistinct.2
      done := fun s hd => by
        rw [hw.log]
        obtain rfl | hne := eq_or_ne s sub.ds
        · rw [hw.done] at hd
          exact h.done _ hd
        · rw [hw.other s hne] at hd
          exact h.done s hd
      late := fun s hg hf => by
        rw [hw.log] at hg ⊢
        have hold : (x.driver.stream s).flushFin ∧ (s = sub.ds → sub.newFin = false) := by
          obtain rfl | hne := eq_or_ne s sub.ds
          · exact ⟨(hfin hf).1, fun _ => (hfin hf).2⟩
          · rw [hw.other s hne] at hf
            exact ⟨hf, fun heq => absurd heq hne⟩
        obtain hlate | ⟨q, hq, hds, hnew⟩ := h.late s hg hold.1
        · exact .inl hlate
        · rw [hx] at hq
          obtain rfl | hq := List.mem_cons.mp hq
          · rw [hold.2 hds.symm] at hnew
            cases hnew
          · exact .inr ⟨q, hq, hds, hnew⟩
      retired := fun s hcol => by
        have hlive := (h.subs sub (hx ▸ List.mem_cons_self)).2.1
        have hne : s ≠ sub.ds := by
          rintro rfl
          rw [hw.collected, hlive] at hcol
          cases hcol
        rw [hw.other s hne] at hcol ⊢
        rw [hw.log, hw.frames]
        exact h.retired s hcol }

theorem refuse (h : x.Inv) {r : SendRec} (hs : r.ds < x.driver.nextDs)
    (hlive : (x.driver.stream r.ds).collected = false)
    (hfresh : r.ds ∉ x.refusing.map Submission.ds)
    (hepoch : r.flushEpoch = (x.driver.stream r.ds).flushEpoch) : (x.refuse r).Inv := by
  have hbytes := Submits.inflight (s := r.ds) (d := x.driver) (· + r.bytes)
  have hw := hbytes.trans (Submits.publish r)
  have hshift : Shift r.ds [] x.driver (x.driver.modDs r.ds fun e =>
      { e with inflightBytes := e.inflightBytes + r.bytes }) :=
    Shift.modDs rfl rfl rfl rfl rfl rfl rfl rfl rfl
  have hcounted := (h.counted.shift hs hshift).publish hs (hepoch.trans hbytes.epoch.symm)
  have hfin : (((x.driver.modDs r.ds fun e =>
      { e with inflightBytes := e.inflightBytes + r.bytes }).publish r).2.stream r.ds).flushFin
      = ((x.driver.stream r.ds).flushFin || r.flushFin) := by
    rw [Driver.publish_fin]
    simp [Driver.modDs]
  let sub : Submission :=
    { ds := r.ds
      record := some r
      newFin := ((x.driver.modDs r.ds fun e =>
        { e with inflightBytes := e.inflightBytes + r.bytes }).publish r).1 }
  have hnewFin : sub.newFin = (r.flushFin && !(x.driver.stream r.ds).flushFin) := by
    refine (Driver.publish_fst r).trans ?_
    simp [Driver.modDs]
  refine h.publish sub hw hs hlive hfresh ?_ ?_ ?_ ?_
  · have hout : outstanding (x.refuse r) = r :: x.outstanding := by
      rw [outstanding, outstanding, ← hw.borrowed]
      rfl
    exact hout ▸ hcounted
  · rintro q ⟨⟩
    exact ⟨rfl, hepoch⟩
  · intro hnew
    rw [hnewFin, Bool.and_eq_true] at hnew
    exact hfin.trans (by rw [hnew.1, Bool.or_true])
  · intro hf
    rw [hnewFin]
    replace hf := hfin.symm.trans hf
    revert hf
    change _ → (x.driver.stream r.ds).flushFin = true ∨ _
    cases (x.driver.stream r.ds).flushFin <;> cases r.flushFin <;> decide

theorem refuseFin (h : x.Inv) {s : Nat} (hs : s < x.driver.nextDs)
    (hlive : (x.driver.stream s).collected = false)
    (hfresh : s ∉ x.refusing.map Submission.ds) : (x.refuseFin s).Inv := by
  have hturn := Counted.turn_fin (s := s) (d := x.driver)
  have hw : Submits s x.driver (x.driver.flushBegin s false true).2 := .turn hturn rfl rfl rfl
  have hfin : ((x.driver.flushBegin s false true).2.stream s).flushFin = true := by
    rw [hturn.stream_self]
  let sub : Submission :=
    { ds := s
      record := none
      newFin := (x.driver.flushBegin s false true).1 }
  refine h.publish sub hw hs hlive hfresh ?_ nofun ?_ ?_
  · have hout : outstanding (x.refuseFin s) = x.outstanding := by
      rw [outstanding, outstanding, ← hw.borrowed]
      rfl
    exact hout ▸ h.counted.fin hs
  · exact fun _ => hfin
  · intro _
    cases hf : (x.driver.stream s).flushFin with
    | true => exact .inl rfl
    | false =>
      right
      simp [sub, Driver.flushBegin, hf]

/-- What the innermost refusal takes back. -/
theorem undo (h : x.Inv) {sub : Submission} {subs : List Submission}
    (hx : x.refusing = sub :: subs) :
    x.outstanding = sub.record.toList ++
        outstanding { driver := Sends.undo sub x.driver, refusing := subs } ∧
      Submits sub.ds x.driver (Sends.undo sub x.driver) := by
  obtain ⟨-, -, hrecord, -⟩ := h.subs sub (hx ▸ List.mem_cons_self)
  cases hr : sub.record with
  | none =>
    have hundo : Sends.undo sub x.driver = x.driver.flushRollback sub.ds false sub.newFin := by
      rw [Sends.undo, hr]
    have hw : Submits sub.ds x.driver (x.driver.flushRollback sub.ds false sub.newFin) := .unfin _
    rw [hundo]
    refine ⟨?_, hw⟩
    rw [outstanding, outstanding, hw.borrowed, hx, List.filterMap_cons_none hr]
    rfl
  | some r =>
    have hundo : Sends.undo sub x.driver = (x.driver.unpublish r sub.newFin).modDs r.ds fun e =>
        { e with inflightBytes := e.inflightBytes - r.bytes } := by
      rw [Sends.undo, hr]
    have hw := (Submits.unpublish (d := x.driver) r sub.newFin).trans
      (Submits.inflight (· - r.bytes))
    rw [hundo, ← (hrecord r hr).1]
    refine ⟨?_, hw⟩
    rw [outstanding, outstanding, hw.borrowed, hx, List.filterMap_cons_some hr]
    rfl

/-- The innermost refusal returns. -/
theorem refused (h : x.Inv) {sub : Submission} {subs : List Submission}
    (hx : x.refusing = sub :: subs) :
    ({ driver := Sends.undo sub x.driver, refusing := subs } : Sends).Inv := by
  obtain ⟨hs, -, hrecord, hnew⟩ := h.subs sub (hx ▸ List.mem_cons_self)
  obtain ⟨hout, hw⟩ := h.undo hx
  have hcounted := h.counted
  rw [hout] at hcounted
  cases hr : sub.record with
  | none =>
    have hundo : Sends.undo sub x.driver = x.driver.flushRollback sub.ds false sub.newFin := by
      rw [Sends.undo, hr]
    have hsame : outstanding { driver := Sends.undo sub x.driver, refusing := subs }
        = x.outstanding := by
      rw [hout, hr]
      rfl
    refine h.withdraw hx hw ?_ ?_
    · rw [hsame, hundo]
      exact h.counted.unfin hs hnew
    · intro hf
      rw [hundo] at hf
      revert hf
      cases sub.newFin with
      | false => exact fun hf => ⟨hf, rfl⟩
      | true => simp [Driver.flushRollback, Driver.modDs]
  | some r =>
    obtain ⟨hds, hepoch⟩ := hrecord r hr
    have hundo : Sends.undo sub x.driver = (x.driver.unpublish r sub.newFin).modDs r.ds fun e =>
        { e with inflightBytes := e.inflightBytes - r.bytes } := by
      rw [Sends.undo, hr]
    rw [hr] at hcounted
    rw [← hds] at hs hepoch hnew
    have hdrop := Counted.unpublish hcounted hepoch hnew
    have hback := Submits.unpublish (d := x.driver) r sub.newFin
    refine h.withdraw hx hw ?_ ?_
    · have hshift : Shift r.ds [] (x.driver.unpublish r sub.newFin) (Sends.undo sub x.driver) := by
        rw [hundo]
        exact Shift.modDs rfl rfl rfl rfl rfl rfl rfl rfl rfl
      exact hdrop.shift (hback.nextDs ▸ hs) hshift
    · rw [← hds, hundo]
      intro hf
      have hfin : (!sub.newFin && (x.driver.stream r.ds).flushFin) = true := by
        have hstream := congrFun (Driver.unpublish_stream (d := x.driver) r sub.newFin) r.ds
        rw [Function.update_self] at hstream
        simpa [Driver.modDs, hstream] using hf
      rw [Bool.and_eq_true, Bool.not_eq_true'] at hfin
      exact hfin.symm

/-- One step. -/
theorem step (h : x.Inv) (hstep : Step x x') : x'.Inv := by
  cases hstep with
  | event ev ha hs =>
    by_cases hcol : ∃ s, ev = .collect s
    · obtain ⟨s, rfl⟩ := hcol
      exact h.collect ha (hs s rfl)
    · refine h.keeps (Keeps.apply h.counted ev ha fun s hev => hcol ⟨s, hev⟩) hs ?_
      exact fun s => h.touched_live ev ha
  | refuse r hds hlive hs hepoch => exact h.refuse hds hlive hs hepoch
  | refuseFin s hds hlive hs => exact h.refuseFin hds hlive hs
  | refused hx => exact h.refused hx

/-- No counter wraps in a step. -/
theorem noWrap (h : x.Inv) (hstep : Step x x') : NoWrap x.driver x'.driver := by
  have h' := h.step hstep
  cases hstep with
  | event ev ha hs =>
    by_cases hcol : ∃ s, ev = .collect s
    · obtain ⟨s, rfl⟩ := hcol
      by_cases hcan : Driver.collectable (x.driver.stream s)
      · obtain ⟨hstream, -, hborrowed, hnext, -⟩ := Driver.collect_eq hcan
        have hother : ∀ t, t ≠ s → (x.driver.collect s).stream t = x.driver.stream t := by
          intro t hne
          rw [hstream, Function.update_of_ne hne]
        refine .of_counted h.counted h'.counted (.of_eq ?_) hother (Nat.le_of_eq hnext.symm) ?_
        · exact congrArg (_ ++ ·) hborrowed
        · intro t
          obtain rfl | hne := eq_or_ne t s
          · rw [Driver.apply, hstream, Function.update_self]
          · rw [Driver.apply, hother t hne]
      · rw [show x.driver.apply (.collect s) = x.driver from if_neg hcan]
        exact .refl x.driver
    · have hk := Keeps.apply h.counted ev ha fun s hev => hcol ⟨s, hev⟩
      obtain ⟨l, he⟩ := hk.effect
      have hgrown := hk.grown.append (x.refusing.filterMap Submission.record)
      refine .of_counted (s := (ev.touches x.driver).getD 0) h.counted h'.counted hgrown ?_
        he.nextDs he.epoch
      intro t hne
      refine he.other t fun ht => hne ?_
      rw [ht, Option.getD_some]
  | refuse r hds hlive hs hepoch =>
    have hw := (Submits.inflight (s := r.ds) (d := x.driver) (· + r.bytes)).trans
      (Submits.publish r)
    refine .of_counted h.counted h'.counted ?_ hw.other (Nat.le_of_eq hw.nextDs.symm) hw.epochs
    have hout : outstanding (x.refuse r) = r :: x.outstanding := by
      rw [outstanding, outstanding, ← hw.borrowed]
      rfl
    rw [hout]
    exact .cons r x.outstanding
  | refuseFin s hds hlive hs =>
    have hw : Submits s x.driver (x.driver.flushBegin s false true).2 :=
      .turn Counted.turn_fin rfl rfl rfl
    refine .of_counted h.counted h'.counted ?_ hw.other (Nat.le_of_eq hw.nextDs.symm) hw.epochs
    have hout : outstanding (x.refuseFin s) = x.outstanding := by
      rw [outstanding, outstanding, ← hw.borrowed]
      rfl
    exact .of_eq hout
  | refused hx =>
    next sub subs =>
    obtain ⟨hout, hw⟩ := h.undo hx
    refine .of_counted h.counted h'.counted ?_ hw.other (Nat.le_of_eq hw.nextDs.symm) hw.epochs
    rw [hout]
    exact .of_le fun p => by
      rw [List.countP_append]
      exact Nat.le_add_left _ _

end Inv

theorem Reachable.inv (h : x.Reachable) : x.Inv := by
  induction h with
  | init => exact Inv.init
  | step _ hstep ih => exact ih.step hstep

end Sends
end Wtquic.Msquic
