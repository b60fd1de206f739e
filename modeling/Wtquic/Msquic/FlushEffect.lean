-- SUMMARY: Every event writes one stream at most, and keeps the counters true.
import Wtquic.Msquic.FlushCount

namespace Wtquic.Msquic

/-! # Effects of events -/

variable {s : Nat} {o : Option Nat} {l l' : History} {d d' d'' : Driver} {r : SendRec}

/-- The stream an event writes. -/
def Event.touches (d : Driver) : Event → Option Nat
  | .opened _ _ _ _ _ => some d.nextDs
  | .sendComplete r _ => some r.ds
  | .shutdownReturned _ _ | .returned => d.frames.head?.bind Frame.ds
  | ev => ev.ds

/-- Only stream `o` is written, and the facts `l` about it are recorded. A FIN that is pending
afterwards was so before or is accepted, and none is pending when the stream goes. -/
structure Effect (o : Option Nat) (l : History) (d d' : Driver) : Prop where
  other : ∀ t, o ≠ some t → d'.stream t = d.stream t
  log : d'.log = l ++ d.log
  nextDs : d.nextDs ≤ d'.nextDs
  about : ∀ f ∈ l, o = some f.ds
  fin : ∀ s, (d'.stream s).flushFin → (d.stream s).flushFin ∨ ∃ f ∈ l, f.acceptsFin s
  gone : ∀ s, .gone s ∈ l → (d'.stream s).flushFin = false
  done : ∀ s, (d'.stream s).shutdownComplete → (d.stream s).shutdownComplete ∨ .gone s ∈ l
  collected : ∀ s, (d'.stream s).collected = (d.stream s).collected
  epoch : ∀ s, (d.stream s).flushEpoch ≤ (d'.stream s).flushEpoch
  frames : ∀ f ∈ d'.frames, f ∈ d.frames ∨ f.ds = none ∨ f.ds = o

namespace Effect

/-- Nothing but the frames and what is reported has changed. -/
theorem plain (o : Option Nat) (hstream : d'.stream = d.stream) (hlog : d'.log = d.log)
    (hnext : d'.nextDs = d.nextDs)
    (hframes : ∀ f ∈ d'.frames, f ∈ d.frames ∨ f.ds = none ∨ f.ds = o) : Effect o [] d d' where
  other := fun t _ => by rw [hstream]
  log := hlog
  nextDs := Nat.le_of_eq hnext.symm
  about := nofun
  fin := fun s hf => .inl (by rwa [hstream] at hf)
  gone := nofun
  done := fun s hd => .inl (by rwa [hstream] at hd)
  collected := fun s => by rw [hstream]
  epoch := fun s => by rw [hstream]
  frames := hframes

theorem refl (o : Option Nat) (d : Driver) : Effect o [] d d :=
  plain o rfl rfl rfl fun _ => .inl

theorem trans (h : Effect o l d d') (h' : Effect o l' d' d'') (hl : l = [] ∨ l' = []) :
    Effect o (l' ++ l) d d'' where
  other := fun t ht => (h'.other t ht).trans (h.other t ht)
  log := by rw [h'.log, h.log, List.append_assoc]
  nextDs := Nat.le_trans h.nextDs h'.nextDs
  about := fun f hf => by
    obtain hf | hf := List.mem_append.mp hf
    · exact h'.about f hf
    · exact h.about f hf
  fin := fun s hf => by
    obtain hf | ⟨f, hf, hacc⟩ := h'.fin s hf
    · obtain hf | ⟨f, hf, hacc⟩ := h.fin s hf
      · exact .inl hf
      · exact .inr ⟨f, List.mem_append_right l' hf, hacc⟩
    · exact .inr ⟨f, List.mem_append_left l hf, hacc⟩
  gone := fun s hg => by
    obtain rfl | rfl := hl
    · rw [List.append_nil] at hg
      exact h'.gone s hg
    · cases hf : (d''.stream s).flushFin with
      | false => rfl
      | true =>
        obtain hfin | ⟨f, hf, -⟩ := h'.fin s hf
        · rw [h.gone s hg] at hfin
          cases hfin
        · cases hf
  done := fun s hd => by
    obtain hd | hd := h'.done s hd
    · exact (h.done s hd).imp_right (List.mem_append_right l')
    · exact .inr (List.mem_append_left l hd)
  collected := fun s => (h'.collected s).trans (h.collected s)
  epoch := fun s => Nat.le_trans (h.epoch s) (h'.epoch s)
  frames := fun f hf => by
    obtain hf | hf := h'.frames f hf
    · exact h.frames f hf
    · exact .inr hf

/-- One stream is written. -/
theorem update {e : Dstream} (hstream : d'.stream = Function.update d.stream s e)
    (hlog : d'.log = l ++ d.log) (hnext : d'.nextDs = d.nextDs)
    (hframes : d'.frames = d.frames) (hl : ∀ f ∈ l, f.ds = s)
    (hfin : e.flushFin → (d.stream s).flushFin ∨ ∃ f ∈ l, f.acceptsFin s)
    (hgone : .gone s ∈ l → e.flushFin = false)
    (hdone : e.shutdownComplete → (d.stream s).shutdownComplete ∨ .gone s ∈ l)
    (hcollected : e.collected = (d.stream s).collected)
    (hepoch : (d.stream s).flushEpoch ≤ e.flushEpoch) : Effect (some s) l d d' := by
  have hself : d'.stream s = e := by rw [hstream, Function.update_self]
  have hother : ∀ t, t ≠ s → d'.stream t = d.stream t := fun t hne => by
    rw [hstream, Function.update_of_ne hne]
  exact
    { other := fun t ht => hother t fun heq => ht (congrArg some heq.symm)
      log := hlog
      nextDs := Nat.le_of_eq hnext.symm
      about := fun f hf => congrArg some (hl f hf).symm
      fin := fun t hf => by
        obtain rfl | hne := eq_or_ne t s
        · exact hfin (by rwa [hself] at hf)
        · exact .inl (by rwa [hother t hne] at hf)
      gone := fun t hg => by
        obtain rfl : t = s := hl _ hg
        rw [hself]
        exact hgone hg
      done := fun t hd => by
        obtain rfl | hne := eq_or_ne t s
        · exact hdone (by rwa [hself] at hd)
        · exact .inl (by rwa [hother t hne] at hd)
      collected := fun t => by
        obtain rfl | hne := eq_or_ne t s
        · rw [hself, hcollected]
        · rw [hother t hne]
      epoch := fun t => by
        obtain rfl | hne := eq_or_ne t s
        · rw [hself]
          exact hepoch
        · rw [hother t hne]
      frames := fun f hf => .inl (hframes ▸ hf) }

end Effect

theorem Shift.effect (h : Shift s l d d') : Effect (some s) l d d' :=
  .update h.turn.stream h.turn.log h.turn.nextDs h.turn.frames (fun f hf => (h.facts f hf).1)
    (fun hf => .inl (h.fin hf)) h.gone h.done h.collected (by
      obtain ⟨hsame, -⟩ | ⟨hlt, -⟩ := h.epoch
      · exact Nat.le_of_eq hsame.symm
      · exact Nat.le_of_lt hlt)

/-! ## Events -/

/-- At most one record has been added. -/
def Grown (out out' : List SendRec) : Prop :=
  ∃ r : SendRec, ∀ p : SendRec → Bool, out'.countP p ≤ out.countP p + (if p r then 1 else 0)

theorem Grown.of_le {out out' : List SendRec}
    (h : ∀ p : SendRec → Bool, out'.countP p ≤ out.countP p) : Grown out out' :=
  ⟨⟨0, 0, false, false, false, 0, 0, 0⟩, fun p => Nat.le_add_right_of_le (h p)⟩

theorem Grown.of_eq {out out' : List SendRec} (h : out' = out) : Grown out out' :=
  .of_le fun p => by rw [h]

theorem Grown.cons (r : SendRec) (out : List SendRec) : Grown out (r :: out) :=
  ⟨r, fun p => by rw [List.countP_cons]⟩

theorem Grown.append {out out' : List SendRec} (h : Grown out out') (subs : List SendRec) :
    Grown (subs ++ out) (subs ++ out') := by
  obtain ⟨r, h⟩ := h
  refine ⟨r, fun p => ?_⟩
  rw [List.countP_append, List.countP_append, Nat.add_assoc]
  exact Nat.add_le_add_left (h p) _

/-- The counters stay true, and one stream at most is written. -/
structure Keeps (subs : List SendRec) (o : Option Nat) (d d' : Driver) : Prop where
  counted : Counted (subs ++ d'.borrowed) d'
  effect : ∃ l, Effect o l d d'
  grown : Grown d.borrowed d'.borrowed

namespace Keeps

variable {subs : List SendRec}

theorem shift (hc : Counted (subs ++ d.borrowed) d) (hs : s < d.nextDs) (h : Shift s l d d') :
    Keeps subs (some s) d d' where
  counted := by
    rw [h.turn.borrowed]
    exact hc.shift hs h
  effect := ⟨l, h.effect⟩
  grown := .of_eq h.turn.borrowed

theorem refl (hc : Counted (subs ++ d.borrowed) d) (o : Option Nat) : Keeps subs o d d :=
  ⟨hc, ⟨[], .refl o d⟩, .of_eq rfl⟩

/-- A further change that is not counted. -/
theorem like (h : Keeps subs o d d') (htally : d''.tally = d'.tally)
    (hborrowed : d''.borrowed = d'.borrowed) (hlog : d''.log = d'.log)
    (hframes : ∀ f ∈ d''.frames, f ∈ d'.frames ∨ f.ds = none ∨ f.ds = o)
    (ho : ∀ s, o = some s → s < d'.nextDs) : Keeps subs o d d'' where
  counted := by
    rw [hborrowed]
    refine h.counted.like htally fun f hf => ?_
    obtain hf | hf | hf := hframes f hf
    · exact .inl hf
    · refine .inr fun s hs => ?_
      rw [hf] at hs
      cases hs
    · exact .inr fun s hs => ho s (hf.symm.trans hs)
  effect := by
    obtain ⟨l, h⟩ := h.effect
    exact ⟨_, h.trans (.plain o (congrArg Driver.stream htally :) hlog
      (congrArg Driver.nextDs htally :) hframes) (.inr rfl)⟩
  grown := by
    rw [hborrowed]
    exact h.grown

theorem push (h : Keeps subs o d d') (f : Frame) (hf : f.ds = none ∨ f.ds = o)
    (ho : ∀ s, o = some s → s < d'.nextDs) : Keeps subs o d (d'.push f) := by
  refine h.like rfl rfl rfl (fun g hg => ?_) ho
  obtain rfl | hg := List.mem_cons.mp hg
  · exact .inr hf
  · exact .inl hg

theorem report (h : Keeps subs o d d') (x : Report) (ho : ∀ s, o = some s → s < d'.nextDs) :
    Keeps subs o d (d'.report x) := by
  unfold Driver.report
  split
  · exact h.like rfl rfl rfl (fun _ => .inl) ho
  · exact h

theorem none_lt {n : Nat} : ∀ s, (none : Option Nat) = some s → s < n := nofun

theorem some_lt {n : Nat} (hs : s < n) : ∀ t, some s = some t → t < n := by
  rintro t ⟨⟩
  exact hs

theorem opened (hc : Counted (subs ++ d.borrowed) d)
    (isLocal isBidi critical pooled attached : Bool) :
    Keeps subs (some d.nextDs) d (d.openStream isLocal isBidi critical pooled attached) where
  counted := hc.opened isLocal isBidi critical pooled attached
  effect := by
    have hnew := hc.blank d.nextDs le_rfl
    have hself : (d.openStream isLocal isBidi critical pooled attached).stream d.nextDs
        = { isLocal, isBidi, pooled, localCritical := critical, ectx := attached } :=
      Function.update_self ..
    have hother : ∀ t, t ≠ d.nextDs →
        (d.openStream isLocal isBidi critical pooled attached).stream t = d.stream t :=
      fun t hne => Function.update_of_ne hne ..
    refine ⟨[],
      { other := fun t ht => hother t fun heq => ht (congrArg some heq.symm)
        log := rfl
        nextDs := Nat.le_succ _
        about := nofun
        fin := fun t hf => ?_
        gone := nofun
        done := fun t hd => ?_
        collected := fun t => ?_
        epoch := fun t => ?_
        frames := fun _ => .inl }⟩
    · obtain rfl | hne := eq_or_ne t d.nextDs
      · rw [hself] at hf
        cases hf
      · exact .inl (by rwa [hother t hne] at hf)
    · obtain rfl | hne := eq_or_ne t d.nextDs
      · rw [hself] at hd
        cases hd
      · exact .inl (by rwa [hother t hne] at hd)
    · obtain rfl | hne := eq_or_ne t d.nextDs
      · rw [hself, hnew]
      · rw [hother t hne]
    · obtain rfl | hne := eq_or_ne t d.nextDs
      · rw [hself, hnew]
      · rw [hother t hne]
  grown := .of_eq rfl

/-- A bare FIN is accepted. -/
theorem finSent (hc : Counted (subs ++ d.borrowed) d) (hs : s < d.nextDs) :
    Keeps subs (some s) d ((d.flushBegin s false true).2.record (.fin s)) where
  counted := by
    have hborrowed : ((d.flushBegin s false true).2.record (.fin s)).borrowed = d.borrowed :=
      Counted.turn_fin.borrowed
    rw [hborrowed]
    exact (hc.fin hs).like rfl fun _ => .inl
  effect := by
    have hturn := Counted.turn_fin (s := s) (d := d)
    refine ⟨[.fin s], .update hturn.stream ?_ hturn.nextDs hturn.frames ?_ ?_ ?_ ?_ rfl le_rfl⟩
    · exact congrArg (Fact.fin s :: ·) hturn.log
    · intro f hf
      rw [List.mem_singleton.mp hf]
      rfl
    · exact fun _ => .inr ⟨.fin s, List.mem_cons_self, rfl⟩
    · exact nofun
    · exact .inl
  grown := .of_eq Counted.turn_fin.borrowed

/-- A record is accepted. -/
theorem sent (hc : Counted (subs ++ d.borrowed) d) (hs : r.ds < d.nextDs)
    (hepoch : r.flushEpoch = (d.stream r.ds).flushEpoch) :
    Keeps subs (some r.ds) d (d.submit r true) where
  counted := by
    rw [(Good.submit_rest r).2.1]
    exact (hc.accepted hs hepoch).perm List.perm_middle.symm
  effect := by
    obtain ⟨hlog, -, hnext, -, hframes, -, -⟩ := Good.submit_rest (d := d) r
    refine ⟨[.sent r], .update (Good.submit_stream r) hlog hnext hframes ?_ ?_ ?_ ?_ rfl le_rfl⟩
    · intro f hf
      rw [List.mem_singleton.mp hf]
      rfl
    · intro hf
      obtain hf | hf := Bool.or_eq_true_iff.mp hf
      · exact .inl hf
      · exact .inr ⟨.sent r, List.mem_cons_self, rfl, hf⟩
    · exact nofun
    · exact .inl
  grown := by
    rw [(Good.submit_rest r).2.1]
    exact .cons r d.borrowed

theorem send (hc : Counted (subs ++ d.borrowed) d) (hs : s < d.nextDs) (len : Nat)
    (fin alloc accepted : Bool) : Keeps subs (some s) d (d.opSend s len fin alloc accepted).2 := by
  unfold Driver.opSend
  split
  · exact refl hc _
  split
  · exact refl hc _
  split
  · dsimp only
    split
    · exact finSent hc hs
    · rw [Driver.fin_refused]
      exact refl hc _
  split
  · exact refl hc _
  · cases accepted with
    | true =>
      exact sent (r :=
        { id := d.nextRec, ds := s, gather := false, flushBytes := true, flushFin := fin
          flushEpoch := (d.stream s).flushEpoch }) hc hs rfl
    | false =>
      dsimp only
      rw [Driver.submit_refused]
      exact refl hc _

theorem sendGather (hc : Counted (subs ++ d.borrowed) d) (hs : s < d.nextDs) (spans : List Nat)
    (fin : Bool) (cookie : Nat) (alloc accepted : Bool) :
    Keeps subs (some s) d (d.opSendGather s spans fin cookie alloc accepted).2 := by
  unfold Driver.opSendGather
  dsimp only
  split
  · exact refl hc _
  split
  · exact refl hc _
  split
  · dsimp only
    exact shift hc hs (Shift.modDs rfl rfl rfl rfl rfl rfl rfl rfl rfl)
  split
  · exact refl hc _
  split
  · -- the bytes in flight are counted before the record is submitted
    have hbytes : Shift s [] d (d.modDs s fun e =>
        { e with inflightBytes := e.inflightBytes + spans.sum }) :=
      Shift.modDs rfl rfl rfl rfl rfl rfl rfl rfl rfl
    have hsent := sent (shift hc hs hbytes).counted (r :=
      { id := d.nextRec, ds := s, gather := true, flushBytes := spans.sum != 0, flushFin := fin
        flushEpoch := (d.stream s).flushEpoch, bytes := spans.sum, cookie }) hs
      (by simp [Driver.modDs])
    obtain ⟨l, heffect⟩ := hsent.effect
    have hsubmit := (Keeps.mk hsent.counted ⟨_, hbytes.effect.trans heffect (.inl rfl)⟩
      hsent.grown : Keeps subs (some s) d _)
    refine hsubmit.push (.sent s) (.inr rfl) (some_lt ?_)
    rw [(Good.submit_rest _).2.2.1]
    exact hs
  · dsimp only
    rw [Driver.submit_refused]
    exact refl hc _

theorem shutdown (hc : Counted (subs ++ d.borrowed) d) (hs : s < d.nextDs) (req : Engine.Shutdown)
    (answer : Bool) : Keeps subs (some s) d (d.opShutdownStream s req answer).2 := by
  unfold Driver.opShutdownStream
  split
  · exact refl hc _
  dsimp only
  split
  · exact (shift hc hs Shift.began).push _ (.inr rfl) (some_lt hs)
  · exact (refl hc (some s)).push _ (.inr rfl) (some_lt hs)

theorem sendComplete (hc : Counted (subs ++ d.borrowed) d) (hm : r ∈ d.borrowed)
    (canceled : Bool) : Keeps subs (some r.ds) d (d.sendComplete r canceled) := by
  have hlt := (hc.live r (List.mem_append_right subs hm)).1
  have hloss : Shift r.ds [] d (Good.lossOf r canceled d) := Shift.lossOf (hc.covers hlt)
  have hback := hc.giveBack hm canceled
  obtain ⟨hnext, hframes, hborrowed, hlog, -⟩ := Counted.giveBack_rest (d := d) r canceled
  have hstream := Counted.giveBack_stream (d := d) r canceled
  rw [hloss.turn.stream, Function.update_idem, Function.update_self] at hstream
  have hlt' : r.ds < (d.giveBack r canceled).nextDs := by
    rw [hnext, hloss.turn.nextDs]
    exact hlt
  have heffect : Effect (some r.ds) [.returned r canceled] d (d.giveBack r canceled) := by
    refine .update hstream ?_ (hnext.trans hloss.turn.nextDs) (hframes.trans hloss.turn.frames)
      ?_ ?_ ?_ ?_ ?_ ?_
    · rw [hlog, hloss.turn.log]
      rfl
    · intro f hf
      rw [List.mem_singleton.mp hf]
      rfl
    · exact fun hf => .inl (hloss.fin hf)
    · exact nofun
    · exact fun hd => .inl ((hloss.done hd).resolve_right nofun)
    · exact hloss.collected
    · exact hloss.effect.epoch r.ds
  have hset := Shift.settle (hback.covers hlt')
  have hsettled := shift hback hlt' hset
  have hgrown : Grown d.borrowed ((d.giveBack r canceled).flushSettle r.ds).borrowed := by
    rw [hset.turn.borrowed, hborrowed, hloss.turn.borrowed]
    exact .of_le fun p => (List.erase_sublist).countP_le
  have hmain : Keeps subs (some r.ds) d ((d.giveBack r canceled).flushSettle r.ds) :=
    ⟨hsettled.counted, ⟨_, heffect.trans hset.effect (.inr rfl)⟩, hgrown⟩
  have hlt'' : r.ds < ((d.giveBack r canceled).flushSettle r.ds).nextDs := by
    rw [hset.turn.nextDs]
    exact hlt'
  rw [Counted.sendComplete_eq]
  dsimp only
  split
  · have hbytes : Shift r.ds [] ((d.giveBack r canceled).flushSettle r.ds)
        (((d.giveBack r canceled).flushSettle r.ds).modDs r.ds fun e =>
          { e with inflightBytes := e.inflightBytes - r.bytes }) :=
      Shift.modDs rfl rfl rfl rfl rfl rfl rfl rfl rfl
    have hwrite := shift hsettled.counted hlt'' hbytes
    have hafter : Keeps subs (some r.ds) d (((d.giveBack r canceled).flushSettle r.ds).modDs r.ds
        fun e => { e with inflightBytes := e.inflightBytes - r.bytes }) :=
      ⟨hwrite.counted,
        ⟨_, (heffect.trans hset.effect (.inr rfl)).trans hbytes.effect (.inr rfl)⟩, hgrown⟩
    exact ((hafter.push .flushed (.inl rfl) (some_lt hlt'')).push (.writable r.ds) (.inr rfl)
      (some_lt hlt'')).report _ (some_lt hlt'')
  · exact hmain.push .flushed (.inl rfl) (some_lt hlt'')

/-- A frame is left behind. -/
theorem pop {f : Frame} {frames : List Frame} (hc : Counted (subs ++ d.borrowed) d)
    (hd : d.frames = f :: frames) : Keeps subs f.ds d { d with frames } := by
  refine (refl hc f.ds).like rfl rfl rfl (fun g hg => .inl ?_) ?_
  · rw [hd]
    exact List.mem_cons_of_mem f hg
  · exact fun s hs => hc.framed f (hd ▸ List.mem_cons_self) s hs

/-- A shift behind a change that is not counted. -/
theorem andShift (h : Keeps subs (some s) d d') (hs : s < d'.nextDs) (hlog : d'.log = d.log)
    (hshift : Shift s l d' d'') : Keeps subs (some s) d d'' := by
  obtain ⟨l', heffect⟩ := h.effect
  have hl' : l' = [] := List.append_left_eq_self.mp (heffect.log.symm.trans hlog)
  refine ⟨(shift h.counted hs hshift).counted, ⟨_, heffect.trans hshift.effect (.inl hl')⟩, ?_⟩
  rw [hshift.turn.borrowed]
  exact h.grown

theorem failPending (hc : Counted (subs ++ d.borrowed) d) (o : Option Nat)
    (ho : ∀ s, o = some s → s < d.nextDs) : Keeps subs o d d.failPending := by
  unfold Driver.failPending
  split
  · exact (refl hc o).like rfl rfl rfl (fun _ => .inl) ho
  · exact refl hc o

theorem resume (hc : Counted (subs ++ d.borrowed) d) {f : Frame} {frames : List Frame}
    (hd : d.frames = f :: frames) : Keeps subs f.ds d ({ d with frames }.resume f) := by
  have hpop := pop hc hd
  have hlt := hc.framed f (hd ▸ List.mem_cons_self)
  cases f with
  | shutdown s req intent => exact hpop
  | sent s =>
    exact hpop.andShift (hlt s rfl) rfl (Shift.modDs (f := fun e => { e with sendBlocked := false })
      rfl rfl rfl rfl rfl rfl rfl rfl rfl)
  | writable s => exact hpop.andShift (hlt s rfl) rfl Shift.writableCheck
  | flushed =>
    unfold Driver.resume Driver.flushedCheck
    dsimp only
    split
    · exact hpop.like rfl rfl rfl (fun _ => .inl) none_lt
    · exact hpop

/-- Every event but a retirement keeps the counters true, and writes one stream at most. -/
theorem apply (hc : Counted (subs ++ d.borrowed) d) (ev : Event) (ha : ev.allowed d)
    (hcollect : ∀ s, ev ≠ .collect s) : Keeps subs (ev.touches d) d (d.apply ev) := by
  have hds : ∀ s, ev.ds = some s → s < d.nextDs := by
    intro s hs
    cases ev <;> simp_all [Event.allowed, Event.ds]
  cases ev with
  | opened isLocal isBidi critical pooled attached =>
    exact opened hc isLocal isBidi critical pooled attached
  | attached s =>
    exact shift hc (hds s rfl) (Shift.modDs (f := fun e => { e with ectx := true })
      rfl rfl rfl rfl rfl rfl rfl rfl rfl)
  | detached s answer => exact shift hc (hds s rfl) (Shift.detach answer)
  | send s len fin alloc accepted => exact send hc (hds s rfl) len fin alloc accepted
  | sendGather s spans fin cookie alloc accepted =>
    exact sendGather hc (hds s rfl) spans fin cookie alloc accepted
  | shutdown s req answer => exact shutdown hc (hds s rfl) req answer
  | shutdownReturned first second =>
    simp only [Driver.apply]
    split
    · next s req intent frames hd =>
      have hpop := pop hc hd
      have hlt := hc.framed _ (hd ▸ List.mem_cons_self) s rfl
      obtain ⟨l, hshift⟩ := Shift.resolve (hpop.counted.covers hlt) intent
        (Driver.shutdownResult req first second).1 (Driver.shutdownResult req first second).2
      have htouch : Event.touches d (.shutdownReturned first second) = some s := by
        simp [Event.touches, hd, Frame.ds]
      rw [htouch]
      exact hpop.andShift hlt rfl hshift
    · exact refl hc _
  | returned =>
    simp only [Driver.apply]
    split
    · exact refl hc _
    · exact refl hc _
    · next f frames hne hd =>
      have htouch : Event.touches d .returned = f.ds := by
        simp [Event.touches, hd]
      rw [htouch]
      exact resume hc hd
  | startFailed s => exact shift hc (hds s rfl) (Shift.discardGone (hc.covers (hds s rfl)))
  | peerReceiveAborted s answer =>
    obtain ⟨l, hshift⟩ := Shift.peerReceiveAborted (hc.covers (hds s rfl)) answer
    exact shift hc (hds s rfl) hshift
  | sendShutdownComplete s graceful =>
    obtain ⟨l, hshift⟩ := Shift.sendShutdownComplete (hc.covers (hds s rfl)) graceful
    exact shift hc (hds s rfl) hshift
  | sendComplete r canceled =>
    exact sendComplete hc (by simpa [Event.allowed] using ha) canceled
  | idealSend s n =>
    have hideal : Shift s [] d (d.modDs s fun e => { e with idealSend := n }) :=
      Shift.modDs rfl rfl rfl rfl rfl rfl rfl rfl rfl
    simp only [Driver.apply]
    split
    · exact shift hc (hds s rfl) (hideal.trans Shift.writableCheck)
    · exact shift hc (hds s rfl) hideal
  | shutdownComplete s appClose =>
    exact shift hc (hds s rfl) (Shift.shutdownComplete (hc.covers (hds s rfl)) appClose)
  | completeTerminal s => exact shift hc (hds s rfl) Shift.completeTerminal
  | collect s => exact absurd rfl (hcollect s)
  | connShutdown =>
    have hfail := failPending hc none none_lt
    simp only [Driver.apply, Driver.connShutdown]
    split
    · exact refl hc _
    · exact hfail.like rfl rfl rfl (fun _ => .inl) none_lt
  | connLost => exact failPending hc none none_lt
  | shutdownWhenFlushed => exact (refl hc none).like rfl rfl rfl (fun _ => .inl) none_lt
  | sessionDropped => exact (refl hc none).like rfl rfl rfl (fun _ => .inl) none_lt

end Keeps
end Wtquic.Msquic
