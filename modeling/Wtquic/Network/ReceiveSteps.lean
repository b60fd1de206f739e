-- SUMMARY: One step of the receive loop keeps what the receive side promises.
import Wtquic.Network.ReceiveCalm

namespace Wtquic.Network

open Engine (Rc)

variable {o : Oracle}

namespace Stream

variable {s t u : Stream} {l : History}

/-! # What an offer needs -/

theorem Tracks.alive (ht : Tracks s) (hc : s.cancelIssued = false) (hd : s.cancelDeferred = false)
    (hf : s.failedSeen = false) (hterm : s.terminal = false) : Alive s.log := by
  refine ⟨?_, ?_, ?_, ?_⟩
  · intro hm
    obtain h | h := ht.shutdown hm
    · rw [hd] at h
      cases h
    · rw [hc] at h
      cases h
  · rw [ht.cancelIssued, hc]
    decide
  · rw [ht.failed, hf]
    decide
  · rw [ht.terminal, hterm]
    decide

theorem Tracks.no_reset (ht : Tracks s) (ha : Alive s.log) : .reset ∉ s.log := fun hm =>
  ha.2.2.1 (ht.failed.mpr (ht.reset hm).2)

theorem Holds.not_dropped (hh : Holds s) (ht : Tracks s) (ha : Alive s.log)
    (hs : s.session = true) (hd : .detached ∉ s.log) : .dropped ∉ s.log := by
  intro hm
  obtain h | h | h := hh.lost hm
  · exact h ha
  · exact hd h
  · rw [ht.sessionGone, hs] at h
    cases h

theorem Tracks.not_detached (ht : Tracks s) {key : Nat} (hk : s.ectx = some key) :
    .detached ∉ s.log := by
  intro hm
  rw [ht.detached hm] at hk
  cases hk

theorem Attached.of_ectx {key : Nat} (hk : s.ectx = some key) : s.Attached := .inl (by rw [hk]; rfl)

/-- The region that holds the offset is what the engine must get next. -/
theorem Holds.offers {fin : Bool} {total off : Nat} {buf : Bytes} {rest : List Bytes}
    (hh : Holds s) (ht : Tracks s) (hd : .detached ∉ s.log) (hn : .dropped ∉ s.log)
    (hdef : s.recvDeferred = true) (hr : Regions fin total off (buf :: rest) s)
    (hlt : s.recvDeferredOffset < off + buf.length) :
    Offers (buf.drop (s.recvDeferredOffset - off)) (fin && off + buf.length == total) s := by
  have hheld : s.held = buf.drop (s.recvDeferredOffset - off) ++ rest.flatten := by
    have hoff : s.recvDeferredOffset = off + (s.recvDeferredOffset - off) := by
      have := hr.off
      omega
    have hle : s.recvDeferredOffset - off ≤ buf.length := by omega
    rw [Stream.held, if_pos hdef, hoff, ← List.drop_drop, hr.rest, Nat.add_sub_cancel_left,
      List.flatten_cons, List.drop_append_of_le_length hle]
  have hwhole := hh.whole hn hd
  rw [hheld] at hwhole
  constructor
  · rw [hwhole, ← List.append_assoc]
    exact List.prefix_append _ _
  · intro hf
    obtain ⟨hf, hlast⟩ := Bool.and_eq_true_iff.mp hf
    have hfin := hh.heldFin (hr.fin.trans hf)
    have hrest : rest.flatten = [] := by
      have hlen := congrArg List.length hr.rest
      rw [List.length_drop, hr.total, List.flatten_cons, List.length_append] at hlen
      have hlast : off + buf.length = total := by simpa using hlast
      exact List.length_eq_zero_iff.mp (by omega)
    rw [hrest, List.append_nil] at hwhole
    refine ⟨hfin.2, ?_, hwhole.symm⟩
    rw [ht.finTaken]
    by_contra hdel
    -- A FIN that was taken leaves nothing to offer.
    have heq := (hh.partFin (by simpa using hdel)).2
    rw [hwhole] at heq
    have hnil : buf.drop (s.recvDeferredOffset - off) = [] := by simpa using heq
    rw [List.drop_eq_nil_iff] at hnil
    have := hr.off
    omega

/-- A FIN alone is what the engine must get next. -/
theorem Holds.offers_fin (hh : Holds s) (ht : Tracks s) (hd : .detached ∉ s.log)
    (hn : .dropped ∉ s.log) (hfin : s.recvDeferredFin = true) (hdel : s.finDelivered = false)
    (hoff : (s.recvDeferredData.getD []).flatten.length ≤ s.recvDeferredOffset) :
    Offers [] true s := by
  obtain ⟨hdef, hrec⟩ := hh.heldFin hfin
  have hheld : s.held = [] := by
    rw [Stream.held, if_pos hdef, List.drop_eq_nil_iff]
    exact hoff
  have hwhole : receivedBytes s.log = takenBytes s.log ++ [] := by
    rw [hh.whole hn hd, hheld]
  constructor
  · exact ⟨[], by rw [hwhole, List.append_nil]⟩
  · intro _
    exact ⟨hrec, by rw [ht.finTaken, hdel], hwhole.symm⟩

/-! # The steps of the loop -/

theorem Attached.of_log (ha : s.Attached) (hk : t.ectx = s.ectx)
    (hd : .detached ∈ s.log → .detached ∈ t.log) : t.Attached := by
  obtain h | h := ha
  · exact .inl (by rw [hk]; exact h)
  · exact .inr (hd h)

theorem Starts.of_log (hs : Starts s) (hl : t.toLife = s.toLife)
    (hd : .detached ∈ t.log ↔ .detached ∈ s.log) : Starts t := by
  constructor
  · rw [hl]
    exact hs.ready
  · rw [hl]
    exact hs.recheck
  · rw [hl, hd]
    exact hs.peer
  · intro hlocal hb
    rw [hl] at hlocal hb
    exact (hs.bidi hlocal hb).of_log (by rw [hl]) hd.mpr

theorem Ends.of_life (he : Ends s) (hl : t.toLife = s.toLife) : Ends t := by
  constructor
  · rw [hl]
    exact he.closing
  · rw [hl]
    exact he.gone

/-- Facts that say nothing of what is received, taken or held. -/
def Fact.still : Fact → Bool
  | .completed _ _ _ | .taken _ _ | .dropped | .detached => false
  | _ => true

theorem Holds.note {f : Fact} (hh : Holds s) (hf : f.still = true) : Holds (s.note f) := by
  have hold : ∀ {g : Fact}, g.still = false → (g ∈ (s.note f).log ↔ g ∈ s.log) := by
    intro g hg
    constructor
    · intro hm
      obtain rfl | hm := List.mem_cons.mp hm
      · rw [hf] at hg
        cases hg
      · exact hm
    · exact List.mem_cons_of_mem _
  have hreceived : receivedBytes (s.note f).log = receivedBytes s.log := by
    cases f <;> first | rfl | cases hf
  have htaken : takenBytes (s.note f).log = takenBytes s.log := by
    cases f <;> first | rfl | cases hf
  have hfin : finReceived (s.note f).log = finReceived s.log := by
    cases f <;> first | rfl | cases hf
  constructor <;> try rw [hreceived]
  · rw [hold rfl, hold rfl, htaken]
    exact hh.whole
  · rw [hold rfl, hold rfl, hfin]
    exact hh.wholeFin
  · rw [htaken]
    exact hh.part
  · rw [htaken, hfin]
    exact hh.partFin
  · rw [hold rfl]
    exact fun hm => Discards.append (f := [f]) (hh.lost hm)
  · rw [hfin]
    exact hh.heldFin
  · rw [hfin]
    exact hh.finEnded
  · exact hh.offset
  · exact hh.empty
  · exact hh.pending
  · exact fun h => (hh.attached h).of_log rfl (List.mem_cons_of_mem _)

theorem Core.delivering (hc : Core s) (b : Bool) : Core { s with recvDelivering := b } where
  tracks := { hc.tracks with }
  holds := { hc.holds with }
  starts := { hc.starts with }
  ends := { hc.ends with }
  received := hc.received

/-- The held completion is gone. -/
def unheld (s : Stream) : Stream :=
  { s with
    recvDeferredData := none, recvDeferred := false, recvDeferredOffset := 0,
    recvDeferredFin := false, recvDeferredErrored := false }

theorem Holds.unheld (hh : Holds s)
    (hd : .dropped ∉ s.log → s.held = [] ∧ s.heldFin = false) : Holds s.unheld := by
  constructor
  · intro hn hdet
    rw [show s.unheld.held = [] from rfl, ← (hd hn).1]
    exact hh.whole hn hdet
  · intro hn hdet hf
    obtain h | h := hh.wholeFin hn hdet hf
    · exact .inl h
    · rw [(hd hn).2] at h
      cases h
  · exact hh.part
  · exact hh.partFin
  · exact hh.lost
  · intro h
    cases h
  · exact hh.finEnded
  · intro h
    cases h
  · exact fun _ => ⟨rfl, rfl⟩
  · exact fun h => ⟨rfl, (hh.pending h).2⟩
  · rintro (h | h)
    · exact hh.attached (.inl h)
    · cases h

theorem Holds.noteDropped (hh : Holds s) (hd : Discards s.log) : Holds (s.note .dropped) := by
  have hlost : Discards (s.note .dropped).log := Discards.append (f := [.dropped]) hd
  constructor
  · exact fun hn => absurd List.mem_cons_self hn
  · exact fun hn => absurd List.mem_cons_self hn
  · exact hh.part
  · exact hh.partFin
  · exact fun _ => hlost
  · exact hh.heldFin
  · exact hh.finEnded
  · exact hh.offset
  · exact hh.empty
  · exact hh.pending
  · exact fun h => (hh.attached h).of_log rfl (List.mem_cons_of_mem _)

theorem Holds.dropDeferred (hh : Holds s)
    (hd : s.held ≠ [] ∨ s.heldFin = true → Discards s.log) : Holds s.dropDeferred := by
  unfold Stream.dropDeferred
  split
  · rename_i h
    exact (hh.noteDropped (hd h)).unheld fun hn => absurd List.mem_cons_self hn
  · rename_i h
    refine hh.unheld fun _ => ⟨?_, ?_⟩
    · simpa using fun h' => h (.inl h')
    · simpa using fun h' => h (.inr h')

theorem dropDeferred_life : s.dropDeferred.toLife = s.toLife := by
  unfold Stream.dropDeferred
  split <;> rfl

/-- The receive side apart from what is held. -/
theorem dropDeferred_recv : s.dropDeferred.recvPending = s.recvPending ∧
    s.dropDeferred.recvEnabled = s.recvEnabled ∧ s.dropDeferred.recvEnded = s.recvEnded ∧
    s.dropDeferred.finDelivered = s.finDelivered ∧
    s.dropDeferred.resetDelivered = s.resetDelivered := by
  unfold Stream.dropDeferred
  split <;> exact ⟨rfl, rfl, rfl, rfl, rfl⟩

theorem dropDeferred_log : s.dropDeferred.log = s.log ∨
    s.dropDeferred.log = .dropped :: s.log ∧ (s.held ≠ [] ∨ s.heldFin = true) := by
  unfold Stream.dropDeferred
  split
  · rename_i h
    exact .inr ⟨rfl, h⟩
  · exact .inl rfl

/-- The fact says nothing that the flags repeat. -/
theorem Tracks.dropped (ht : Tracks s) : Tracks (s.note .dropped) := by
  constructor <;> simp only [Stream.note, List.mem_cons, reduceCtorEq, false_or]
  · exact ht.armed
  · exact ht.enabled
  · exact ht.ended
  · exact ht.finTaken
  · exact ht.cancelIssued
  · exact ht.failed
  · exact ht.terminal
  · exact ht.sessionGone
  · exact ht.reset
  · exact ht.shutdown
  · exact ht.cancelDeferred
  · exact ht.detached

theorem Tracks.dropDeferred (ht : Tracks s) : Tracks s.dropDeferred := by
  unfold Stream.dropDeferred
  split
  · exact { ht.dropped with }
  · exact { ht with }

theorem Core.dropDeferred (hc : Core s) (hd : s.held ≠ [] ∨ s.heldFin = true → Discards s.log) :
    Core s.dropDeferred where
  tracks := hc.tracks.dropDeferred
  holds := hc.holds.dropDeferred hd
  starts := by
    refine hc.starts.of_log dropDeferred_life ?_
    obtain h | ⟨h, -⟩ := dropDeferred_log (s := s) <;> rw [h]
    simp
  ends := hc.ends.of_life dropDeferred_life
  received := by
    obtain h | ⟨h, hheld⟩ := dropDeferred_log (s := s) <;> rw [h]
    · exact hc.received
    · exact ⟨hd hheld, hc.received⟩

/-- What `ds_arm_receive` asks for. -/
structure Arms (s : Stream) : Prop where
  pending : s.recvPending = false
  deferred : s.recvDeferred = false
  terminal : s.terminal = false
  enabled : s.recvEnabled = true
  ended : s.recvEnded = false
  cancelIssued : s.cancelIssued = false
  cancelDeferred : s.cancelDeferred = false
  failedSeen : s.failedSeen = false

theorem Arms.fact (ha : Arms s) (hc : Core s) : Fact.armed.Receives s.log := by
  have ht := hc.tracks
  refine ⟨by rw [ht.armed, ha.pending], by rw [ht.enabled, ha.enabled], by rw [ht.ended, ha.ended],
    ht.alive ha.cancelIssued ha.cancelDeferred ha.failedSeen ha.terminal, ?_⟩
  intro hn hd
  have hheld : s.held = [] := if_neg (by rw [ha.deferred]; decide)
  rw [hc.holds.whole hn hd, hheld, List.append_nil]

theorem Core.armed (hc : Core s) (ha : Arms s) (hat : s.Attached) :
    Core ({ s with recvPending := true }.note .armed) where
  tracks := by
    have ht := hc.tracks
    constructor <;> simp only [Stream.note, List.mem_cons, reduceCtorEq, false_or]
    · rfl
    · exact ht.enabled
    · exact ht.ended
    · exact ht.finTaken
    · exact ht.cancelIssued
    · exact ht.failed
    · exact ht.terminal
    · exact ht.sessionGone
    · exact ht.reset
    · exact ht.shutdown
    · exact ht.cancelDeferred
    · exact ht.detached
  holds :=
    { hc.holds.note (f := .armed) rfl with
      pending := fun _ => ⟨ha.deferred, ha.ended⟩
      attached := fun _ => hat.of_log rfl (List.mem_cons_of_mem _) }
  starts := hc.starts.of_log rfl (by simp [Stream.note])
  ends := { hc.ends with }
  received := ⟨ha.fact hc, hc.received⟩

theorem Core.armReceive (hc : Core s) (ha : s.Attached) : Core s.armReceive := by
  unfold Stream.armReceive
  split
  · exact hc
  · rename_i h
    simp only [Bool.or_eq_true, Bool.not_eq_true', not_or, Bool.not_eq_true] at h
    obtain ⟨⟨⟨⟨⟨⟨⟨⟨⟨⟨hp, hd⟩, -⟩, ht⟩, -⟩, he⟩, -⟩, hended⟩, hi⟩, hcd⟩, hf⟩ := h
    exact hc.armed ⟨hp, hd, ht, by simpa using he, hended, hi, hcd, hf⟩ ha

theorem Core.rearmReceive (rearm : Bool) (hc : Core s) (ha : rearm = true → s.Attached) :
    Core (s.rearmReceive rearm) := by
  cases rearm with
  | false => exact hc
  | true => exact hc.armReceive (ha rfl)

/-! # How a call of the loop begins and ends -/

/-- The stream as such, before and behind a step of the loop. -/
structure Ahead (s t : Stream) : Prop where
  failedSeen : t.failedSeen = s.failedSeen
  readyProcessed : t.readyProcessed = s.readyProcessed
  cancelDeferred : t.cancelDeferred = s.cancelDeferred
  cancelIssued : s.cancelIssued = true → t.cancelIssued = true
  terminal : s.terminal = true → t.terminal = true
  ectx : t.ectx = s.ectx
  detached : .detached ∈ t.log ↔ .detached ∈ s.log

theorem Ahead.refl (s : Stream) : Ahead s s := ⟨rfl, rfl, rfl, id, id, rfl, Iff.rfl⟩

theorem Ahead.trans (h : Ahead s t) (h' : Ahead t u) : Ahead s u where
  failedSeen := h'.failedSeen.trans h.failedSeen
  readyProcessed := h'.readyProcessed.trans h.readyProcessed
  cancelDeferred := h'.cancelDeferred.trans h.cancelDeferred
  cancelIssued := h'.cancelIssued ∘ h.cancelIssued
  terminal := h'.terminal ∘ h.terminal
  ectx := h'.ectx.trans h.ectx
  detached := h'.detached.trans h.detached

theorem Ahead.delivering (h : Ahead s t) (b : Bool) : Ahead s { t with recvDelivering := b } :=
  { h with }

theorem Calm.ahead (h : Calm s t) : Ahead s t := by
  obtain ⟨_, _, _, hi, ht, _⟩ := h.log
  exact ⟨by rw [h.life], by rw [h.life], by rw [h.life], fun hc => hi.mpr (.inr hc), fun hc => ht.mpr (.inr hc), by rw [h.life],
    h.mem rfl⟩

theorem Ahead.attached (h : Ahead s t) : t.Attached ↔ s.Attached := by
  unfold Attached
  rw [h.ectx, h.detached]

theorem ahead_dropDeferred : Ahead s s.dropDeferred := by
  unfold Stream.dropDeferred
  split
  · exact ⟨rfl, rfl, rfl, id, id, rfl, by simp [Stream.note]⟩
  · exact ⟨rfl, rfl, rfl, id, id, rfl, Iff.rfl⟩

theorem ahead_armReceive : Ahead s s.armReceive := by
  unfold Stream.armReceive
  split
  · exact .refl s
  · exact ⟨rfl, rfl, rfl, id, id, rfl, by simp [Stream.note]⟩

theorem ahead_rearmReceive (rearm : Bool) : Ahead s (s.rearmReceive rearm) := by
  cases rearm with
  | false => exact .refl s
  | true => exact ahead_armReceive

/-- Behind a step of the loop: no call of it is left, or a new one. -/
structure Loops (s t : Stream) : Prop where
  core : Core t
  ahead : Ahead s t
  stacked : (t.frames = s.frames ∧ t.recvDelivering = false ∧ offering t.log = none) ∨
    ∃ f : Frame, t.frames = f :: s.frames ∧ f.recv = true ∧ t.recvDelivering = true ∧ f.Good t ∧
      t.session = true ∧ t.Attached

theorem dropDeferred_frames : s.dropDeferred.frames = s.frames := by
  unfold Stream.dropDeferred
  split <;> rfl

theorem dropDeferred_delivering : s.dropDeferred.recvDelivering = s.recvDelivering := by
  unfold Stream.dropDeferred
  split <;> rfl

theorem dropDeferred_offering : offering s.dropDeferred.log = offering s.log := by
  obtain h | ⟨h, -⟩ := dropDeferred_log (s := s) <;> rw [h]
  rfl

theorem rearmReceive_offering (rearm : Bool) :
    offering (s.rearmReceive rearm).log = offering s.log := by
  cases rearm with
  | false => rfl
  | true =>
    unfold Stream.rearmReceive Stream.armReceive
    rw [if_pos rfl]
    split <;> rfl

theorem rearmReceive_frames (rearm : Bool) : (s.rearmReceive rearm).frames = s.frames := by
  cases rearm with
  | false => rfl
  | true =>
    unfold Stream.rearmReceive Stream.armReceive
    rw [if_pos rfl]
    split <;> rfl

theorem rearmReceive_delivering (rearm : Bool) :
    (s.rearmReceive rearm).recvDelivering = s.recvDelivering := by
  cases rearm with
  | false => rfl
  | true =>
    unfold Stream.rearmReceive Stream.armReceive
    rw [if_pos rfl]
    split <;> rfl

theorem opConnClose_frames : s.opConnClose.frames = s.frames := by
  unfold Stream.opConnClose
  split
  · rfl
  · dsimp only
    split <;> rfl

theorem opConnClose_session : s.opConnClose.session = s.session := by
  unfold Stream.opConnClose
  split
  · rfl
  · dsimp only
    split <;> rfl

theorem leaveAndPoll_frames : (s.leaveAndPoll o).frames = s.frames := by
  unfold Stream.leaveAndPoll
  split
  · rfl
  · split
    · rfl
    · split <;> rfl
    · exact opConnClose_frames

theorem Core.deliverEnd {blocked rearm : Bool} (hc : Core s) (ho : offering s.log = none)
    (hd : blocked = false → s.held ≠ [] ∨ s.heldFin = true → Discards s.log)
    (ha : rearm = true → s.Attached) : Loops s (s.deliverEnd o blocked rearm) := by
  have hend : ∀ {u : Stream}, Core u → Ahead s u → u.frames = s.frames → offering u.log = none →
      Loops s (({ u with recvDelivering := false }.leaveAndPoll o).rearmReceive rearm) := by
    intro u hu hsu hf ho
    have hcalm : Calm { u with recvDelivering := false }
        ({ u with recvDelivering := false }.leaveAndPoll o) := Calm.leaveAndPoll (.refl _)
    have hat := hcalm.attached.trans hsu.attached
    refine ⟨((hu.delivering false).calm hcalm).rearmReceive rearm fun h => hat.mpr (ha h),
      ((hsu.delivering false).trans hcalm.ahead).trans (ahead_rearmReceive rearm), .inl ⟨?_, ?_, ?_⟩⟩
    · rw [rearmReceive_frames, leaveAndPoll_frames]
      exact hf
    · rw [rearmReceive_delivering, hcalm.recv]
    · rw [rearmReceive_offering, hcalm.offering]
      exact ho
  cases blocked with
  | false =>
    exact hend (hc.dropDeferred (hd rfl)) ahead_dropDeferred dropDeferred_frames
      (dropDeferred_offering.trans ho)
  | true => exact hend hc (.refl s) rfl ho

theorem Core.offered {buf : Bytes} {fin : Bool} (hc : Core s)
    (hr : (Fact.offered buf fin).Receives s.log) : Core (s.note (.offered buf fin)) where
  tracks := by
    have ht := hc.tracks
    constructor <;> simp only [Stream.note, List.mem_cons, reduceCtorEq, false_or]
    · exact ht.armed
    · exact ht.enabled
    · exact ht.ended
    · exact ht.finTaken
    · exact ht.cancelIssued
    · exact ht.failed
    · exact ht.terminal
    · exact ht.sessionGone
    · exact ht.reset
    · exact ht.shutdown
    · exact ht.cancelDeferred
    · exact ht.detached
  holds := hc.holds.note rfl
  starts := hc.starts.of_log rfl (by simp [Stream.note])
  ends := { hc.ends with }
  received := ⟨hr, hc.received⟩

theorem ahead_offered {buf : Bytes} {fin : Bool} : Ahead s (s.note (.offered buf fin)) :=
  ⟨rfl, rfl, rfl, id, id, rfl, by simp [Stream.note]⟩

theorem Core.push (hc : Core s) (f : Frame) : Core (s.push f) where
  tracks := { hc.tracks with }
  holds := { hc.holds with }
  starts := { hc.starts with }
  ends := { hc.ends with }
  received := hc.received

theorem Core.deliverRegions {key total : Nat} {fin rearm : Bool} {regions : List Bytes} {off : Nat}
    (hc : Core s) (hoff : offering s.log = none) (hdel : s.recvDelivering = true)
    (hses : s.session = true) (hkey : s.ectx = some key ∨ .detached ∈ s.log)
    (hreg : s.recvDeferred = true → s.ectx = some key → Regions fin total off regions s ∧
      (s.recvDeferredOffset < total ∨ (fin = true → s.finDelivered = true))) :
    Loops s (s.deliverRegions o key fin total rearm off regions) := by
  have hat : s.Attached := hkey.imp_left fun h => by rw [h]; rfl
  have hdef : s.held ≠ [] ∨ s.heldFin = true → s.recvDeferred = true := by
    rintro (h | h)
    · by_contra hn
      exact h (if_neg hn)
    · exact (Bool.and_eq_true_iff.mp (Bool.and_eq_true_iff.mp h).1).1
  induction regions generalizing off with
  | nil =>
    refine hc.deliverEnd hoff (fun _ hheld => ?_) fun _ => hat
    obtain hk | hk := hkey
    · -- All regions were taken, so that nothing is held.
      obtain ⟨hr, hlt⟩ := hreg (hdef hheld) hk
      have hle := hr.off
      have htotal : total ≤ off := by
        rw [← hr.total, ← List.drop_eq_nil_iff, hr.rest]
        rfl
      exfalso
      obtain h | h := hheld
      · refine h ?_
        rw [Stream.held, if_pos (hdef (.inl h)), List.drop_eq_nil_iff, hr.total]
        omega
      · obtain ⟨hf, hn⟩ := Bool.and_eq_true_iff.mp h
        obtain hlt | hfin := hlt
        · omega
        · rw [hfin (hr.fin.symm.trans (Bool.and_eq_true_iff.mp hf).2)] at hn
          cases hn
    · exact .inr (.inl hk)
  | cons buf rest ih =>
    rw [Stream.deliverRegions]
    split
    · rename_i hguard
      refine hc.deliverEnd hoff (fun _ hheld => ?_) fun _ => hat
      have ht := hc.tracks
      simp only [Bool.or_eq_true, Bool.not_eq_true', hdef hheld, decide_eq_true_eq,
        Bool.true_eq_false, false_or] at hguard
      obtain ((((h | h) | h) | h) | h) := hguard
      · exact .inr (.inl (hkey.resolve_left h))
      · exact .inl fun ha => ha.2.2.2 (ht.terminal.mpr h)
      · exact .inl fun ha => ha.2.1 (ht.cancelIssued.mpr h)
      · exact .inl fun ha => ha.1 (ht.cancelDeferred h)
      · exact .inl fun ha => ha.2.2.1 (ht.failed.mpr h)
    · rename_i hguard
      simp only [Bool.or_eq_true, Bool.not_eq_true', decide_eq_true_eq, not_or,
        Bool.not_eq_false, Bool.not_eq_true, Decidable.not_not] at hguard
      obtain ⟨⟨⟨⟨⟨hd, hk⟩, hterm⟩, hi⟩, hcd⟩, hf⟩ := hguard
      obtain ⟨hr, hlt⟩ := hreg hd hk
      split
      · exact hc.deliverEnd hoff (fun h => by cases h) fun _ => hat
      · rename_i hen
        split
        · rename_i hle
          refine ih fun _ _ => ⟨?_, hlt⟩
          exact ⟨hr.total, by rw [← List.drop_drop, hr.rest, List.flatten_cons, List.drop_left], hle,
            hr.fin⟩
        · rename_i hgt
          have ht := hc.tracks
          have halive := ht.alive hi hcd hf hterm
          have hdet := ht.not_detached hk
          have hoffers := hc.holds.offers ht hdet (hc.holds.not_dropped ht halive hses hdet) hd hr
            (by omega)
          have hfact : (Fact.offered (buf.drop (s.recvDeferredOffset - off))
              (fin && off + buf.length == total)).Receives s.log :=
            ⟨hoff, by rw [ht.enabled]; simpa using hen, halive, ht.no_reset halive, hoffers.part,
              hoffers.whole⟩
          have hahead : Ahead s (s.note (.offered (buf.drop (s.recvDeferredOffset - off))
              (fin && off + buf.length == total))) := ahead_offered
          refine ⟨(hc.offered hfact).push _, { hahead with },
            .inr ⟨_, rfl, rfl, hdel, ?_, hses, hahead.attached.mpr hat⟩⟩
          · have hoff := hr.off
            have hskip : s.recvDeferredOffset = off + (s.recvDeferredOffset - off) := by omega
            have hlen : s.recvDeferredOffset - off < buf.length := by omega
            exact ⟨rfl, { hoffers with }, .inl hk, fun _ => ⟨{ hr with }, hskip, hlen⟩⟩

theorem Loops.behind (h : Loops u t) (ha : Ahead s u) (hf : u.frames = s.frames) : Loops s t where
  core := h.core
  ahead := ha.trans h.ahead
  stacked := by rw [← hf]; exact h.stacked

theorem Core.deliverBytes {rearm : Bool} (hc : Core s) (hno : offering s.log = none) (hdel : s.recvDelivering = false)
    (hal : s.recvDeferred = true → Alive s.log ∧ s.recvEnabled = true) (hat : s.Attached) :
    Loops s (s.deliverBytes o rearm) := by
  have ht := hc.tracks
  have hh := hc.holds
  unfold Stream.deliverBytes
  split
  · refine ⟨hc.rearmReceive rearm fun _ => hat, ahead_rearmReceive rearm, .inl ⟨?_, ?_, ?_⟩⟩
    · exact rearmReceive_frames rearm
    · rw [rearmReceive_delivering, hdel]
    · rw [rearmReceive_offering, hno]
  · rename_i hguard
    obtain ⟨-, hdef⟩ := by simpa using hguard
    obtain ⟨halive, hen⟩ := hal hdef
    split
    · rename_i key hses hk
      have hc' := hc.delivering true
      have ha' : Ahead s { s with recvDelivering := true } := { Ahead.refl s with }
      have hdet := ht.not_detached hk
      have hoff := hh.offset hdef
      dsimp only
      split
      · rename_i hlt
        refine (hc'.deliverRegions hno rfl hses (.inl hk) fun _ _ => ⟨?_, .inl hlt⟩).behind ha' rfl
        exact ⟨rfl, rfl, Nat.zero_le _, rfl⟩
      · rename_i hge
        split
        · rename_i hfin
          obtain ⟨hfin, hnd⟩ := Bool.and_eq_true_iff.mp hfin
          have hoffers := hh.offers_fin ht hdet (hh.not_dropped ht halive hses hdet) hfin
            (by simpa using hnd) (Nat.le_of_not_lt hge)
          have hfact : (Fact.offered [] true).Receives { s with recvDelivering := true }.log :=
            ⟨hno, by rw [ht.enabled]; exact hen, halive, ht.no_reset halive, hoffers.part,
              hoffers.whole⟩
          refine ⟨(hc'.offered hfact).push _, { ha'.trans ahead_offered with },
            .inr ⟨_, rfl, rfl, rfl, ?_, hses, .of_ectx hk⟩⟩
          exact ⟨rfl, { hoffers with }, fun _ => Nat.le_antisymm hoff (Nat.le_of_not_lt hge)⟩
        · rename_i hfin
          refine (hc'.deliverEnd hno (fun _ hheld => ?_) fun _ => hat).behind ha' rfl
          exfalso
          obtain h | h := hheld
          · refine h ?_
            rw [Stream.held, if_pos hdef, List.drop_eq_nil_iff]
            exact Nat.le_of_not_lt hge
          · obtain ⟨hf, hn⟩ := Bool.and_eq_true_iff.mp h
            exact hfin (Bool.and_eq_true_iff.mpr ⟨(Bool.and_eq_true_iff.mp hf).2, hn⟩)
    · rename_i hkeyless
      have hlost : Discards s.log := by
        obtain hk | hk := hat
        · obtain ⟨key, hkey⟩ := Option.isSome_iff_exists.mp hk
          have hses : s.session = false := by
            by_contra h
            exact hkeyless key (by simpa using h) hkey
          exact .inr (.inr (ht.sessionGone.mpr hses))
        · exact .inr (.inl hk)
      refine ⟨(hc.dropDeferred fun _ => hlost).rearmReceive rearm fun _ =>
          ahead_dropDeferred.attached.mpr hat,
        ahead_dropDeferred.trans (ahead_rearmReceive rearm), .inl ⟨?_, ?_, ?_⟩⟩
      · rw [rearmReceive_frames, dropDeferred_frames]
      · rw [rearmReceive_delivering, dropDeferred_delivering, hdel]
      · rw [rearmReceive_offering, dropDeferred_offering, hno]

/-! # The answers of the engine -/

/-- The engine took `buf`, and the offset moves to `off`. -/
def took (buf : Bytes) (fin : Bool) (off : Nat) (s : Stream) : Stream :=
  { s with recvDeferredOffset := off, finDelivered := s.finDelivered || fin }.note (.taken buf fin)

theorem ahead_took {buf : Bytes} {fin : Bool} {off : Nat} : Ahead s (s.took buf fin off) :=
  ⟨rfl, rfl, rfl, id, id, rfl, by simp [took, Stream.note]⟩

theorem Core.took {buf : Bytes} {fin : Bool} {off : Nat} (hc : Core s) (ho : Offers buf fin s)
    (hoffer : ∃ offer : Bytes × Bool, offering s.log = some offer ∧ buf <+: offer.1 ∧
      (fin = true → offer.2 = true ∧ buf = offer.1))
    (hheld : s.recvDeferred = true → .detached ∉ s.log →
      s.held = buf ++ (s.recvDeferredData.getD []).flatten.drop off)
    (hoff : s.recvDeferred = true → off ≤ (s.recvDeferredData.getD []).flatten.length)
    (hnone : s.recvDeferred = false → off = 0) : Core (s.took buf fin off) where
  tracks := by
    have ht := hc.tracks
    constructor <;> simp only [Stream.took, Stream.note, List.mem_cons, reduceCtorEq, false_or]
    · exact ht.armed
    · exact ht.enabled
    · exact ht.ended
    · rw [Stream.finTaken, ht.finTaken, Bool.or_comm]
    · exact ht.cancelIssued
    · exact ht.failed
    · exact ht.terminal
    · exact ht.sessionGone
    · exact ht.reset
    · exact ht.shutdown
    · exact ht.cancelDeferred
    · exact ht.detached
  holds := by
    have hh := hc.holds
    have hnil : takenBytes s.log = receivedBytes s.log → buf = [] := by
      intro heq
      have h := ho.part.length_le
      rw [← heq, List.length_append] at h
      exact List.length_eq_zero_iff.mp (by omega)
    constructor
    · intro hn hd
      have hn : .dropped ∉ s.log := fun h => hn (List.mem_cons_of_mem _ h)
      have hd : .detached ∉ s.log := fun h => hd (List.mem_cons_of_mem _ h)
      have hw := hh.whole hn hd
      show receivedBytes s.log = (takenBytes s.log ++ buf) ++ _
      rw [hw, List.append_assoc]
      congr 1
      by_cases hdef : s.recvDeferred = true
      · have hrest : (s.took buf fin off).held = (s.recvDeferredData.getD []).flatten.drop off :=
          if_pos hdef
        rw [hheld hdef hd, hrest]
      · have hempty : s.held = [] := if_neg hdef
        have hrest : (s.took buf fin off).held = [] := if_neg hdef
        rw [hempty, List.append_nil] at hw
        rw [hempty, hrest, hnil hw.symm, List.append_nil]
    · intro hn hd hf
      have hn : .dropped ∉ s.log := fun h => hn (List.mem_cons_of_mem _ h)
      have hd : .detached ∉ s.log := fun h => hd (List.mem_cons_of_mem _ h)
      have hw := hh.wholeFin hn hd hf
      show (s.finDelivered || fin) = true ∨
        (s.recvDeferred && s.recvDeferredFin && !(s.finDelivered || fin)) = true
      unfold Stream.heldFin at hw
      revert hw
      cases fin <;> cases s.finDelivered <;> simp
    · exact ho.part
    · intro hf
      obtain hf | hf := Bool.or_eq_true_iff.mp hf
      · obtain ⟨hr, heq⟩ := hh.partFin hf
        refine ⟨hr, ?_⟩
        show takenBytes s.log ++ buf = receivedBytes s.log
        rw [hnil heq, List.append_nil, heq]
      · exact ⟨(ho.whole hf).1, (ho.whole hf).2.2⟩
    · intro hm
      exact Discards.append (f := [.taken buf fin])
        (hh.lost (by simpa [Stream.took, Stream.note] using hm))
    · exact hh.heldFin
    · exact hh.finEnded
    · exact hoff
    · exact fun hd => ⟨hnone hd, (hh.empty hd).2⟩
    · exact hh.pending
    · exact fun h => ahead_took.attached.mpr (hh.attached h)
  starts := hc.starts.of_log rfl ahead_took.detached
  ends := { hc.ends with }
  received := ⟨⟨hoffer, ho.part, ho.whole⟩, hc.received⟩

/-- What `engineTook` wrote, in one piece. -/
theorem bytesTook_eq (d : Delivery) : s.bytesTook o d =
    let off := if s.recvDeferred && s.ectx = some d.key then d.off + d.skip + o.consumed
      else s.recvDeferredOffset
    let t := s.took ((d.buf.drop d.skip).take o.consumed)
      (d.fin && d.off + d.buf.length == d.total && o.rc == Rc.ok) off
    if o.rc ≠ .ok ∧ o.rc ≠ .wouldBlock then t.note .refusedInput else t := by
  have hfin : ∀ (b : Bool) (u : Stream), (if b then { u with finDelivered := true } else u) =
      { u with finDelivered := u.finDelivered || b } := by
    intro b u
    cases b <;> simp
  have hoff : ∀ (b : Bool) (u : Stream) (n : Nat),
      (if b then { u with recvDeferredOffset := n } else u) =
        { u with recvDeferredOffset := if b then n else u.recvDeferredOffset } := by
    intro b u n
    cases b <;> rfl
  unfold Stream.bytesTook Stream.engineTook
  dsimp only
  rw [hfin, hoff]
  by_cases he : o.rc ≠ .ok ∧ o.rc ≠ .wouldBlock
  · rw [if_pos he, if_pos he]
    simp [Stream.took, Stream.note, Bool.and_comm]
  · rw [if_neg he, if_neg he]
    simp [Stream.took, Stream.note, Bool.and_comm]

/-- What an answer says of the bytes that were offered. -/
theorem Offers.taken {buf : Bytes} {fin : Bool} {n : Nat} {ok : Bool} (h : Offers buf fin s)
    (hok : ok = true → n = buf.length) : Offers (buf.take n) (fin && ok) s where
  part := by
    refine List.IsPrefix.trans ?_ h.part
    rw [List.prefix_append_right_inj]
    exact List.take_prefix n buf
  whole := by
    intro hf
    obtain ⟨hf, ho⟩ := Bool.and_eq_true_iff.mp hf
    rw [hok ho, List.take_length]
    exact h.whole hf

/-- An answer is one to the offer. -/
theorem taken_offer {buf : Bytes} {fin ok : Bool} {n : Nat} (h : offering s.log = some (buf, fin))
    (hok : ok = true → n = buf.length) : ∃ offer : Bytes × Bool, offering s.log = some offer ∧
      buf.take n <+: offer.1 ∧ ((fin && ok) = true → offer.2 = true ∧ buf.take n = offer.1) := by
  refine ⟨_, h, List.take_prefix n buf, fun hf => ?_⟩
  obtain ⟨hf, ho⟩ := Bool.and_eq_true_iff.mp hf
  exact ⟨hf, by rw [hok ho, List.take_length]⟩

theorem Core.bytesTook {d : Delivery} (hc : Core s) (hg : Frame.Good s (.bytes d))
    (hans : s.Answers o (d.buf.drop d.skip)) : Core (s.bytesTook o d) := by
  obtain ⟨hoffer, ho, hkey, hreg⟩ := hg
  obtain ⟨hle, hok, -⟩ := hans
  rw [List.length_drop] at hle
  have hlen : ((d.buf.drop d.skip).take o.consumed).length = o.consumed := by
    rw [List.length_take, List.length_drop]
    omega
  have htook : Core (s.took ((d.buf.drop d.skip).take o.consumed)
      (d.fin && d.off + d.buf.length == d.total && o.rc == Rc.ok)
      (if s.recvDeferred && s.ectx = some d.key then d.off + d.skip + o.consumed
        else s.recvDeferredOffset)) := by
    have hok' : (o.rc == Rc.ok) = true → o.consumed = (d.buf.drop d.skip).length := fun h =>
      hok (by simpa using h)
    refine hc.took (ho.taken hok') (taken_offer hoffer hok') ?_ ?_ ?_
    · intro hdef hdet
      obtain ⟨hr, hoff, hskip⟩ := hreg hdef
      rw [if_pos (by simp [hdef, hkey.resolve_right hdet]), Stream.held, if_pos hdef, hoff,
        Nat.add_assoc, ← List.drop_drop, ← List.drop_drop, hr.rest, List.flatten_cons]
      rw [← List.drop_drop, List.drop_append_of_le_length (Nat.le_of_lt hskip)]
      nth_rewrite 1 [← List.take_append_drop o.consumed (d.buf.drop d.skip)]
      rw [List.append_assoc, List.drop_append_of_le_length (by rw [List.length_drop]; exact hle)]
    · intro hdef
      obtain ⟨hr, hoff, hskip⟩ := hreg hdef
      have htotal := congrArg List.length hr.rest
      rw [List.length_drop, List.flatten_cons, List.length_append] at htotal
      split
      · omega
      · exact hc.holds.offset hdef
    · intro hdef
      rw [if_neg (by simp [hdef])]
      exact (hc.holds.empty hdef).1
  rw [bytesTook_eq]
  dsimp only
  split
  · exact htook.calm ((Calm.refl _).refusedInput)
  · exact htook

/-- An error of the engine comes with the end of the stream. -/
theorem Core.answer_lost {buf : Bytes} (hc : Core s) (hat : s.Attached) (hans : s.Answers o buf)
    (hok : o.rc ≠ .ok) (hb : (o.rc == Rc.wouldBlock) = false) : Discards s.log := by
  obtain h | h := hans.2.2 hok (by simpa using hb)
  · refine .inl fun ha => ?_
    obtain h | h := hc.ends.closing h
    · exact ha.2.1 (hc.tracks.cancelIssued.mpr h)
    · exact ha.2.2.2 (hc.tracks.terminal.mpr h)
  · refine .inr (.inl (hat.resolve_left fun h' => ?_))
    rw [h] at h'
    cases h'

theorem Core.bytesReturned {d : Delivery} (hc : Core s) (hdel : s.recvDelivering = true)
    (hses : s.session = true) (hat : s.Attached) (hg : Frame.Good s (.bytes d))
    (hans : s.Answers o (d.buf.drop d.skip)) : Loops s (s.bytesReturned o d) := by
  have htook := hc.bytesTook hg hans
  have hahead : Ahead s (s.bytesTook o d) := by
    rw [bytesTook_eq]
    dsimp only
    split
    · exact ahead_took.trans (Calm.ahead ((Calm.refl _).refusedInput))
    · exact ahead_took
  have hframes : (s.bytesTook o d).frames = s.frames := by
    rw [bytesTook_eq]
    dsimp only
    split <;> rfl
  unfold Stream.bytesReturned
  split
  · rename_i hok
    obtain ⟨-, ho, hkey, hreg⟩ := hg
    have heq : s.bytesTook o d = s.took ((d.buf.drop d.skip).take o.consumed)
        (d.fin && d.off + d.buf.length == d.total)
        (if s.recvDeferred && s.ectx = some d.key then d.off + d.skip + o.consumed
          else s.recvDeferredOffset) := by
      rw [bytesTook_eq]
      simp [hok]
    refine (htook.deliverRegions ?_ ?_ ?_ ?_ ?_).behind hahead hframes
    · rw [heq]
      rfl
    · rw [heq]
      exact hdel
    · rw [heq]
      exact hses
    · rw [hahead.ectx, hahead.detached]
      exact hkey
    · rw [heq]
      intro hdef hk
      obtain ⟨hr, hoff, hskip⟩ := hreg hdef
      have hcons : o.consumed = d.buf.length - d.skip := by
        rw [hans.2.1 hok, List.length_drop]
      have hoff' : (if s.recvDeferred && s.ectx = some d.key then d.off + d.skip + o.consumed
          else s.recvDeferredOffset) = d.off + d.buf.length := by
        have hk : s.ectx = some d.key := hk
        have hdef : s.recvDeferred = true := hdef
        rw [if_pos (by simp [hdef, hk])]
        omega
      have htotal := congrArg List.length hr.rest
      rw [List.length_drop, hr.total, List.flatten_cons, List.length_append] at htotal
      have hle := hc.holds.offset hdef
      rw [hr.total] at hle
      refine ⟨⟨hr.total, ?_, Nat.le_of_eq hoff'.symm, hr.fin⟩, ?_⟩
      · show (s.recvDeferredData.getD []).flatten.drop (d.off + d.buf.length) = d.rest.flatten
        rw [← List.drop_drop, hr.rest, List.flatten_cons, List.drop_left]
      · by_cases hlast : d.off + d.buf.length = d.total
        · refine .inr fun hf => ?_
          simp [Stream.took, Stream.note, hf, hlast]
        · refine .inl ?_
          show (if s.recvDeferred && s.ectx = some d.key then d.off + d.skip + o.consumed
            else s.recvDeferredOffset) < d.total
          rw [hoff']
          omega
  · rename_i hok
    have hnone : offering (s.bytesTook o d).log = none := by
      rw [bytesTook_eq]
      dsimp only
      split <;> rfl
    refine (htook.deliverEnd hnone (fun hb _ => ?_) fun _ => hahead.attached.mpr hat).behind hahead
      hframes
    have hlost := hc.answer_lost hat hans hok hb
    rw [bytesTook_eq]
    dsimp only
    split
    · exact Discards.append (f := [.refusedInput, .taken _ _]) hlost
    · exact Discards.append (f := [.taken _ _]) hlost

theorem Core.bareFinReturned {rearm : Bool} (hc : Core s) (hat : s.Attached)
    (hg : Frame.Good s (.bareFin rearm)) (hans : s.Answers o []) :
    Loops s (s.bareFinReturned o rearm) := by
  obtain ⟨hoffer, ho, hoff⟩ := hg
  have hfalse : s.finDelivered = false := by
    rw [← hc.tracks.finTaken]
    exact (ho.whole rfl).2.1
  have htook : Core (s.took [] (true && o.rc == Rc.ok) s.recvDeferredOffset) := by
    have hlen : (o.rc == Rc.ok) = true → 0 = ([] : Bytes).length := fun _ => rfl
    refine hc.took (ho.taken hlen) (taken_offer hoffer hlen) ?_ (fun h => hc.holds.offset h)
      fun h => (hc.holds.empty h).1
    intro hdef _
    rw [Stream.held, if_pos hdef, List.nil_append]
  have heq : { s.engineTook o [] true with finDelivered := o.rc == Rc.ok } =
      if o.rc ≠ .ok ∧ o.rc ≠ .wouldBlock then
        (s.took [] (true && o.rc == Rc.ok) s.recvDeferredOffset).note .refusedInput
      else s.took [] (true && o.rc == Rc.ok) s.recvDeferredOffset := by
    unfold Stream.engineTook
    split <;> simp [Stream.took, Stream.note, hfalse]
  have hcalm : Calm (s.took [] (true && o.rc == Rc.ok) s.recvDeferredOffset)
      { s.engineTook o [] true with finDelivered := o.rc == Rc.ok } := by
    rw [heq]
    split
    · exact (Calm.refl _).refusedInput
    · exact .refl _
  have hahead := ahead_took.trans hcalm.ahead
  have hframes : ({ s.engineTook o [] true with finDelivered := o.rc == Rc.ok }).frames = s.frames := by
    rw [heq]
    split <;> rfl
  unfold Stream.bareFinReturned
  have hnone : offering ({ s.engineTook o [] true with finDelivered := o.rc == Rc.ok }).log = none := by
    rw [hcalm.offering]
    rfl
  refine ((htook.calm hcalm).deliverEnd hnone (fun hb hheld => ?_) fun _ => hahead.attached.mpr hat).behind
    hahead hframes
  by_cases hok : o.rc = .ok
  · -- The FIN was all that was held.
    exfalso
    rw [hcalm.held, hcalm.heldFin] at hheld
    obtain h | h := hheld
    · refine h ?_
      by_cases hdef : s.recvDeferred = true
      · refine (if_pos hdef).trans (List.drop_eq_nil_iff.mpr ?_)
        exact Nat.le_of_eq (hoff hdef).symm
      · exact if_neg hdef
    · simp [Stream.heldFin, Stream.took, Stream.note, hok] at h
  · have hlost := hc.answer_lost hat hans hok hb
    rw [heq]
    split
    · exact Discards.append (f := [.refusedInput, .taken _ _]) hlost
    · exact Discards.append (f := [.taken _ _]) hlost

/-! # Receive completions and pauses -/

/-- A completion arrives, and a FIN or an error ends the receive side. -/
def arrived (content : Bytes) (fin errored : Bool) (s : Stream) : Stream :=
  { s with recvPending := false, recvEnded := s.recvEnded || fin || errored }.note
    (.completed content fin errored)

theorem Core.flushed (hc : Core s) (hp : s.recvPending = true) :
    Core ({ s with recvPending := false }.note .flushed) where
  tracks := by
    have ht := hc.tracks
    constructor <;> simp only [Stream.note, List.mem_cons, reduceCtorEq, false_or]
    · rfl
    · exact ht.enabled
    · exact ht.ended
    · exact ht.finTaken
    · exact ht.cancelIssued
    · exact ht.failed
    · exact ht.terminal
    · exact ht.sessionGone
    · exact ht.reset
    · exact ht.shutdown
    · exact ht.cancelDeferred
    · exact ht.detached
  holds :=
    { hc.holds.note (f := .flushed) rfl with
      pending := fun h => by cases h
      attached := fun h => by
        obtain h | h := h
        · cases h
        · exact (hc.holds.attached (.inr h)).of_log rfl (List.mem_cons_of_mem _) }
  starts := hc.starts.of_log rfl (by simp [Stream.note])
  ends := hc.ends.of_life rfl
  received := ⟨hc.tracks.armed.trans hp, hc.received⟩

section Completed

variable {content : Option (List Bytes)} {fin errored : Bool} (hc : Core s)
  (hp : s.recvPending = true)
include hc hp

theorem Core.not_finReceived : finReceived s.log = false := by
  by_contra hf
  have h := hc.holds.finEnded (by simpa using hf)
  rw [(hc.holds.pending hp).2] at h
  cases h

theorem Core.not_finDelivered : s.finDelivered = false := by
  by_contra hf
  have h := (hc.holds.partFin (by simpa using hf)).1
  rw [hc.not_finReceived hp] at h
  cases h

omit hp in
theorem Tracks.arrived {content : Bytes} : Tracks (s.arrived content fin errored) := by
  have ht := hc.tracks
  constructor <;> simp only [Stream.arrived, Stream.note, List.mem_cons, reduceCtorEq, false_or]
  · rfl
  · exact ht.enabled
  · rw [Stream.ended, ht.ended, Bool.or_comm, Bool.or_assoc]
  · exact ht.finTaken
  · exact ht.cancelIssued
  · exact ht.failed
  · exact ht.terminal
  · exact ht.sessionGone
  · exact ht.reset
  · exact ht.shutdown
  · exact ht.cancelDeferred
  · exact ht.detached

theorem Core.received_arrived {content : Bytes} : Received (s.arrived content fin errored).log :=
  ⟨⟨hc.tracks.armed.trans hp, hc.tracks.ended.trans (hc.holds.pending hp).2⟩, hc.received⟩

/-- The completion is held from now on. -/
theorem Core.completed (content : Option (List Bytes)) (fin errored : Bool) :
    Core { s.arrived (content.getD []).flatten fin errored with
      recvDeferred := true, recvDeferredFin := fin, recvDeferredErrored := errored,
      recvDeferredData := if content.isSome then content else s.recvDeferredData } := by
  have hh := hc.holds
  obtain ⟨hdef, hended⟩ := hh.pending hp
  obtain ⟨hoff, hdata⟩ := hh.empty hdef
  have hfin := hc.not_finReceived hp
  have hdel := hc.not_finDelivered hp
  have hheld : s.held = [] := if_neg (by rw [hdef]; decide)
  have hcontent : (if content.isSome then content else s.recvDeferredData).getD [] =
      content.getD [] := by
    rw [hdata]
    cases content <;> rfl
  have htracks : Tracks (s.arrived (content.getD []).flatten fin errored) := Tracks.arrived hc
  refine ⟨{ htracks with }, ?_, hc.starts.of_log rfl (by simp [arrived, Stream.note]),
    hc.ends.of_life rfl, hc.received_arrived hp⟩
  constructor
  · intro hn hd
    have hw := hh.whole (fun h => hn (List.mem_cons_of_mem _ h))
      fun h => hd (List.mem_cons_of_mem _ h)
    rw [hheld, List.append_nil] at hw
    show receivedBytes s.log ++ (content.getD []).flatten = takenBytes s.log ++ _
    rw [hw]
    congr 1
    refine ((if_pos rfl).trans ?_).symm
    show ((if content.isSome then content else s.recvDeferredData).getD []).flatten.drop
      s.recvDeferredOffset = _
    rw [hcontent, hoff, List.drop_zero]
  · intro _ _ hf
    refine .inr ?_
    have hf : (fin || finReceived s.log) = true := hf
    rw [hfin, Bool.or_false] at hf
    simp [Stream.heldFin, arrived, Stream.note, hf, hdel]
  · exact hh.part.trans (List.prefix_append _ _)
  · intro hf
    rw [show s.finDelivered = true from hf] at hdel
    cases hdel
  · intro hm
    exact Discards.append (f := [.completed _ _ _])
      (hh.lost (by simpa [arrived, Stream.note] using hm))
  · intro hf
    have hf : fin = true := hf
    exact ⟨rfl, by simp [arrived, Stream.note, Stream.finReceived, hf]⟩
  · intro hf
    have hf : (fin || finReceived s.log) = true := hf
    rw [hfin, Bool.or_false] at hf
    simp [arrived, Stream.note, hf]
  · intro _
    show s.recvDeferredOffset ≤ _
    rw [hoff]
    exact Nat.zero_le _
  · intro h
    cases h
  · intro h
    cases h
  · exact fun _ => (hh.attached (.inl hp)).of_log rfl (List.mem_cons_of_mem _)

theorem Core.completedEmpty : Core (s.arrived [] false errored) := by
  have hh := hc.holds
  obtain ⟨hdef, hended⟩ := hh.pending hp
  refine ⟨Tracks.arrived hc, ?_, hc.starts.of_log rfl (by simp [arrived, Stream.note]),
    hc.ends.of_life rfl, hc.received_arrived hp⟩
  constructor
  · intro hn hd
    show receivedBytes s.log ++ [] = _
    rw [List.append_nil]
    exact hh.whole (fun h => hn (List.mem_cons_of_mem _ h)) fun h => hd (List.mem_cons_of_mem _ h)
  · exact fun hn hd => hh.wholeFin (fun h => hn (List.mem_cons_of_mem _ h))
      fun h => hd (List.mem_cons_of_mem _ h)
  · exact hh.part.trans (List.prefix_append _ _)
  · intro hf
    have hf : s.finDelivered = true := hf
    rw [hc.not_finDelivered hp] at hf
    cases hf
  · intro hm
    exact Discards.append (f := [.completed _ _ _])
      (hh.lost (by simpa [arrived, Stream.note] using hm))
  · exact hh.heldFin
  · intro hf
    have hf : finReceived s.log = true := hf
    rw [hc.not_finReceived hp] at hf
    cases hf
  · exact hh.offset
  · exact hh.empty
  · intro h
    cases h
  · exact fun _ => (hh.attached (.inl hp)).of_log rfl (List.mem_cons_of_mem _)

end Completed

theorem arrived_eq (content : Bytes) (fin errored : Bool) :
    (if fin || errored then
      { ({ s with recvPending := false } : Stream).note (.completed content fin errored) with
        recvEnded := true }
    else ({ s with recvPending := false } : Stream).note (.completed content fin errored)) =
      s.arrived content fin errored := by
  cases fin <;> cases errored <;> simp [arrived, Stream.note]

theorem Core.receiveCompleted {content : Option (List Bytes)} {fin errored : Bool} (hc : Core s)
    (hno : offering s.log = none) (hdel : s.recvDelivering = false) (hp : s.recvPending = true)
    (hfail : s.failedSeen = true → s.cancelIssued = true ∨ s.terminal = true)
    (hterm : s.terminal = true → s.cancelIssued = true)
    (hready : s.readyProcessed = false → content = none ∧ fin = false)
    (hdefer : s.readyProcessed = true → s.cancelDeferred = true → s.cancelIssued = true) :
    Loops s (s.receiveCompleted o content fin errored) := by
  have hat : s.Attached := hc.holds.attached (.inl hp)
  unfold Stream.receiveCompleted
  dsimp only
  rw [arrived_eq]
  split
  · exact ⟨hc.flushed hp, ⟨rfl, rfl, rfl, id, id, rfl, by simp [Stream.note]⟩, .inl ⟨rfl, hdel, hno⟩⟩
  · rename_i hi
    have hi : s.cancelIssued = false := by simpa using hi
    have hnoterm : s.terminal = false := by
      by_contra h
      rw [hterm (by simpa using h)] at hi
      cases hi
    have hnofail : s.failedSeen = false := by
      by_contra h
      obtain h | h := hfail (by simpa using h)
      · rw [hi] at h
        cases h
      · rw [hnoterm] at h
        cases h
    have hahead : ∀ c, Ahead s (s.arrived c fin errored) := fun c =>
      ⟨rfl, rfl, rfl, id, id, rfl, by simp [arrived, Stream.note]⟩
    split
    · rename_i hsome
      split
      · rename_i hdef
        have hdef : s.recvDeferred = true := hdef
        rw [(hc.holds.pending hp).1] at hdef
        cases hdef
      · have hheld := hc.completed hp content fin errored
        split
        · exact ⟨hheld, { hahead (content.getD []).flatten with }, .inl ⟨rfl, hdel, hno⟩⟩
        · rename_i hen
          have hnodefer : s.cancelDeferred = false := by
            by_contra h
            cases hr : s.readyProcessed with
            | false =>
              obtain ⟨rfl, rfl⟩ := hready hr
              cases hsome
            | true =>
              rw [hdefer hr (by simpa using h)] at hi
              cases hi
          refine (hheld.deliverBytes hno hdel (fun _ => ⟨?_, by simpa using hen⟩) ?_).behind
            { hahead (content.getD []).flatten with } rfl
          · exact hheld.tracks.alive hi hnodefer hnofail hnoterm
          · exact hat.of_log rfl (List.mem_cons_of_mem _)
    · rename_i hnone
      obtain ⟨rfl, rfl⟩ : content = none ∧ fin = false := by
        cases content <;> cases fin <;> simp_all
      refine ⟨(hc.completedEmpty hp).rearmReceive _ fun _ =>
          hat.of_log rfl (List.mem_cons_of_mem _),
        (hahead []).trans (ahead_rearmReceive _), .inl ⟨?_, ?_, ?_⟩⟩
      · exact rearmReceive_frames _
      · rw [rearmReceive_delivering]
        exact hdel
      · rw [rearmReceive_offering]
        exact hno

theorem Core.enabled (hc : Core s) (b : Bool) :
    Core ({ s with recvEnabled := b }.note (.enabled b)) where
  tracks := by
    have ht := hc.tracks
    constructor <;> simp only [Stream.note, List.mem_cons, reduceCtorEq, false_or]
    · exact ht.armed
    · rfl
    · exact ht.ended
    · exact ht.finTaken
    · exact ht.cancelIssued
    · exact ht.failed
    · exact ht.terminal
    · exact ht.sessionGone
    · exact ht.reset
    · exact ht.shutdown
    · exact ht.cancelDeferred
    · exact ht.detached
  holds := { hc.holds.note (f := .enabled b) rfl with }
  starts := hc.starts.of_log rfl (by simp [Stream.note])
  ends := hc.ends.of_life rfl
  received := ⟨trivial, hc.received⟩

/-- Inside a call of the loop, a pause or a resume is only remembered. -/
theorem opRecvEnable_delivering (b : Bool) (hdel : s.recvDelivering = true) :
    (s.opRecvEnable o b).2 = s ∨
      (s.opRecvEnable o b).2 = { s with recvEnabled := b }.note (.enabled b) := by
  unfold Stream.opRecvEnable
  split
  · exact .inl rfl
  · split
    · exact .inl rfl
    · refine .inr ?_
      dsimp only
      rw [if_pos (by simp [Stream.note, hdel])]

theorem Core.opRecvEnable {b : Bool} (hc : Core s) (hno : offering s.log = none) (hdel : s.recvDelivering = false)
    (hat : s.Attached) : Loops s (s.opRecvEnable o b).2 := by
  have hsame : Loops s s := ⟨hc, .refl s, .inl ⟨rfl, hdel, hno⟩⟩
  unfold Stream.opRecvEnable
  split
  · exact hsame
  · rename_i hlive
    simp only [Bool.or_eq_true, Bool.not_eq_true', not_or, Bool.not_eq_true] at hlive
    obtain ⟨⟨⟨⟨hterm, hf⟩, hi⟩, hcd⟩, -⟩ := hlive
    split
    · exact hsame
    · have hen := hc.enabled b
      have hahead : Ahead s ({ s with recvEnabled := b }.note (.enabled b)) :=
        ⟨rfl, rfl, rfl, id, id, rfl, by simp [Stream.note]⟩
      have hat' := hahead.attached.mpr hat
      have hrearm : ∀ rearm, Loops s
          (({ s with recvEnabled := b }.note (.enabled b)).rearmReceive rearm) := fun rearm =>
        ⟨hen.rearmReceive rearm fun _ => hat', hahead.trans (ahead_rearmReceive rearm),
          .inl ⟨rearmReceive_frames rearm, (rearmReceive_delivering rearm).trans hdel,
            (rearmReceive_offering rearm).trans hno⟩⟩
      dsimp only
      split
      · exact ⟨hen, hahead, .inl ⟨rfl, hdel, hno⟩⟩
      · rename_i hb
        split
        · split
          · refine (hen.deliverBytes hno hdel (fun _ => ⟨hen.tracks.alive hi hcd hf hterm, ?_⟩)
              hat').behind hahead rfl
            simpa [Stream.note, hdel] using hb
          · exact hrearm _
        · exact hrearm true

end Stream

end Wtquic.Network
