-- SUMMARY: Every event keeps what the receive side promises, and so does every run.
import Wtquic.Network.ReceiveSteps

namespace Wtquic.Network

open Engine (Rc)

variable {o : Oracle}

namespace Stream

variable {s t u : Stream}

/-! # Frames -/

theorem Frame.Good.popped {f : Frame} (h : f.Good s) (fs : List Frame) :
    f.Good { s with frames := fs } := by
  cases f with
  | bytes d =>
    obtain ⟨hoffer, ho, hkey, hreg⟩ := h
    exact ⟨hoffer, { ho with }, hkey, fun hd => ⟨{ (hreg hd).1 with }, (hreg hd).2⟩⟩
  | bareFin => exact ⟨h.1, { h.2.1 with }, h.2.2⟩
  | _ => exact h

theorem Frame.good_of_not_recv {f : Frame} (hf : f.recv = false) :
    f.Good s ↔ offering s.log = none := by
  cases f <;> first | exact Iff.rfl | cases hf

/-- No call of the receive loop is open. -/
structure Resting (s : Stream) : Prop where
  core : Core s
  delivering : s.recvDelivering = false
  offering : offering s.log = none
  frames : ∀ f ∈ s.frames, f.recv = false
  starting : s.Starting

theorem Resting.stacked (h : Resting s) : s.Stacked s.frames := by
  have hf := h.frames
  revert hf
  cases s.frames with
  | nil => exact fun _ => ⟨h.delivering, h.offering⟩
  | cons f fs =>
    intro hf
    have hr := hf f List.mem_cons_self
    refine ⟨by rw [hr, h.delivering], (Frame.good_of_not_recv hr).mpr h.offering,
      fun g hg => hf g (List.mem_cons_of_mem _ hg), fun h' => ?_⟩
    rw [hr] at h'
    cases h'

theorem Resting.reads (h : Resting s) (hfail : s.failedSeen = true → s.Failing) : Reads s :=
  ⟨h.core, h.stacked, hfail, h.starting⟩

/-- Between two callbacks of the transport. -/
theorem Reads.resting (h : Reads s) (hf : s.frames = []) : Resting s where
  core := h.core
  delivering := by
    have hs := h.stacked
    rw [hf] at hs
    exact hs.1
  offering := by
    have hs := h.stacked
    rw [hf] at hs
    exact hs.2
  frames := by
    rw [hf]
    simp
  starting := h.starting

theorem Reads.not_failing (h : Reads s) (hf : s.frames = []) :
    s.failedSeen = true → s.cancelIssued = true ∨ s.terminal = true := by
  intro hs
  obtain hc | hc | ⟨f, hm, -⟩ := h.failing hs
  · exact .inl hc
  · exact .inr hc
  · rw [hf] at hm
    cases hm

theorem Resting.calm (h : Resting s) (hst : Calm s t) : Resting t where
  core := h.core.calm hst
  delivering := by rw [hst.recv, h.delivering]
  offering := by rw [hst.offering, h.offering]
  frames := by
    obtain ⟨fs, hf, ha⟩ := hst.frames
    intro f hm
    rw [hf] at hm
    obtain hm | hm := List.mem_append.mp hm
    · exact Frame.sends_recv (ha f hm)
    · exact h.frames f hm
  starting := by
    obtain ⟨fs, hf, ha⟩ := hst.frames
    have hold : ∀ f : Frame, f.sends = false → f ∈ t.frames → f ∈ s.frames := by
      intro f hs hm
      rw [hf] at hm
      obtain hm | hm := List.mem_append.mp hm
      · rw [ha f hm] at hs
        cases hs
      · exact hm
    constructor
    · rw [hst.ahead.readyProcessed, hst.ahead.cancelDeferred]
      exact fun hr hd => hst.ahead.cancelIssued (h.starting.deferred hr hd)
    · exact fun hm => hst.attached.mpr (h.starting.native (hold _ rfl hm))
    · intro hm
      have hcount : t.frames.count .peerOpened = s.frames.count .peerOpened := by
        rw [hf, List.count_append, List.count_eq_zero.mpr, Nat.zero_add]
        intro hm
        cases ha _ hm
      rw [hst.mem rfl, hst.life, hcount]
      exact h.starting.opened (hold _ rfl hm)

theorem Failing.calm (h : s.Failing) (hst : Calm s t) : t.Failing := by
  obtain ⟨fs, hf, -⟩ := hst.frames
  obtain h | h | ⟨f, hm, hff⟩ := h
  · exact .inl (hst.ahead.cancelIssued h)
  · exact .inr (.inl (hst.ahead.terminal h))
  · exact .inr (.inr ⟨f, by rw [hf]; exact List.mem_append_right _ hm, hff⟩)

theorem Starting.pop {f : Frame} {fs : List Frame} (h : s.Starting) (hf : s.frames = f :: fs) :
    ({ s with frames := fs } : Stream).Starting := by
  constructor
  · exact h.deferred
  · exact fun hm => h.native (by rw [hf]; exact List.mem_cons_of_mem _ hm)
  · intro hm
    obtain ⟨hectx, hdet, hready, hcount⟩ := h.opened (by rw [hf]; exact List.mem_cons_of_mem _ hm)
    refine ⟨hectx, hdet, hready, Nat.le_antisymm ?_ (List.count_pos_iff.mpr hm)⟩
    rw [hf] at hcount
    exact hcount ▸ List.count_le_count_cons

/-- A call into the engine returns. -/
theorem Reads.pop {f : Frame} {fs : List Frame} (h : Reads s) (hf : s.frames = f :: fs)
    (hn : f.recv = false) : Resting { s with frames := fs } where
  core := ⟨{ h.core.tracks with }, { h.core.holds with }, { h.core.starts with },
    { h.core.ends with }, h.core.received⟩
  delivering := by
    have hs := h.stacked
    rw [hf] at hs
    exact hs.1.trans hn
  offering := by
    have hs := h.stacked
    rw [hf] at hs
    exact (Frame.good_of_not_recv hn).mp (hs.2.1.popped fs)
  frames := by
    have hs := h.stacked
    rw [hf] at hs
    exact hs.2.2.1
  starting := h.starting.pop hf

theorem Reads.pop_failing {f : Frame} {fs : List Frame} (h : Reads s) (hf : s.frames = f :: fs)
    (hn : f.fails = false) (hs : s.failedSeen = true) : ({ s with frames := fs } : Stream).Failing := by
  obtain hc | hc | ⟨g, hm, hg⟩ := h.failing hs
  · exact .inl hc
  · exact .inr (.inl hc)
  · rw [hf] at hm
    obtain rfl | hm := List.mem_cons.mp hm
    · rw [hn] at hg
      cases hg
    · exact .inr (.inr ⟨g, hm, hg⟩)

/-- A step of the loop that began with no call of it open. -/
theorem Loops.reads (h : Loops s t) (hf : ∀ f ∈ s.frames, f.recv = false) (hs : s.Starting)
    (hfail : s.failedSeen = true → s.Failing) : Reads t := by
  have ha := h.ahead
  have hfailing : s.frames <:+ t.frames → t.failedSeen = true → t.Failing := by
    intro hsub hft
    rw [ha.failedSeen] at hft
    obtain hc | hc | ⟨g, hm, hg⟩ := hfail hft
    · exact .inl (ha.cancelIssued hc)
    · exact .inr (.inl (ha.terminal hc))
    · exact .inr (.inr ⟨g, hsub.subset hm, hg⟩)
  have hstarting : (∀ f : Frame, f ∈ t.frames → f.recv = false → f ∈ s.frames) →
      t.frames.count .peerOpened = s.frames.count .peerOpened → t.Starting := by
    intro hold hcount
    constructor
    · rw [ha.readyProcessed, ha.cancelDeferred]
      exact fun hr hd => ha.cancelIssued (hs.deferred hr hd)
    · exact fun hm => ha.attached.mpr (hs.native (hold _ hm rfl))
    · intro hm
      rw [ha.ectx, ha.detached, ha.readyProcessed, hcount]
      exact hs.opened (hold _ hm rfl)
  obtain ⟨hfr, hdel, hno⟩ | ⟨f, hfr, hrecv, hdel, hgood, hses, hat⟩ := h.stacked
  · refine Resting.reads ⟨h.core, hdel, hno, ?_, hstarting ?_ (by rw [hfr])⟩ (hfailing ?_)
    · rw [hfr]
      exact hf
    · intro g hm _
      rw [← hfr]
      exact hm
    · exact ⟨[], hfr.symm⟩
  · have hcount : t.frames.count .peerOpened = s.frames.count .peerOpened := by
      rw [hfr, List.count_cons_of_ne]
      rintro rfl
      cases hrecv
    refine ⟨h.core, ?_, hfailing ?_, hstarting ?_ hcount⟩
    · rw [hfr]
      exact ⟨by rw [hrecv, hdel], hgood, hf, fun _ => ⟨hses, hat⟩⟩
    · rw [hfr]
      exact List.suffix_cons f s.frames
    · intro g hm hg
      rw [hfr] at hm
      obtain rfl | hm := List.mem_cons.mp hm
      · rw [hrecv] at hg
        cases hg
      · exact hm

/-- What the application does inside a call of the loop leaves the call as it is. -/
structure Stays (s t : Stream) : Prop where
  failedSeen : t.failedSeen = s.failedSeen
  cancelIssued : s.cancelIssued = true → t.cancelIssued = true
  terminal : s.terminal = true → t.terminal = true
  key : ∀ k, s.ectx = some k ∨ .detached ∈ s.log → t.ectx = some k ∨ .detached ∈ t.log
  attached : s.Attached → t.Attached
  starting : s.Starting → t.Starting
  frames : t.frames = s.frames
  session : t.session = s.session
  delivering : t.recvDelivering = s.recvDelivering
  offering : offering t.log = offering s.log
  takenBytes : takenBytes t.log = takenBytes s.log
  receivedBytes : receivedBytes t.log = receivedBytes s.log
  finReceived : finReceived t.log = finReceived s.log
  finTaken : finTaken t.log = finTaken s.log
  held : t.recvDeferred = true → s.recvDeferred = true ∧ t.recvDeferredData = s.recvDeferredData ∧
    t.recvDeferredOffset = s.recvDeferredOffset ∧ t.recvDeferredFin = s.recvDeferredFin

theorem Ahead.starting (h : Ahead s t) (hf : t.frames = s.frames) (hs : s.Starting) :
    t.Starting := by
  constructor
  · rw [h.readyProcessed, h.cancelDeferred]
    exact fun hr hd => h.cancelIssued (hs.deferred hr hd)
  · rw [hf, h.attached]
    exact hs.native
  · rw [hf, h.ectx, h.detached, h.readyProcessed]
    exact hs.opened

theorem Calm.stays (h : Calm s t) (hf : t.frames = s.frames) (hs : t.session = s.session) :
    Stays s t where
  failedSeen := h.ahead.failedSeen
  cancelIssued := h.ahead.cancelIssued
  terminal := h.ahead.terminal
  key k hk := by
    rw [h.ahead.ectx, h.ahead.detached]
    exact hk
  attached := h.attached.mpr
  starting := h.ahead.starting hf
  frames := hf
  session := hs
  delivering := by rw [h.recv]
  offering := h.offering
  takenBytes := h.takenBytes
  receivedBytes := h.receivedBytes
  finReceived := h.finReceived
  finTaken := h.finTaken
  held := by
    rw [h.recv]
    exact fun hd => ⟨hd, rfl, rfl, rfl⟩

theorem Offers.stays {buf : Bytes} {fin : Bool} (h : Offers buf fin s) (hst : Stays s t) :
    Offers buf fin t := by
  constructor
  · rw [hst.takenBytes, hst.receivedBytes]
    exact h.part
  · rw [hst.takenBytes, hst.receivedBytes, hst.finReceived, hst.finTaken]
    exact h.whole

theorem Frame.Good.stays {f : Frame} (h : f.Good s) (hst : Stays s t) : f.Good t := by
  cases f with
  | bytes d =>
    obtain ⟨hoffer, ho, hk, hr⟩ := h
    refine ⟨hst.offering.trans hoffer, ho.stays hst, hst.key _ hk, fun hd => ?_⟩
    · obtain ⟨hd, hdata, hoff, hfin⟩ := hst.held hd
      obtain ⟨hreg, hskip, hlt⟩ := hr hd
      refine ⟨⟨?_, ?_, ?_, ?_⟩, by rw [hoff, hskip], hlt⟩
      · rw [hdata]
        exact hreg.total
      · rw [hdata]
        exact hreg.rest
      · rw [hoff]
        exact hreg.off
      · rw [hfin]
        exact hreg.fin
  | bareFin =>
    refine ⟨hst.offering.trans h.1, h.2.1.stays hst, fun hd => ?_⟩
    obtain ⟨hd, hdata, hoff, -⟩ := hst.held hd
    rw [hoff, hdata]
    exact h.2.2 hd
  | _ => exact hst.offering.trans h

theorem Reads.stays (h : Reads s) (hc : Core t) (hst : Stays s t) : Reads t where
  core := hc
  stacked := by
    have hs := h.stacked
    rw [hst.frames]
    revert hs
    cases s.frames with
    | nil => exact fun hs => ⟨hst.delivering.trans hs.1, hst.offering.trans hs.2⟩
    | cons f fs =>
      intro hs
      refine ⟨hst.delivering.trans hs.1, hs.2.1.stays hst, hs.2.2.1, fun hr => ?_⟩
      rw [hst.session]
      exact ⟨(hs.2.2.2 hr).1, hst.attached (hs.2.2.2 hr).2⟩
  failing := by
    intro hf
    rw [hst.failedSeen] at hf
    obtain hc | hc | hc := h.failing hf
    · exact .inl (hst.cancelIssued hc)
    · exact .inr (.inl (hst.terminal hc))
    · exact .inr (.inr (by rw [hst.frames]; exact hc))
  starting := hst.starting h.starting

/-! # The calls of the application -/

theorem pumpSends_frames : (s.pumpSends o).frames = s.frames ∧ (s.pumpSends o).session = s.session := by
  unfold Stream.pumpSends
  split
  · exact ⟨rfl, rfl⟩
  · split
    · exact ⟨rfl, rfl⟩
    · dsimp only
      split
      · exact ⟨opConnClose_frames, opConnClose_session⟩
      · exact ⟨rfl, rfl⟩

theorem opSend_frames {data : Bytes} {fin alloc : Bool} :
    (s.opSend o data fin alloc).2.frames = s.frames ∧
      (s.opSend o data fin alloc).2.session = s.session := by
  unfold Stream.opSend
  split
  · exact ⟨rfl, rfl⟩
  · split
    · exact ⟨rfl, rfl⟩
    · exact pumpSends_frames

theorem opSendGather_frames {spans : List Bytes} {fin : Bool} {cookie : Nat} {alloc : Alloc} :
    (s.opSendGather o spans fin cookie alloc).2.frames = s.frames ∧
      (s.opSendGather o spans fin cookie alloc).2.session = s.session := by
  unfold Stream.opSendGather
  split
  · exact ⟨rfl, rfl⟩
  · split
    · exact ⟨rfl, rfl⟩
    · split
      · exact ⟨rfl, rfl⟩
      · cases alloc with
        | ok => exact pumpSends_frames
        | noData => exact ⟨rfl, rfl⟩
        | noEntry => exact ⟨rfl, rfl⟩

/-- A cancel that waits for the ready processing. -/
theorem Core.deferred (hc : Core s) : Core ({ s with cancelDeferred := true }.note .shutdown) where
  tracks := by
    have ht := hc.tracks
    constructor <;> simp only [Stream.note, List.mem_cons, reduceCtorEq, false_or]
    · exact ht.armed
    · exact ht.enabled
    · exact ht.ended
    · exact ht.finTaken
    · exact ht.cancelIssued
    · exact ht.failed
    · exact ht.terminal
    · exact ht.sessionGone
    · exact ht.reset
    · exact fun _ => .inl trivial
    · exact fun _ => .inl trivial
    · exact ht.detached
  holds := { hc.holds.note (f := .shutdown) rfl with }
  starts := by
    have hs := hc.starts.of_log (t := s.note .shutdown) rfl (by simp [Stream.note])
    exact { hs with }
  ends := { hc.ends with }
  received := ⟨trivial, hc.received⟩

/-- A cancel that does not wait any more. -/
theorem Core.undeferred (hc : Core s) (hi : s.cancelIssued = true) :
    Core { s with cancelDeferred := false } where
  tracks := { hc.tracks with shutdown := fun _ => .inr hi, cancelDeferred := fun h => by cases h }
  holds := { hc.holds with }
  starts := { hc.starts with }
  ends := { hc.ends with }
  received := hc.received

theorem dropDeferred_defer (b : Bool) : ({ s with cancelDeferred := b } : Stream).dropDeferred =
    { s.dropDeferred with cancelDeferred := b } := by
  unfold Stream.dropDeferred
  have hheld : ({ s with cancelDeferred := b } : Stream).held = s.held := rfl
  have hfin : ({ s with cancelDeferred := b } : Stream).heldFin = s.heldFin := rfl
  rw [hheld, hfin]
  split <;> rfl

theorem Core.opShutdownStream (hc : Core s) : Core s.opShutdownStream.2 := by
  have hdrop : Core ({ s with cancelDeferred := true }.note .shutdown).dropDeferred :=
    hc.deferred.dropDeferred fun _ => .inl fun ha => ha.1 List.mem_cons_self
  have heq : ({ s with cancelDeferred := true }.note .shutdown).dropDeferred =
    { (s.note .shutdown).dropDeferred with cancelDeferred := true } :=
    dropDeferred_defer (s := s.note .shutdown) true
  rw [heq] at hdrop
  unfold Stream.opShutdownStream
  split
  · exact hc
  · split
    · exact hc
    · rename_i hnot
      obtain ⟨-, hcd⟩ : s.cancelIssued = false ∧ s.cancelDeferred = false := by simpa using hnot
      dsimp only
      split
      · exact hdrop
      · refine ((hdrop.calm (Calm.refl _).cancel).undeferred rfl).calm ((Calm.refl _).same ?_ rfl rfl rfl)
        have hl := dropDeferred_life (s := s.note .shutdown)
        show { (s.note .shutdown).dropDeferred.toLife with cancelIssued := true } =
          { (s.note .shutdown).dropDeferred.toLife with cancelIssued := true, cancelDeferred := false }
        rw [hl]
        show { s.toLife with cancelIssued := true } =
          { s.toLife with cancelIssued := true, cancelDeferred := false }
        rw [← hcd]

theorem Stays.refl (s : Stream) : Stays s s :=
  (Calm.refl s).stays rfl rfl

theorem Stays.trans (h : Stays s t) (h' : Stays t u) : Stays s u where
  failedSeen := h'.failedSeen.trans h.failedSeen
  cancelIssued := h'.cancelIssued ∘ h.cancelIssued
  terminal := h'.terminal ∘ h.terminal
  key k := h'.key k ∘ h.key k
  attached := h'.attached ∘ h.attached
  starting := h'.starting ∘ h.starting
  frames := h'.frames.trans h.frames
  session := h'.session.trans h.session
  delivering := h'.delivering.trans h.delivering
  offering := h'.offering.trans h.offering
  takenBytes := h'.takenBytes.trans h.takenBytes
  receivedBytes := h'.receivedBytes.trans h.receivedBytes
  finReceived := h'.finReceived.trans h.finReceived
  finTaken := h'.finTaken.trans h.finTaken
  held hd := by
    obtain ⟨hd, hdata, hoff, hfin⟩ := h'.held hd
    obtain ⟨hd, hdata', hoff', hfin'⟩ := h.held hd
    exact ⟨hd, hdata.trans hdata', hoff.trans hoff', hfin.trans hfin'⟩

theorem stays_dropDeferred : Stays s s.dropDeferred := by
  have ha : Ahead s s.dropDeferred := ahead_dropDeferred
  refine ⟨ha.failedSeen, ha.cancelIssued, ha.terminal, ?_, ha.attached.mpr,
    ha.starting dropDeferred_frames, dropDeferred_frames, ?_, dropDeferred_delivering,
    dropDeferred_offering, ?_, ?_, ?_, ?_, ?_⟩
  · intro k hk
    rw [ha.ectx, ha.detached]
    exact hk
  · rw [dropDeferred_life]
  · obtain h | ⟨h, -⟩ := dropDeferred_log (s := s) <;> rw [h]
    rfl
  · obtain h | ⟨h, -⟩ := dropDeferred_log (s := s) <;> rw [h]
    rfl
  · obtain h | ⟨h, -⟩ := dropDeferred_log (s := s) <;> rw [h]
    rfl
  · obtain h | ⟨h, -⟩ := dropDeferred_log (s := s) <;> rw [h]
    rfl
  · intro hd
    unfold Stream.dropDeferred at hd
    split at hd <;> cases hd

theorem Stays.note {f : Fact} (h : Stays s t) (hf : f = .shutdown ∨ ∃ b, f = .enabled b) :
    Stays s (t.note f) := by
  refine h.trans ?_
  have ha : Ahead t (t.note f) := ⟨rfl, rfl, rfl, id, id, rfl, by
    obtain rfl | ⟨b, rfl⟩ := hf <;> simp [Stream.note]⟩
  refine ⟨rfl, id, id, ?_, ha.attached.mpr, ha.starting rfl, rfl, rfl, rfl, ?_, ?_, ?_, ?_, ?_,
    fun hd => ⟨hd, rfl, rfl, rfl⟩⟩
  · intro k hk
    rw [ha.ectx, ha.detached]
    exact hk
  all_goals obtain rfl | ⟨b, rfl⟩ := hf <;> rfl

theorem stays_opShutdownStream : Stays s s.opShutdownStream.2 := by
  have hdrop : Stays s (s.note .shutdown).dropDeferred :=
    ((Stays.refl s).note (.inl rfl)).trans stays_dropDeferred
  unfold Stream.opShutdownStream
  split
  · exact .refl s
  · split
    · exact .refl s
    · dsimp only
      split
      · rename_i hr
        refine hdrop.trans { Stays.refl _ with starting := fun hs => ⟨?_, hs.native, hs.opened⟩ }
        intro hready
        have hready : (s.note .shutdown).dropDeferred.readyProcessed = true := hready
        rw [hready] at hr
        cases hr
      · exact hdrop.trans ((Calm.refl _).cancel.stays rfl rfl)

theorem Core.opDetach {es : Nat} (hc : Core s) : Core (s.opDetach es) := by
  unfold Stream.opDetach
  split
  · have ht := hc.tracks
    have hh := hc.holds
    have hs := hc.starts
    have hat : ({ s with ectx := none }.note .detached : Stream).Attached := .inr List.mem_cons_self
    refine ⟨?_, ?_, ?_, { hc.ends with }, ⟨trivial, hc.received⟩⟩
    · constructor <;> simp only [Stream.note, List.mem_cons, reduceCtorEq, false_or]
      · exact ht.armed
      · exact ht.enabled
      · exact ht.ended
      · exact ht.finTaken
      · exact ht.cancelIssued
      · exact ht.failed
      · exact ht.terminal
      · exact ht.sessionGone
      · exact ht.reset
      · exact ht.shutdown
      · exact ht.cancelDeferred
      · exact fun _ => trivial
    · constructor
      · exact fun _ hd => absurd List.mem_cons_self hd
      · exact fun _ hd => absurd List.mem_cons_self hd
      · exact hh.part
      · exact hh.partFin
      · exact fun _ => .inr (.inl List.mem_cons_self)
      · exact hh.heldFin
      · exact hh.finEnded
      · exact hh.offset
      · exact hh.empty
      · exact hh.pending
      · exact fun _ => hat
    · constructor
      · exact hs.ready
      · exact hs.recheck
      · intro hl hr
        rename_i hes
        rw [(hs.peer hl hr).1] at hes
        cases hes
      · exact fun _ _ => hat
  · exact hc

theorem stays_opDetach {es : Nat} : Stays s (s.opDetach es) := by
  unfold Stream.opDetach
  split
  · rename_i hes
    exact {
      failedSeen := rfl
      cancelIssued := id
      terminal := id
      key := fun _ _ => .inr List.mem_cons_self
      attached := fun _ => .inr List.mem_cons_self
      starting := fun hs => ⟨hs.deferred, fun _ => .inr List.mem_cons_self, fun hm => by
        rw [(hs.opened hm).1] at hes
        cases hes⟩
      frames := rfl
      session := rfl
      delivering := rfl
      offering := rfl
      takenBytes := rfl
      receivedBytes := rfl
      finReceived := rfl
      finTaken := rfl
      held := fun hd => ⟨hd, rfl, rfl, rfl⟩ }
  · exact .refl s

/-! # The start of a stream -/

/-- A step of the start of a stream changes only how far it is. -/
theorem Core.start (hc : Core s) (hs : Starts t)
    (hl : t.toLife = { s.toLife with
      isBidi := t.isBidi, readySeen := t.readySeen, readyProcessed := t.readyProcessed,
      readyRecheckPending := t.readyRecheckPending, hidden := t.hidden })
    (hr : t.toRecvHalf = s.toRecvHalf) (hlog : t.log = s.log) : Core t where
  tracks := by
    have ht := hc.tracks
    constructor <;> rw [hlog] <;> try rw [hl]
    · rw [hr]
      exact ht.armed
    · rw [hr]
      exact ht.enabled
    · rw [hr]
      exact ht.ended
    · rw [hr]
      exact ht.finTaken
    · exact ht.cancelIssued
    · exact ht.failed
    · exact ht.terminal
    · exact ht.sessionGone
    · rw [hr]
      exact ht.reset
    · exact ht.shutdown
    · exact ht.cancelDeferred
    · exact ht.detached
  holds := by
    have hh := hc.holds
    have hheld : t.held = s.held := by
      unfold Stream.held
      rw [hr]
    have hfin : t.heldFin = s.heldFin := by
      unfold Stream.heldFin
      rw [hr]
    constructor <;> try rw [hlog]
    · rw [hheld]
      exact hh.whole
    · rw [hfin, hr]
      exact hh.wholeFin
    · exact hh.part
    · rw [hr]
      exact hh.partFin
    · exact hh.lost
    · rw [hr]
      exact hh.heldFin
    · rw [hr]
      exact hh.finEnded
    · rw [hr]
      exact hh.offset
    · rw [hr]
      exact hh.empty
    · rw [hr]
      exact hh.pending
    · rw [hr]
      exact fun h => (hh.attached h).of_log (by rw [hl]) (by rw [hlog]; exact id)
  starts := hs
  ends := by
    constructor
    · rw [hl]
      exact hc.ends.closing
    · rw [hl]
      exact hc.ends.gone
  received := by
    rw [hlog]
    exact hc.received

theorem Reads.readyProcess (h : Reads s) {id : Nat} (hf : s.frames = []) (hseen : s.readySeen = true)
    (hrecheck : s.readyRecheckPending = false) (hproc : s.readyProcessed = false) :
    Reads (s.readyProcess id) := by
  have hres := h.resting hf
  have hcore : Core { s with readyProcessed := true } := by
    refine h.core.start ?_ rfl rfl rfl
    have hs := h.core.starts
    constructor
    · intro hn
      rw [show s.readySeen = false from hn] at hseen
      cases hseen
    · intro hn
      rw [show s.readyRecheckPending = true from hn] at hrecheck
      cases hrecheck
    · intro _ hn
      cases hn
    · exact hs.bidi
  have hnoframe : ∀ {f : Frame}, f ∉ s.frames := by
    rw [hf]
    simp
  have hnofail := h.not_failing hf
  unfold Stream.readyProcess
  dsimp only
  split
  · -- The cancel that waited is issued.
    have hcalm := (Calm.refl { s with readyProcessed := true }).cancel
    have hc := (hcore.calm hcalm).undeferred rfl
    refine Resting.reads ⟨hc.calm ((Calm.refl _).same rfl rfl rfl rfl), hres.delivering, hres.offering, hres.frames,
      ⟨fun _ _ => rfl, fun hm => absurd hm hnoframe, fun hm => absurd hm hnoframe⟩⟩ ?_
    exact fun _ => .inl rfl
  · rename_i hcd
    have hdefer : s.cancelDeferred = true → s.cancelIssued = true := by
      simpa using hcd
    split
    · split
      · rename_i hat
        have hat : s.Attached := .inl (Bool.and_eq_true_iff.mp hat).1
        refine Resting.reads ⟨hcore.push _, hres.delivering, hres.offering, ?_,
          ⟨fun _ => hdefer, fun _ => hat, fun hm => ?_⟩⟩ ?_
        · intro f hm
          obtain rfl | hm := List.mem_cons.mp hm
          · rfl
          · exact absurd hm hnoframe
        · obtain hm | hm := List.mem_cons.mp hm
          · cases hm
          · exact absurd hm hnoframe
        · exact fun hs => (hnofail hs).imp_right .inl
      · rename_i hlocal _
        have hat : s.isBidi = true → s.Attached := h.core.starts.bidi hlocal
        have ha : Ahead { s with readyProcessed := true }
            (({ s with readyProcessed := true } : Stream).rearmReceive s.isBidi) := ahead_rearmReceive _
        refine Loops.reads ⟨hcore.rearmReceive _ hat, ha, .inl ⟨rearmReceive_frames _, ?_, ?_⟩⟩
          hres.frames ⟨fun _ => hdefer, fun hm => absurd hm hnoframe, fun hm => absurd hm hnoframe⟩
          fun hs => (hnofail hs).imp_right .inl
        · rw [rearmReceive_delivering]
          exact hres.delivering
        · rw [rearmReceive_offering]
          exact hres.offering
    · rename_i hpeer
      have hpeer : s.isLocal = false := by simpa using hpeer
      split
      · refine Resting.reads ⟨hcore.start { hcore.starts with } rfl rfl rfl, hres.delivering,
          hres.offering, hres.frames, ⟨fun _ => hdefer, fun hm => absurd hm hnoframe, fun hm => absurd hm hnoframe⟩⟩
          fun hs => (hnofail hs).imp_right .inl
      · have hs : Starts { s with readyProcessed := true, isBidi := id / 2 % 2 = 0 } :=
          { hcore.starts with
            bidi := fun hl _ => by
              rw [show s.isLocal = true from hl] at hpeer
              cases hpeer }
        have hc := hcore.start hs rfl rfl rfl
        split
        · refine Resting.reads ⟨hc, hres.delivering, hres.offering, hres.frames,
            ⟨fun _ => hdefer, fun hm => absurd hm hnoframe, fun hm => absurd hm hnoframe⟩⟩
            fun hs => (hnofail hs).imp_right .inl
        · obtain ⟨hectx, hdet⟩ := h.core.starts.peer hpeer hproc
          refine Resting.reads ⟨hc.push _, hres.delivering, hres.offering, ?_,
            ⟨fun _ => hdefer, fun hm => ?_, fun _ => ⟨hectx, hdet, rfl, by simp [Stream.push, hf]⟩⟩⟩ ?_
          · intro f hm
            obtain rfl | hm := List.mem_cons.mp hm
            · rfl
            · exact absurd hm hnoframe
          · obtain hm | hm := List.mem_cons.mp hm
            · cases hm
            · exact absurd hm hnoframe
          · exact fun hs => (hnofail hs).imp_right .inl

/-- Between callbacks, a calm step. -/
theorem Reads.calm (h : Reads s) (hf : s.frames = []) (hst : Calm s t) : Reads t := by
  refine ((h.resting hf).calm hst).reads fun hs => ?_
  rw [hst.ahead.failedSeen] at hs
  have hfail : s.Failing := (h.not_failing hf hs).imp_right .inl
  exact hfail.calm hst

/-- Between callbacks, a step of the start. -/
theorem Reads.start (h : Reads s) (hf : s.frames = []) (hs : Starts t)
    (hl : t.toLife = { s.toLife with
      isBidi := t.isBidi, readySeen := t.readySeen, readyProcessed := s.readyProcessed,
      readyRecheckPending := t.readyRecheckPending, hidden := t.hidden })
    (hr : t.toRecvHalf = s.toRecvHalf) (hlog : t.log = s.log) (hfr : t.frames = s.frames) :
    Reads t := by
  have hc := h.core.start hs (by rw [hl]) hr hlog
  have hnot : ∀ {f : Frame}, f ∉ t.frames := by
    rw [hfr, hf]
    simp
  refine Resting.reads ⟨hc, ?_, ?_, fun f hm => absurd hm hnot, ?_⟩ fun hs => ?_
  · rw [hr]
    exact (h.resting hf).delivering
  · rw [hlog]
    exact (h.resting hf).offering
  · refine ⟨?_, fun hm => absurd hm hnot, fun hm => absurd hm hnot⟩
    rw [hl]
    exact h.starting.deferred
  · rw [show t.failedSeen = s.failedSeen by rw [hl]] at hs
    unfold Failing
    rw [hl]
    exact (h.not_failing hf hs).imp_right .inl

theorem Reads.stateReady (h : Reads s) {id : Option Nat} (hf : s.frames = []) :
    Reads (s.stateReady id) := by
  unfold Stream.stateReady
  split
  · exact h
  · rename_i hseen
    obtain ⟨hproc, hrecheck⟩ := h.core.starts.ready (by simpa using hseen)
    have hs := h.core.starts
    cases id with
    | some id =>
      have hseen : Reads { s with readySeen := true } := by
        refine h.start hf ?_ rfl rfl rfl rfl
        constructor
        · intro hn
          cases hn
        · exact hs.recheck
        · exact hs.peer
        · exact hs.bidi
      exact hseen.readyProcess hf rfl hrecheck hproc
    | none =>
      refine h.start hf ?_ rfl rfl rfl rfl
      constructor
      · intro hn
        cases hn
      · exact fun _ => hproc
      · exact hs.peer
      · exact hs.bidi

theorem Reads.readyRecheck (h : Reads s) {id : Option Nat} (hf : s.frames = [])
    (hrecheck : s.readyRecheckPending = true) : Reads (s.readyRecheck id) := by
  have hs := h.core.starts
  have hproc := hs.recheck hrecheck
  have hseen : s.readySeen = true := by
    by_contra hn
    rw [(hs.ready (by simpa using hn)).2] at hrecheck
    cases hrecheck
  have hclear : Reads { s with readyRecheckPending := false } := by
    refine h.start hf ?_ rfl rfl rfl rfl
    constructor
    · exact fun hn => ⟨(hs.ready hn).1, rfl⟩
    · intro hn
      cases hn
    · exact hs.peer
    · exact hs.bidi
  unfold Stream.readyRecheck
  dsimp only
  split
  · exact hclear
  · cases id with
    | some id => exact hclear.readyProcess hf hseen rfl hproc
    | none => exact hclear.calm hf (Calm.refl _).opConnClose

/-! # The end of a stream -/

theorem completeRecs_failing {k : Completing} (hk : k.fails = true) (rs : List Slot) :
    (s.completeRecs o k rs).Failing := by
  induction rs generalizing s with
  | nil =>
    cases k with
    | batch => cases hk
    | sweep rest after =>
      cases after with
      | failed =>
        show (s.sweepEnd .failed).Failing
        unfold Stream.sweepEnd
        dsimp only
        split
        · rename_i hi
          exact .inl hi
        · exact .inl rfl
      | cancelled =>
        show (s.sweepEnd .cancelled).Failing
        unfold Stream.sweepEnd
        dsimp only
        split <;> exact .inr (.inl rfl)
      | groupTerminal => cases hk
  | cons r rs ih =>
    rw [Stream.completeRecs]
    split
    · dsimp only
      split
      · refine .inr (.inr ⟨_, List.mem_cons_self, ?_⟩)
        cases k <;> exact hk
      · exact ih
    · exact ih

theorem sendCompleteReturned_failing {r : Slot} {edge : Bool} {k : Completing}
    (hk : k.fails = true) : (s.sendCompleteReturned o r edge k).Failing := by
  unfold Stream.sendCompleteReturned
  split
  · exact .inr (.inr ⟨_, List.mem_cons_self, hk⟩)
  · exact completeRecs_failing hk _

theorem Core.failed (hc : Core s) : Core ({ s with failedSeen := true }.note .failed) where
  tracks := by
    have ht := hc.tracks
    constructor <;> simp only [Stream.note, List.mem_cons, reduceCtorEq, false_or]
    · exact ht.armed
    · exact ht.enabled
    · exact ht.ended
    · exact ht.finTaken
    · exact ht.cancelIssued
    · exact iff_of_true (.inl trivial) trivial
    · exact ht.terminal
    · exact ht.sessionGone
    · exact fun hm => ⟨(ht.reset hm).1, trivial⟩
    · exact ht.shutdown
    · exact ht.cancelDeferred
    · exact ht.detached
  holds := { hc.holds.note (f := .failed) rfl with }
  starts := { hc.starts.of_log (t := s.note .failed) rfl (by simp [Stream.note]) with }
  ends := { hc.ends with }
  received := ⟨trivial, hc.received⟩

theorem Core.reset (hc : Core s) (hf : s.failedSeen = true) :
    Core ({ s with resetDelivered := true }.note .reset) where
  tracks := by
    have ht := hc.tracks
    constructor <;> simp only [Stream.note, List.mem_cons, reduceCtorEq, false_or]
    · exact ht.armed
    · exact ht.enabled
    · exact ht.ended
    · exact ht.finTaken
    · exact ht.cancelIssued
    · exact ht.failed
    · exact ht.terminal
    · exact ht.sessionGone
    · exact fun _ => ⟨trivial, hf⟩
    · exact ht.shutdown
    · exact ht.cancelDeferred
    · exact ht.detached
  holds := { hc.holds.note (f := .reset) rfl with }
  starts := hc.starts.of_log rfl (by simp [Stream.note])
  ends := { hc.ends with }
  received := ⟨trivial, hc.received⟩

theorem Resting.dropDeferred (h : Resting s)
    (hd : s.held ≠ [] ∨ s.heldFin = true → Discards s.log) : Resting s.dropDeferred where
  core := h.core.dropDeferred hd
  delivering := dropDeferred_delivering.trans h.delivering
  offering := dropDeferred_offering.trans h.offering
  frames := by
    rw [dropDeferred_frames]
    exact h.frames
  starting := ahead_dropDeferred.starting dropDeferred_frames h.starting

theorem Resting.failureReported {after : AfterSweep} (hk : after.fails = true) (h : Resting s) :
    Reads (s.failureReported o after) :=
  (h.calm (Calm.failureReported after (.refl s))).reads fun _ => completeRecs_failing (k := .sweep [] after) hk _

theorem Reads.handleFailure {after : AfterSweep} (hk : after.fails = true) (h : Reads s)
    (hf : s.frames = []) :
    Reads (({ s with failedSeen := true }.note .failed).handleFailure o after) := by
  have hres := h.resting hf
  have hfailed : Resting ({ s with failedSeen := true }.note .failed) := by
    refine ⟨h.core.failed, hres.delivering, hres.offering, hres.frames, ⟨h.starting.deferred, ?_, ?_⟩⟩
    · exact fun hm => (h.starting.native hm).of_log rfl (List.mem_cons_of_mem _)
    · exact fun hm => by simpa [Stream.note] using h.starting.opened hm
  have hdrop := hfailed.dropDeferred fun _ => .inl fun ha => ha.2.2.1 List.mem_cons_self
  have hseen : (({ s with failedSeen := true } : Stream).note .failed).dropDeferred.failedSeen =
      true := by
    rw [dropDeferred_life]
    rfl
  unfold Stream.handleFailure
  dsimp only
  split
  · refine Resting.reads ⟨(hdrop.core.reset hseen).push _, hdrop.delivering, hdrop.offering, ?_, ?_⟩
      fun _ => .inr (.inr ⟨_, List.mem_cons_self, hk⟩)
    · intro f hm
      obtain rfl | hm := List.mem_cons.mp hm
      · rfl
      · exact hdrop.frames f hm
    · have hs := hdrop.starting
      refine ⟨hs.deferred, fun hm => ?_, fun hm => ?_⟩
      · obtain hm | hm := List.mem_cons.mp hm
        · cases hm
        · exact (hs.native hm).of_log rfl (List.mem_cons_of_mem _)
      · obtain hm | hm := List.mem_cons.mp hm
        · cases hm
        · simpa [Stream.push, Stream.note] using hs.opened hm
  · exact hdrop.failureReported hk

theorem Reads.stateFailed (h : Reads s) (hf : s.frames = []) : Reads (s.stateFailed o) := by
  unfold Stream.stateFailed
  split
  · exact h
  · exact h.handleFailure rfl hf

theorem Reads.stateCancelled (h : Reads s) (hf : s.frames = []) : Reads (s.stateCancelled o) := by
  unfold Stream.stateCancelled
  split
  · exact h.calm hf (Calm.sweepEnd .cancelled (.refl s))
  · exact h.handleFailure rfl hf

theorem Reads.groupHandleTerminal (h : Reads s) (hf : s.frames = []) :
    Reads (s.groupHandleTerminal o) := by
  unfold Stream.groupHandleTerminal
  split
  · exact h
  · dsimp only
    split
    · exact h.calm hf (Calm.completeRecs _ _ (Calm.refl s).groupTerminal.cancel)
    · exact h.calm hf (Calm.completeRecs _ _ (Calm.refl s).groupTerminal)

theorem Reads.reapPhase2 (h : Reads s) (hf : s.frames = []) (hr : s.reapEligible = true) :
    Reads s.reapPhase2 := by
  have hterm : s.terminal = true := by
    unfold Stream.reapEligible at hr
    simp only [Bool.and_eq_true] at hr
    exact hr.1.1.1.1.1
  have hdrop := (h.resting hf).dropDeferred fun _ => .inl fun ha =>
    ha.2.2.2 (h.core.tracks.terminal.mpr hterm)
  have hterm' : s.dropDeferred.terminal = true := by
    rw [dropDeferred_life]
    exact hterm
  have hc := hdrop.core
  refine Resting.reads ⟨⟨{ hc.tracks with }, { hc.holds with }, { hc.starts with },
    ⟨hc.ends.closing, fun _ => hterm'⟩, hc.received⟩, hdrop.delivering, hdrop.offering, hdrop.frames,
    { hdrop.starting with }⟩ fun _ => .inr (.inl hterm')

/-! # Returns -/

/-- A frame of the send side or of the end returns. -/
theorem Resting.returned {f : Frame} (h : Resting s) (hfail : f.fails = false → s.failedSeen = true → s.Failing)
    (hst : Calm s t) (hf : f.fails = true → t.Failing) : Reads t := by
  refine (h.calm hst).reads fun hs => ?_
  rw [hst.ahead.failedSeen] at hs
  cases hff : f.fails with
  | true => exact hf hff
  | false => exact (hfail hff hs).calm hst

/-- A peer stream gets its context. -/
theorem Core.attach (hc : Core s) {es : Nat} (hd : .detached ∉ s.log)
    (hr : s.readyProcessed = true) : Core { s with ectx := some es } where
  tracks := { hc.tracks with detached := fun hm => absurd hm hd }
  holds := { hc.holds with attached := fun _ => .inl rfl }
  starts := { hc.starts with
    peer := fun _ hn => by
      rw [show s.readyProcessed = false from hn] at hr
      cases hr
    bidi := fun _ _ => .inl rfl }
  ends := { hc.ends with }
  received := hc.received

/-- The engine got to know the stream, and reading begins. -/
theorem Resting.rearmed {rearm : Bool} (h : Resting s) (hfail : s.failedSeen = true → s.Failing)
    (ha : rearm = true → s.Attached) : Reads (s.rearmReceive rearm) := by
  refine Loops.reads ⟨h.core.rearmReceive rearm ha, ahead_rearmReceive rearm, .inl ⟨?_, ?_, ?_⟩⟩
    h.frames h.starting hfail
  · exact rearmReceive_frames rearm
  · exact (rearmReceive_delivering rearm).trans h.delivering
  · exact (rearmReceive_offering rearm).trans h.offering

/-- What `wtq_conn_on_peer_bidi_opened` or `wtq_conn_on_peer_uni_opened` answered. -/
def opened (o : Oracle) (s : Stream) : Stream :=
  match o.ctx with
  | some es => { s with ectx := some es }
  | none => if !s.cancelIssued && !s.terminal && s.conn then s.cancel else s

theorem Resting.opened (h : Resting s) (hd : .detached ∉ s.log) (hr : s.readyProcessed = true)
    (hno : .peerOpened ∉ s.frames) : Resting (s.opened o) := by
  unfold Stream.opened
  split
  · exact ⟨h.core.attach hd hr, h.delivering, h.offering, h.frames, ⟨h.starting.deferred, fun _ => .inl rfl,
      fun hm => absurd hm hno⟩⟩
  · split
    · exact h.calm (Calm.refl s).cancel
    · exact h

theorem opened_failing (h : s.failedSeen = true → s.Failing) (hs : (s.opened o).failedSeen = true) :
    (s.opened o).Failing := by
  revert hs
  unfold Stream.opened
  split
  · exact h
  · split
    · exact fun hs => (h hs).calm (Calm.refl s).cancel
    · exact h

theorem Resting.peerOpenedReturned (h : Resting s) (hfail : s.failedSeen = true → s.Failing)
    (hd : .detached ∉ s.log) (hr : s.readyProcessed = true) (hno : .peerOpened ∉ s.frames) :
    Reads (s.peerOpenedReturned o) := by
  have hcalm : Calm (s.opened o) ((s.opened o).leaveAndPoll o) := Calm.leaveAndPoll (.refl _)
  refine ((h.opened hd hr hno).calm hcalm).rearmed (fun hs => ?_) fun ha => .inl ha
  rw [hcalm.ahead.failedSeen] at hs
  exact (opened_failing hfail hs).calm hcalm

theorem Reads.frameReturned {f : Frame} {fs : List Frame} (h : Reads s) (hf : s.frames = f :: fs)
    (hans : ∀ buf ∈ f.offer, s.Answers o buf) :
    Reads (Stream.frameReturned o f { s with frames := fs }) := by
  have hs := h.stacked
  rw [hf] at hs
  obtain ⟨hdel, hgood, hrest, hses⟩ := hs
  have hcore : Core { s with frames := fs } :=
    ⟨{ h.core.tracks with }, { h.core.holds with }, { h.core.starts with }, { h.core.ends with },
      h.core.received⟩
  have hstarting := h.starting.pop hf
  have hfail := fun hn => h.pop_failing (f := f) hf hn
  cases f with
  | bytes d =>
    obtain ⟨hses, hat⟩ := hses rfl
    exact (Core.bytesReturned hcore hdel hses hat (hgood.popped fs) (hans _ rfl)).reads hrest hstarting
      (hfail rfl)
  | bareFin rearm =>
    obtain ⟨hses, hat⟩ := hses rfl
    exact (Core.bareFinReturned hcore hat (hgood.popped fs) (hans _ rfl)).reads hrest hstarting (hfail rfl)
  | reset after =>
    have hst := Calm.failureReported (o := o) after (Calm.leaveAndPoll (o := o) (.refl { s with frames := fs }))
    exact (h.pop hf rfl).returned hfail hst fun hk =>
      completeRecs_failing (k := .sweep [] after) hk _
  | streamTerminal =>
    exact (h.pop hf rfl).returned hfail (Calm.leaveAndPoll (.refl _)) fun hk => by cases hk
  | nativeId =>
    have hcalm : Calm { s with frames := fs } (({ s with frames := fs } : Stream).leaveAndPoll o) :=
      Calm.leaveAndPoll (.refl _)
    have hat := h.starting.native (by rw [hf]; exact List.mem_cons_self)
    refine ((h.pop hf rfl).calm hcalm).rearmed (fun hs => ?_) fun _ => hcalm.attached.mpr hat
    rw [hcalm.ahead.failedSeen] at hs
    exact (hfail rfl hs).calm hcalm
  | peerOpened =>
    obtain ⟨-, hdet, hready, hcount⟩ := h.starting.opened (by rw [hf]; exact List.mem_cons_self)
    refine (h.pop hf rfl).peerOpenedReturned (hfail rfl) hdet hready fun hm => ?_
    rw [hf, List.count_cons_self] at hcount
    have hpos : 0 < fs.count .peerOpened := List.count_pos_iff.mpr hm
    omega
  | sendComplete r edge k =>
    exact (h.pop hf rfl).returned hfail (Calm.sendCompleteReturned r edge k (.refl _)) fun hk =>
      sendCompleteReturned_failing hk
  | writable r k =>
    exact (h.pop hf rfl).returned hfail (Calm.recReturned r k (.refl _)) fun hk =>
      completeRecs_failing hk _
  | retireWritable =>
    exact (h.pop hf rfl).returned hfail (Calm.leaveAndPoll (.refl _)) fun hk => by cases hk
  | otherStreams =>
    refine (h.pop hf rfl).returned hfail ?_ fun hk => by cases hk
    unfold Stream.frameReturned
    dsimp only
    split
    · exact (Calm.refl _).push rfl
    · exact .refl _
  | connClosed =>
    exact (h.pop hf rfl).returned hfail (Calm.refl _).sessionGone fun hk => by cases hk

/-! # Runs -/

theorem Reads.recvEnable {b : Bool} (h : Reads s) (hat : s.ectx.isSome = true) :
    Reads (s.opRecvEnable o b).2 := by
  cases hdel : s.recvDelivering with
  | true =>
    obtain he | he := opRecvEnable_delivering (o := o) b hdel <;> rw [he]
    · exact h
    · have hst : Stays s ({ s with recvEnabled := b }.note (.enabled b)) :=
        Stays.note { Stays.refl s with
          starting := fun hs => { hs with }, held := fun hd => ⟨hd, rfl, rfl, rfl⟩ } (.inr ⟨b, rfl⟩)
      exact h.stays (h.core.enabled b) hst
  | false =>
    have hframes : ∀ f ∈ s.frames, f.recv = false := by
      have hs := h.stacked
      revert hs
      cases s.frames with
      | nil => simp
      | cons f fs =>
        intro hs g hg
        obtain rfl | hg := List.mem_cons.mp hg
        · exact hs.1.symm.trans hdel
        · exact hs.2.2.1 g hg
    have hno : offering s.log = none := by
      have hs := h.stacked
      revert hs
      cases s.frames with
      | nil => exact And.right
      | cons f fs => exact fun hs => (Frame.good_of_not_recv (hs.1.symm.trans hdel)).mp hs.2.1
    exact (h.core.opRecvEnable hno hdel (.inl hat)).reads hframes h.starting h.failing

/-- Every event keeps the invariant. -/
theorem Reads.apply {e : Event} (h : Reads s) (ha : s.Allowed o e) : Reads (s.apply o e) := by
  cases e with
  | ready id => exact h.stateReady ha.1
  | recheck id => exact h.readyRecheck ha.1 ha.2
  | failed => exact h.stateFailed ha.1
  | cancelled => exact h.stateCancelled ha.1
  | groupTerminal => exact h.groupHandleTerminal ha
  | received content fin errored =>
    obtain ⟨hf, hp, hterm, hready⟩ := ha
    have hres := h.resting hf
    exact (h.core.receiveCompleted hres.offering hres.delivering hp (h.not_failing hf) hterm hready
      h.starting.deferred).reads hres.frames h.starting h.failing
  | batchCompleted b canceled => exact h.calm ha.1 (Calm.batchOnComplete b canceled (.refl s))
  | batchRetired b => exact h.calm ha.1 (Calm.batchOnRetire b (.refl s))
  | pump => exact h.calm ha (Calm.pumpSends (.refl s))
  | reap => exact h.reapPhase2 ha.1 ha.2
  | sessionGone => exact h.calm ha.1 (Calm.refl s).sessionGone
  | send data fin alloc =>
    have hcalm := Calm.opSend (o := o) data fin alloc (.refl s)
    exact h.stays (h.core.calm hcalm) (hcalm.stays opSend_frames.1 opSend_frames.2)
  | sendGather spans fin cookie alloc =>
    have hcalm := Calm.opSendGather (o := o) spans fin cookie alloc (.refl s)
    exact h.stays (h.core.calm hcalm) (hcalm.stays opSendGather_frames.1 opSendGather_frames.2)
  | shutdown => exact h.stays h.core.opShutdownStream stays_opShutdownStream
  | recvEnable b => exact h.recvEnable ha.2
  | detach es => exact h.stays h.core.opDetach stays_opDetach
  | connClose =>
    have hcalm := (Calm.refl s).opConnClose
    exact h.stays (h.core.calm hcalm) (hcalm.stays opConnClose_frames opConnClose_session)
  | returned =>
    obtain ⟨f, hf, hans⟩ := ha
    unfold Stream.apply
    cases hfr : s.frames with
    | nil =>
      rw [hfr] at hf
      cases hf
    | cons g fs =>
      rw [hfr] at hf
      obtain rfl : g = f := by simpa using hf
      exact h.frameReturned hfr hans

/-- The streams that a run of events can lead to. -/
inductive Reachable : Stream → Prop
  | openUni (ectx : Option Nat) : Reachable (openUni ectx)
  | openBidi (ectx : Nat) : Reachable (openBidi ectx)
  | adopt (shutdownStarted rundown : Bool) : Reachable (adopt shutdownStarted rundown)
  | step {s : Stream} {o : Oracle} {e : Event} (h : Reachable s) (ha : s.Allowed o e) :
    Reachable (s.apply o e)

/-- A new stream has no history. -/
theorem Reads.fresh {ectx : Option Nat} {isLocal isBidi : Bool}
    (hpeer : isLocal = false → ectx = none)
    (hbidi : isLocal = true → isBidi = true → ectx.isSome = true) :
    Reads { ectx := ectx, isLocal := isLocal, isBidi := isBidi } where
  core := by
    refine ⟨?_, ?_, ?_, ?_, trivial⟩
    · constructor <;> simp [armedNow, enabledNow, Stream.ended, Stream.finTaken]
    · constructor <;>
        simp [receivedBytes, takenBytes, Stream.finReceived, Stream.held, Stream.heldFin]
    · constructor
      · simp
      · simp
      · exact fun hl _ => ⟨hpeer hl, by simp⟩
      · exact fun hl hb => .inl (hbidi hl hb)
    · constructor <;> simp
  stacked := ⟨rfl, rfl⟩
  failing := by simp
  starting := by constructor <;> simp

theorem reads_adopt (shutdownStarted rundown : Bool) : Reads (adopt shutdownStarted rundown) := by
  have hfresh : Reads { ectx := none, isLocal := false, isBidi := false } :=
    .fresh (fun _ => rfl) fun h => by cases h
  cases shutdownStarted with
  | true => exact hfresh.calm rfl ((Calm.refl _).cancel.shutdownStarted (.inl rfl))
  | false =>
    cases rundown with
    | true => exact hfresh.calm rfl (Calm.refl _).cancel
    | false => exact hfresh

theorem Reachable.reads (h : Reachable s) : Reads s := by
  induction h with
  | openUni ectx => exact .fresh (fun h => by cases h) fun _ h => by cases h
  | openBidi ectx => exact .fresh (fun h => by cases h) fun _ _ => rfl
  | adopt shutdownStarted rundown => exact reads_adopt shutdownStarted rundown
  | step _ ha ih => exact ih.apply ha

/-- What the engine can rely on. `history` says of each thing that happened what came before it. -/
structure ReceiveSound (s : Stream) : Prop where
  history : Received s.log
  /-- While a receive is outstanding, nothing is held. -/
  outstanding : armedNow s.log = true → s.recvDeferred = false
  /-- What was not taken is held. -/
  whole : .dropped ∉ s.log → .detached ∉ s.log → receivedBytes s.log = takenBytes s.log ++ s.held
  wholeFin : .dropped ∉ s.log → .detached ∉ s.log → finReceived s.log = true →
    finTaken s.log = true ∨ s.heldFin = true
  part : takenBytes s.log <+: receivedBytes s.log
  partFin : finTaken s.log = true → finReceived s.log = true ∧ takenBytes s.log = receivedBytes s.log
  /-- Held data is discarded only behind a cancel, a failure or a detach, or with the session. -/
  lost : .dropped ∈ s.log → Discards s.log
  /-- A resume of a live stream hands on at once what is held. -/
  resumed : ∀ o : Oracle, Alive s.log → .detached ∉ s.log → .sessionGone ∉ s.log → s.ectx.isSome →
    s.conn = true → offering s.log = none → s.held ≠ [] ∨ s.heldFin = true →
    ∃ buf fin, (s.opRecvEnable o true).2.log = .offered buf fin :: .enabled true :: s.log ∧
      buf <+: s.held ∧ (buf = [] → fin = true)

/-- The loop comes to the region that holds the offset. -/
theorem Core.deliverRegions_offers {key total : Nat} {fin : Bool} {regions : List Bytes} {off : Nat}
    (hc : Core s) (rearm : Bool) (hdef : s.recvDeferred = true) (hk : s.ectx = some key)
    (ha : Alive s.log) (hen : s.recvEnabled = true) (hr : Regions fin total off regions s)
    (hlt : s.recvDeferredOffset < total) :
    ∃ buf last, (s.deliverRegions o key fin total rearm off regions).log =
      .offered buf last :: s.log ∧ buf <+: s.held ∧ buf ≠ [] := by
  have ht := hc.tracks
  have hterm : s.terminal = false := by simpa using fun h => ha.2.2.2 (ht.terminal.mpr h)
  have hi : s.cancelIssued = false := by simpa using fun h => ha.2.1 (ht.cancelIssued.mpr h)
  have hcd : s.cancelDeferred = false := by simpa using fun h => ha.1 (ht.cancelDeferred h)
  have hf : s.failedSeen = false := by simpa using fun h => ha.2.2.1 (ht.failed.mpr h)
  induction regions generalizing off with
  | nil =>
    exfalso
    have hle : total ≤ off := by
      rw [← hr.total, ← List.drop_eq_nil_iff, hr.rest]
      rfl
    have := hr.off
    omega
  | cons buf rest ih =>
    rw [Stream.deliverRegions, if_neg (by simp [hdef, hk, hterm, hi, hcd, hf]),
      if_neg (by simp [hen])]
    split
    · rename_i hle
      exact ih ⟨hr.total, by rw [← List.drop_drop, hr.rest, List.flatten_cons, List.drop_left], hle,
        hr.fin⟩
    · rename_i hgt
      have hoff := hr.off
      refine ⟨_, _, rfl, ?_, ?_⟩
      · have hskip : s.recvDeferredOffset = off + (s.recvDeferredOffset - off) := by omega
        rw [Stream.held, if_pos hdef]
        nth_rewrite 2 [hskip]
        rw [← List.drop_drop, hr.rest, List.flatten_cons,
          List.drop_append_of_le_length (by omega)]
        exact List.prefix_append _ _
      · rw [ne_eq, List.drop_eq_nil_iff]
        omega

theorem Core.deliverBytes_offers {key : Nat} {rearm : Bool} (hc : Core s) (hdef : s.recvDeferred = true)
    (hk : s.ectx = some key) (ha : Alive s.log) (hen : s.recvEnabled = true)
    (hdel : s.recvDelivering = false) (hses : s.session = true)
    (hheld : s.held ≠ [] ∨ s.heldFin = true) :
    ∃ buf fin, (s.deliverBytes o rearm).log = .offered buf fin :: s.log ∧ buf <+: s.held ∧
      (buf = [] → fin = true) := by
  unfold Stream.deliverBytes
  rw [if_neg (by simp [hdef, hdel])]
  split
  · rename_i key hses' hk'
    dsimp only
    split
    · rename_i hlt
      have hr : Regions s.recvDeferredFin (s.recvDeferredData.getD []).flatten.length 0
          (s.recvDeferredData.getD []) { s with recvDelivering := true } :=
        ⟨rfl, rfl, Nat.zero_le _, rfl⟩
      obtain ⟨buf, last, hlog, hpre, hne⟩ :=
        (hc.delivering true).deliverRegions_offers rearm hdef hk' ha hen hr hlt
      exact ⟨buf, last, hlog, hpre, fun h => absurd h hne⟩
    · rename_i hge
      obtain h | h := hheld
      · refine absurd ?_ h
        rw [Stream.held, if_pos hdef, List.drop_eq_nil_iff]
        exact Nat.le_of_not_lt hge
      · obtain ⟨hfin, hnd⟩ := Bool.and_eq_true_iff.mp h
        rw [if_pos (Bool.and_eq_true_iff.mpr ⟨(Bool.and_eq_true_iff.mp hfin).2, hnd⟩)]
        exact ⟨[], true, rfl, List.nil_prefix, fun _ => rfl⟩
  · rename_i hno
    exact absurd hk (hno key hses)

end Stream

end Wtquic.Network
