-- SUMMARY: The send chain and the ends of a stream leave the receive side alone.
import Wtquic.Network.Receive

namespace Wtquic.Network

variable {o : Oracle}

namespace Stream

variable {s s' s'' t t' : Stream} {l h : History}

/-- The facts that do not say what the receive side holds. -/
def Fact.calm : Fact → Bool
  | .accepted _ _ _ _ | .refused _ _ | .issued _ _ _ | .transportCompleted _
  | .sendComplete _ _ _ | .writable | .cancelIssued | .terminal | .sessionGone
  | .refusedInput => true
  | _ => false

def Fact.sends : Fact → Bool
  | .accepted _ _ _ _ | .refused _ _ | .issued _ _ _ | .transportCompleted _
  | .sendComplete _ _ _ | .writable => true
  | _ => false

section Facts

variable (hl : ∀ f ∈ l, f.calm = true)
include hl

/-- What no calm fact changes is the same behind all of them. -/
theorem calm_append {α : Sort*} (g : History → α)
    (hg : ∀ f h, f.calm = true → g (f :: h) = g h) : g (l ++ h) = g h := by
  induction l with
  | nil => rfl
  | cons f l ih =>
    rw [List.cons_append, hg f _ (hl f List.mem_cons_self)]
    exact ih fun f hf => hl f (List.mem_cons_of_mem _ hf)

theorem receivedBytes_calm : receivedBytes (l ++ h) = receivedBytes h :=
  calm_append hl receivedBytes fun f _ hf => by cases f <;> first | rfl | cases hf

theorem takenBytes_calm : takenBytes (l ++ h) = takenBytes h :=
  calm_append hl takenBytes fun f _ hf => by cases f <;> first | rfl | cases hf

theorem finReceived_calm : finReceived (l ++ h) = finReceived h :=
  calm_append hl finReceived fun f _ hf => by cases f <;> first | rfl | cases hf

theorem finTaken_calm : finTaken (l ++ h) = finTaken h :=
  calm_append hl finTaken fun f _ hf => by cases f <;> first | rfl | cases hf

theorem ended_calm : ended (l ++ h) = ended h :=
  calm_append hl ended fun f _ hf => by cases f <;> first | rfl | cases hf

theorem armedNow_calm : armedNow (l ++ h) = armedNow h :=
  calm_append hl armedNow fun f _ hf => by cases f <;> first | rfl | cases hf

theorem offering_calm : offering (l ++ h) = offering h :=
  calm_append hl offering fun f _ hf => by cases f <;> first | rfl | cases hf

theorem enabledNow_calm : enabledNow (l ++ h) = enabledNow h :=
  calm_append hl enabledNow fun f _ hf => by cases f <;> first | rfl | cases hf

theorem mem_calm {f : Fact} (hf : f.calm = false) : f ∈ l ++ h ↔ f ∈ h := by
  rw [List.mem_append]
  constructor
  · rintro (hm | hm)
    · rw [hl f hm] at hf
      cases hf
    · exact hm
  · exact .inr

end Facts

theorem Fact.sends_calm {f : Fact} (hf : f.sends = true) : f.calm = true := by
  cases f <;> first | rfl | cases hf

/-- The fact is none of those that a flag of the stream repeats. -/
theorem Fact.sends_ne {f g : Fact} (hf : f.sends = true) (hg : g.sends = false) : g ∉ [f] := by
  intro hm
  rw [List.mem_singleton.mp hm, hf] at hg
  cases hg

theorem calm_one {f : Fact} (hf : f.calm = true) : ∀ g ∈ [f], g.calm = true := by
  intro g hg
  rw [List.mem_singleton.mp hg]
  exact hf

/-- Frames of the send side, and of the end. -/
def Frame.sends : Frame → Bool
  | .streamTerminal | .sendComplete _ _ _ | .writable _ _ | .retireWritable | .otherStreams
  | .connClosed => true
  | _ => false

theorem Frame.sends_recv {f : Frame} (hf : f.sends = true) : f.recv = false := by
  cases f <;> first | rfl | cases hf

/-- A step that does not touch the receive side. -/
structure Calm (s s' : Stream) : Prop where
  recv : s'.toRecvHalf = s.toRecvHalf
  life : s'.toLife =
    { s.toLife with
      session := s'.session, shutdownStarted := s'.shutdownStarted,
      groupTerminal := s'.groupTerminal, terminal := s'.terminal, cancelIssued := s'.cancelIssued }
  log : ∃ l : History, s'.log = l ++ s.log ∧ (∀ f ∈ l, f.calm = true) ∧
    (s'.cancelIssued = true ↔ .cancelIssued ∈ l ∨ s.cancelIssued = true) ∧
    (s'.terminal = true ↔ .terminal ∈ l ∨ s.terminal = true) ∧
    (s'.session = false ↔ .sessionGone ∈ l ∨ s.session = false)
  closing : s'.shutdownStarted = true →
    s.shutdownStarted = true ∨ s'.cancelIssued = true ∨ s'.terminal = true ∨ s'.conn = false
  frames : ∃ fs : List Frame, s'.frames = fs ++ s.frames ∧ ∀ f ∈ fs, f.sends = true
  received : Received s.log → Received s'.log

namespace Calm

theorem refl (s : Stream) : Calm s s where
  recv := rfl
  life := rfl
  log := ⟨[], rfl, by simp, by simp, by simp, by simp⟩
  closing := .inl
  frames := ⟨[], rfl, by simp⟩
  received h := h

theorem conn (h : Calm s s') : s'.conn = s.conn := by rw [h.life]

theorem trans (h : Calm s s') (h' : Calm s' s'') : Calm s s'' where
  recv := h'.recv.trans h.recv
  life := by rw [h'.life, h.life]
  log := by
    obtain ⟨l, hl, hc, hi, ht, hs⟩ := h.log
    obtain ⟨l', hl', hc', hi', ht', hs'⟩ := h'.log
    refine ⟨l' ++ l, by rw [hl', hl, List.append_assoc], ?_, ?_, ?_, ?_⟩
    · intro f hf
      obtain hf | hf := List.mem_append.mp hf
      · exact hc' f hf
      · exact hc f hf
    · rw [hi', hi, List.mem_append, or_assoc]
    · rw [ht', ht, List.mem_append, or_assoc]
    · rw [hs', hs, List.mem_append, or_assoc]
  closing hd := by
    obtain ⟨_, _, _, hi, ht, _⟩ := h'.log
    obtain hd | hd := h'.closing hd
    · obtain hd | hd | hd | hd := h.closing hd
      · exact .inl hd
      · exact .inr (.inl (hi.mpr (.inr hd)))
      · exact .inr (.inr (.inl (ht.mpr (.inr hd))))
      · exact .inr (.inr (.inr (h'.conn.trans hd)))
    · exact .inr hd
  frames := by
    obtain ⟨fs, hf, ha⟩ := h.frames
    obtain ⟨fs', hf', ha'⟩ := h'.frames
    refine ⟨fs' ++ fs, by rw [hf', hf, List.append_assoc], ?_⟩
    intro f hm
    obtain hm | hm := List.mem_append.mp hm
    · exact ha' f hm
    · exact ha f hm
  received hr := h'.received (h.received hr)

/-- Fields of the send side. -/
theorem same (h : Calm s t) (hlife : t'.toLife = t.toLife) (hrecv : t'.toRecvHalf = t.toRecvHalf)
    (hlog : t'.log = t.log) (hframes : t'.frames = t.frames) : Calm s t' :=
  h.trans {
    recv := hrecv
    life := by rw [hlife]
    log := ⟨[], hlog, by simp, by simp [hlife], by simp [hlife], by simp [hlife]⟩
    closing := fun hd => .inl (by rw [← hlife]; exact hd)
    frames := ⟨[], hframes, by simp⟩
    received := fun hr => by rw [hlog]; exact hr }

theorem push {f : Frame} (h : Calm s t) (hf : f.sends = true) : Calm s (t.push f) :=
  h.trans {
    recv := rfl
    life := rfl
    log := ⟨[], rfl, by simp, (or_iff_right (by simp)).symm, (or_iff_right (by simp)).symm,
      (or_iff_right (by simp)).symm⟩
    closing := .inl
    frames := ⟨[f], rfl, by simp [hf]⟩
    received := fun hr => hr }

theorem note {f : Fact} (h : Calm s t) (hf : f.sends = true) : Calm s (t.note f) :=
  h.trans {
    recv := rfl
    life := rfl
    log := ⟨[f], rfl, calm_one (Fact.sends_calm hf),
      (or_iff_right (Fact.sends_ne hf rfl)).symm, (or_iff_right (Fact.sends_ne hf rfl)).symm,
      (or_iff_right (Fact.sends_ne hf rfl)).symm⟩
    closing := .inl
    frames := ⟨[], rfl, by simp⟩
    received := fun hr => ⟨by cases f <;> trivial, hr⟩ }

theorem refusedInput (h : Calm s t) : Calm s (t.note .refusedInput) :=
  h.trans {
    recv := rfl
    life := rfl
    log := ⟨[.refusedInput], rfl, calm_one rfl, (or_iff_right (by simp)).symm,
      (or_iff_right (by simp)).symm, (or_iff_right (by simp)).symm⟩
    closing := .inl
    frames := ⟨[], rfl, by simp⟩
    received := fun hr => ⟨trivial, hr⟩ }

theorem cancel (h : Calm s t) : Calm s t.cancel :=
  h.trans {
    recv := rfl
    life := rfl
    log := ⟨[.cancelIssued], rfl, calm_one rfl, iff_of_true rfl (.inl List.mem_cons_self),
      (or_iff_right (by simp)).symm, (or_iff_right (by simp)).symm⟩
    closing := .inl
    frames := ⟨[], rfl, by simp⟩
    received := fun hr => ⟨trivial, hr⟩ }

theorem terminal (h : Calm s t) : Calm s ({ t with terminal := true }.note .terminal) :=
  h.trans {
    recv := rfl
    life := rfl
    log := ⟨[.terminal], rfl, calm_one rfl, (or_iff_right (by simp)).symm,
      iff_of_true rfl (.inl List.mem_cons_self), (or_iff_right (by simp)).symm⟩
    closing := .inl
    frames := ⟨[], rfl, by simp⟩
    received := fun hr => ⟨trivial, hr⟩ }

theorem sessionGone (h : Calm s t) : Calm s ({ t with session := false }.note .sessionGone) :=
  h.trans {
    recv := rfl
    life := rfl
    log := ⟨[.sessionGone], rfl, calm_one rfl, (or_iff_right (by simp)).symm,
      (or_iff_right (by simp)).symm, iff_of_true rfl (.inl List.mem_cons_self)⟩
    closing := .inl
    frames := ⟨[], rfl, by simp⟩
    received := fun hr => ⟨trivial, hr⟩ }

theorem shutdownStarted (h : Calm s t)
    (hd : t.cancelIssued = true ∨ t.terminal = true ∨ t.conn = false) :
    Calm s { t with shutdownStarted := true } :=
  h.trans {
    recv := rfl
    life := rfl
    log := ⟨[], rfl, by simp, by simp, by simp, by simp⟩
    closing := fun _ => .inr hd
    frames := ⟨[], rfl, by simp⟩
    received := fun hr => hr }

theorem groupTerminal (h : Calm s t) : Calm s { t with groupTerminal := true } :=
  h.trans {
    recv := rfl
    life := rfl
    log := ⟨[], rfl, by simp, by simp, by simp, by simp⟩
    closing := .inl
    frames := ⟨[], rfl, by simp⟩
    received := fun hr => hr }

/-! ## The functions of the send side -/

theorem opConnClose (h : Calm s t) : Calm s t.opConnClose := by
  unfold Stream.opConnClose
  split
  · exact h
  · dsimp only
    split
    · exact shutdownStarted h.cancel (.inl rfl)
    · exact h.shutdownStarted (by grind)

theorem leaveAndPoll (h : Calm s t) : Calm s (t.leaveAndPoll o) := by
  unfold Stream.leaveAndPoll
  split
  · exact h
  · split
    · exact h
    · split
      · exact h.sessionGone
      · exact h
    · exact h.opConnClose

theorem pumpSends (h : Calm s t) : Calm s (t.pumpSends o) := by
  unfold Stream.pumpSends
  split
  · exact h
  · split
    · exact h
    · dsimp only
      split
      · exact opConnClose (h.same rfl rfl rfl rfl)
      · exact note (h.same rfl rfl rfl rfl) rfl

theorem opSend (data : Bytes) (fin alloc : Bool) (h : Calm s t) :
    Calm s (t.opSend o data fin alloc).2 := by
  unfold Stream.opSend
  split
  · exact h
  · split
    · exact h
    · exact pumpSends (same (note h rfl) rfl rfl rfl rfl)

theorem block (cookie : Nat) (h : Calm s t) : Calm s (t.block cookie) :=
  note (h.same rfl rfl rfl rfl) rfl

theorem gatherAt (r : Slot) (spans : List Bytes) (fin : Bool) (cookie : Nat) (alloc : Alloc)
    (h : Calm s t) : Calm s (t.gatherAt o r spans fin cookie alloc).2 := by
  have hr : Calm s (t.reserve r cookie (gatherBytes spans)) := h.same rfl rfl rfl rfl
  cases alloc with
  | ok => exact pumpSends (same (note hr rfl) rfl rfl rfl rfl)
  | noData => exact h.note rfl
  | noEntry => exact note (same hr rfl rfl rfl rfl) rfl

theorem opSendGather (spans : List Bytes) (fin : Bool) (cookie : Nat) (alloc : Alloc)
    (h : Calm s t) : Calm s (t.opSendGather o spans fin cookie alloc).2 := by
  unfold Stream.opSendGather
  split
  · exact h.note rfl
  · split
    · exact h.block cookie
    · split
      · exact h.block cookie
      · exact h.gatherAt _ spans fin cookie alloc

theorem freeIfDone (r : Slot) (h : Calm s t) : Calm s (t.freeIfDone r) := by
  unfold Stream.freeIfDone
  split
  · exact h.same rfl rfl rfl rfl
  · exact h

theorem appComplete (r : Slot) (h : Calm s t) : Calm s (t.appComplete r) := by
  unfold Stream.appComplete
  split
  · exact h.same rfl rfl rfl rfl
  · exact h.same rfl rfl rfl rfl

theorem phaseDone (id : Nat) (f : Batch → Batch) (h : Calm s t) : Calm s (t.phaseDone id f) := by
  unfold Stream.phaseDone
  split
  · exact h.same rfl rfl rfl rfl
  · exact h.same rfl rfl rfl rfl

theorem batchCompleteEnd (id : Nat) (h : Calm s t) : Calm s (t.batchCompleteEnd o id) := by
  unfold Stream.batchCompleteEnd
  split
  · exact ((h.phaseDone _ _).pumpSends).opConnClose
  · exact (h.phaseDone _ _).pumpSends

theorem sweepEnd (after : AfterSweep) (h : Calm s t) : Calm s (t.sweepEnd after) := by
  cases after with
  | failed =>
    unfold Stream.sweepEnd
    dsimp only
    split
    · exact h
    · exact h.cancel
  | cancelled =>
    unfold Stream.sweepEnd
    dsimp only
    split
    · exact h.terminal.push rfl
    · exact h.terminal
  | groupTerminal => exact h.push rfl

theorem completingEnd (k : Completing) (h : Calm s t) : Calm s (t.completingEnd o k) := by
  cases k with
  | batch id => exact h.batchCompleteEnd id
  | sweep _ after => exact h.sweepEnd after

theorem completeRecs (k : Completing) (rs : List Slot) (h : Calm s t) :
    Calm s (t.completeRecs o k rs) := by
  induction rs generalizing t with
  | nil => exact h.completingEnd k
  | cons r rs ih =>
    rw [Stream.completeRecs]
    split
    · dsimp only
      split
      · exact push (note (h.appComplete r) rfl) rfl
      · exact ih ((h.appComplete r).freeIfDone r)
    · exact ih (h.freeIfDone r)

theorem recReturned (r : Slot) (k : Completing) (h : Calm s t) : Calm s (t.recReturned o r k) :=
  (h.leaveAndPoll.freeIfDone r).completeRecs k k.rest

theorem sendCompleteReturned (r : Slot) (edge : Bool) (k : Completing) (h : Calm s t) :
    Calm s (t.sendCompleteReturned o r edge k) := by
  unfold Stream.sendCompleteReturned
  split
  · exact push (h.note rfl) rfl
  · exact h.recReturned r k

theorem batchOnComplete (b : Batch) (canceled : Bool) (h : Calm s t) :
    Calm s (t.batchOnComplete o b canceled) :=
  completeRecs _ _ (note (h.same rfl rfl rfl rfl) rfl)

theorem batchRetired (b : Batch) (h : Calm s t) : Calm s (t.batchRetired b) :=
  phaseDone _ _ (h.same rfl rfl rfl rfl)

theorem batchOnRetire (b : Batch) (h : Calm s t) : Calm s (t.batchOnRetire b) := by
  have hb := h.batchRetired b
  unfold Stream.batchOnRetire
  split
  · exact push (note (hb.same rfl rfl rfl rfl) rfl) rfl
  · exact hb

theorem failureReported (after : AfterSweep) (h : Calm s t) :
    Calm s (t.failureReported o after) :=
  completeRecs _ _ (h.same rfl rfl rfl rfl)

end Calm

/-! ## What calm steps keep -/

theorem Calm.mem {f : Fact} (h : Calm s s') (hf : f.calm = false) : f ∈ s'.log ↔ f ∈ s.log := by
  obtain ⟨l, hl, hc, _⟩ := h.log
  rw [hl]
  exact mem_calm hc hf

theorem Calm.mem_old {f : Fact} (h : Calm s s') (hf : f ∈ s.log) : f ∈ s'.log := by
  obtain ⟨l, hl, _⟩ := h.log
  rw [hl]
  exact List.mem_append_right l hf

theorem Calm.held (h : Calm s s') : s'.held = s.held := by
  unfold Stream.held
  rw [h.recv]

theorem Calm.heldFin (h : Calm s s') : s'.heldFin = s.heldFin := by
  unfold Stream.heldFin
  rw [h.recv]

theorem Calm.receivedBytes (h : Calm s s') : receivedBytes s'.log = receivedBytes s.log := by
  obtain ⟨l, hl, hc, _⟩ := h.log
  rw [hl, receivedBytes_calm hc]

theorem Calm.takenBytes (h : Calm s s') : takenBytes s'.log = takenBytes s.log := by
  obtain ⟨l, hl, hc, _⟩ := h.log
  rw [hl, takenBytes_calm hc]

theorem Calm.finReceived (h : Calm s s') : finReceived s'.log = finReceived s.log := by
  obtain ⟨l, hl, hc, _⟩ := h.log
  rw [hl, finReceived_calm hc]

theorem Calm.finTaken (h : Calm s s') : finTaken s'.log = finTaken s.log := by
  obtain ⟨l, hl, hc, _⟩ := h.log
  rw [hl, finTaken_calm hc]

theorem Calm.offering (h : Calm s s') : offering s'.log = offering s.log := by
  obtain ⟨l, hl, hc, _⟩ := h.log
  rw [hl, offering_calm hc]

theorem Calm.attached (h : Calm s s') : s'.Attached ↔ s.Attached := by
  unfold Attached
  rw [h.mem rfl, h.life]

theorem Discards.append {f : History} (h : Discards l) : Discards (f ++ l) := by
  unfold Discards Alive at *
  simp only [List.mem_append]
  tauto

theorem Tracks.calm (ht : Tracks s) (h : Calm s s') : Tracks s' := by
  obtain ⟨l, hl, hc, hi, hterm, hses⟩ := h.log
  constructor
  · rw [hl, armedNow_calm hc, h.recv]
    exact ht.armed
  · rw [hl, enabledNow_calm hc, h.recv]
    exact ht.enabled
  · rw [hl, ended_calm hc, h.recv]
    exact ht.ended
  · rw [hl, finTaken_calm hc, h.recv]
    exact ht.finTaken
  · rw [hl, List.mem_append, hi, ht.cancelIssued]
  · rw [hl, mem_calm hc rfl, ht.failed, h.life]
  · rw [hl, List.mem_append, hterm, ht.terminal]
  · rw [hl, List.mem_append, hses, ht.sessionGone]
  · rw [hl, mem_calm hc rfl, h.recv, h.life]
    exact ht.reset
  · rw [hl, mem_calm hc rfl]
    intro hm
    obtain hm | hm := ht.shutdown hm
    · exact .inl (by rw [h.life]; exact hm)
    · exact .inr (hi.mpr (.inr hm))
  · rw [hl, mem_calm hc rfl, h.life]
    exact ht.cancelDeferred
  · rw [hl, mem_calm hc rfl, h.life]
    exact ht.detached

theorem Holds.calm (hh : Holds s) (h : Calm s s') : Holds s' := by
  constructor
  · rw [h.mem rfl, h.mem rfl, h.receivedBytes, h.takenBytes, h.held]
    exact hh.whole
  · rw [h.mem rfl, h.mem rfl, h.finReceived, h.recv, h.heldFin]
    exact hh.wholeFin
  · rw [h.receivedBytes, h.takenBytes]
    exact hh.part
  · rw [h.receivedBytes, h.takenBytes, h.finReceived, h.recv]
    exact hh.partFin
  · rw [h.mem rfl]
    intro hm
    obtain ⟨l, hl, _⟩ := h.log
    rw [hl]
    exact (hh.lost hm).append
  · rw [h.finReceived, h.recv]
    exact hh.heldFin
  · rw [h.finReceived, h.recv]
    exact hh.finEnded
  · rw [h.recv]
    exact hh.offset
  · rw [h.recv]
    exact hh.empty
  · rw [h.recv]
    exact hh.pending
  · rw [h.recv, h.attached]
    exact hh.attached

theorem Starts.calm (hs : Starts s) (h : Calm s s') : Starts s' := by
  have hl := h.life
  constructor
  · rw [hl]
    exact hs.ready
  · rw [hl]
    exact hs.recheck
  · rw [h.mem rfl, hl]
    exact hs.peer
  · rw [h.attached, hl]
    exact hs.bidi

theorem Ends.calm (he : Ends s) (h : Calm s s') : Ends s' := by
  obtain ⟨_, _, _, hi, ht, _⟩ := h.log
  have hgone : s'.conn = false → s'.terminal = true := fun hn =>
    ht.mpr (.inr (he.gone (h.conn.symm.trans hn)))
  constructor
  · intro hd
    obtain hd | hd | hd | hd := h.closing hd
    · obtain hd | hd := he.closing hd
      · exact .inl (hi.mpr (.inr hd))
      · exact .inr (ht.mpr (.inr hd))
    · exact .inl hd
    · exact .inr hd
    · exact .inr (hgone hd)
  · exact hgone

theorem Core.calm (hc : Core s) (h : Calm s s') : Core s' where
  tracks := hc.tracks.calm h
  holds := hc.holds.calm h
  starts := hc.starts.calm h
  ends := hc.ends.calm h
  received := h.received hc.received

end Stream

end Wtquic.Network
