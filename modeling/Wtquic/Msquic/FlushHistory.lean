-- SUMMARY: What a history of accepted output, completions and cancellations says was delivered, withdrawn or lost.
import Wtquic.Msquic.Flush

namespace Wtquic.Msquic

/-! # Histories of output

The meaning of a history, newest entry first, without the counters of the backend. -/

/-- The stream a fact is about. -/
def Fact.ds : Fact → Nat
  | .sent r => r.ds
  | .fin s => s
  | .returned r _ => r.ds
  | .began s => s
  | .decided s _ => s
  | .aborted s => s
  | .stopped s _ => s
  | .sendDone s _ => s
  | .gone s => s

/-- An accepted application cancellation, or a peer STOP of a WT stream: it supersedes what
the stream owes. -/
def Fact.cuts (s : Nat) : Fact → Prop
  | .decided s' .accepted => s' = s
  | .stopped s' true => s' = s
  | _ => False

/-- The send side ends otherwise than by a graceful shutdown or a supersession. -/
def Fact.ends (s : Nat) : Fact → Prop
  | .decided s' .partialShutdown => s' = s
  | .aborted s' => s' = s
  | .stopped s' false => s' = s
  | .sendDone s' false => s' = s
  | .gone s' => s' = s
  | _ => False

/-- A FIN of stream `s` was accepted. -/
def Fact.acceptsFin (s : Nat) : Fact → Prop
  | .sent r => r.ds = s ∧ r.flushFin
  | .fin s' => s' = s
  | _ => False

theorem Fact.ds_of_cuts {s : Nat} {f : Fact} (h : f.cuts s) : f.ds = s := by
  unfold Fact.cuts at h
  split at h <;> first | exact h | exact h.elim

theorem Fact.ds_of_ends {s : Nat} {f : Fact} (h : f.ends s) : f.ds = s := by
  unfold Fact.ends at h
  split at h <;> first | exact h | exact h.elim

theorem Fact.ds_of_acceptsFin {s : Nat} {f : Fact} (h : f.acceptsFin s) : f.ds = s := by
  unfold Fact.acceptsFin at h
  split at h
  · exact h.1
  · exact h
  · exact h.elim

abbrev History := List Fact

/-- The record `r` has come back. -/
def Returned (r : SendRec) (h : History) : Prop := ∃ canceled, .returned r canceled ∈ h

/-- Records are accepted once, and come back after they were accepted. -/
def Ordered : History → Prop
  | [] => True
  | f :: h => (∀ r, f = .sent r → .sent r ∉ h ∧ ¬ Returned r h) ∧
      (∀ r canceled, f = .returned r canceled → .sent r ∈ h) ∧ Ordered h

/-- The record `r` was accepted, and nothing has superseded it. -/
def Required (r : SendRec) : History → Prop
  | [] => False
  | f :: h => f = .sent r ∨ (¬ f.cuts r.ds ∧ Required r h)

/-- A FIN was accepted on stream `s`, and neither a graceful shutdown nor a supersession
followed. -/
def FinRequired (s : Nat) : History → Prop
  | [] => False
  | f :: h => f.acceptsFin s ∨ (¬ f.cuts s ∧ f ≠ .sendDone s true ∧ FinRequired s h)

/-- The shutdown of the send side has been observed, and MsQuic borrows no send of it. -/
def Quiet (s : Nat) (h : History) : Prop :=
  (∃ graceful, .sendDone s graceful ∈ h) ∧ ∀ r, .sent r ∈ h → r.ds = s → Returned r h

/-- The stream was quiet at some moment since the last supersession. -/
def Settled (s : Nat) : History → Prop
  | [] => False
  | f :: h => Quiet s (f :: h) ∨ (¬ f.cuts s ∧ Settled s h)

/-- How many cancellations of stream `s` are not decided yet. -/
def deciding (s : Nat) : History → Nat
  | [] => 0
  | .began s' :: h => deciding s h + (if s' = s then 1 else 0)
  | .decided s' _ :: h => deciding s h - (if s' = s then 1 else 0)
  | _ :: h => deciding s h

/-- The send `r` is required and gets lost: it is canceled, or its stream ends under it. -/
def LosesSend (r : SendRec) (f : Fact) (h : History) : Prop :=
  Required r h ∧ ((f = .returned r true ∧ (r.flushBytes ∨ r.flushFin)) ∨
    (f.ends r.ds ∧ r.flushBytes ∧ ¬ Returned r h))

/-- The send `r` was lost, and nothing superseded it afterwards. -/
def LostSend (r : SendRec) : History → Prop
  | [] => False
  | f :: h => ¬ f.cuts r.ds ∧ (LostSend r h ∨ LosesSend r f h)

/-- A required FIN of stream `s` was lost, and nothing superseded it afterwards. -/
def LostFin (s : Nat) : History → Prop
  | [] => False
  | f :: h => ¬ f.cuts s ∧ (LostFin s h ∨ (FinRequired s h ∧ f.ends s))

/-- What the entries `later` supersede of stream `s`, has been settled. -/
def Superseded (s : Nat) (later h : History) : Prop := (∃ f ∈ later, f.cuts s) ∧ Settled s h

/-- All required output has been delivered. -/
structure Flushed (h : History) : Prop where
  bytes : ∀ later r earlier, h = later ++ .sent r :: earlier → r.flushBytes →
    .returned r false ∈ h ∨ Superseded r.ds later h
  fins : ∀ later f earlier s, h = later ++ f :: earlier → f.acceptsFin s →
    .sendDone s true ∈ later ∨ Superseded s later h

/-- Required output has been lost, and no cancellation that could supersede it is under
way. -/
def Lost (h : History) : Prop :=
  (∃ r, LostSend r h ∧ deciding r.ds h = 0) ∨ ∃ s, LostFin s h ∧ deciding s h = 0

/-! ## Facts about other streams -/

variable {f : Fact} {h : History} {s : Nat} {r : SendRec}

theorem Required.sent (hr : Required r h) : .sent r ∈ h := by
  induction h with
  | nil => exact hr.elim
  | cons f h ih =>
    rcases hr with rfl | ⟨-, hr⟩
    · exact List.mem_cons_self
    · exact List.mem_cons_of_mem _ (ih hr)

theorem Returned.cons (hr : Returned r h) (f : Fact) : Returned r (f :: h) :=
  hr.imp fun _ => List.mem_cons_of_mem _

theorem Ordered.sent (ho : Ordered h) (hr : Returned r h) : .sent r ∈ h := by
  induction h with
  | nil =>
    obtain ⟨c, hc⟩ := hr
    cases hc
  | cons f h ih =>
    obtain ⟨c, hc⟩ := hr
    rcases List.mem_cons.mp hc with hc | hc
    · exact List.mem_cons_of_mem _ (ho.2.1 r c hc.symm)
    · exact List.mem_cons_of_mem _ (ih ho.2.2 ⟨c, hc⟩)

/-- Facts that neither accept nor return a record. -/
theorem Ordered.append {l : History} (ho : Ordered h)
    (hl : ∀ f ∈ l, (∀ r, f ≠ .sent r) ∧ ∀ r c, f ≠ .returned r c) : Ordered (l ++ h) := by
  induction l with
  | nil => exact ho
  | cons f l ih =>
    obtain ⟨hsent, hret⟩ := hl f List.mem_cons_self
    exact ⟨fun r hr => absurd hr (hsent r), fun r c hr => absurd hr (hret r c),
      ih fun g hg => hl g (List.mem_cons_of_mem _ hg)⟩

/-- A required record that came back canceled was lost. -/
theorem lostSend_of_canceled (ho : Ordered h) (hc : .returned r true ∈ h) (hq : Required r h)
    (hb : r.flushBytes ∨ r.flushFin) : LostSend r h := by
  induction h with
  | nil => cases hc
  | cons f h ih =>
    rcases List.mem_cons.mp hc with rfl | hc
    · rcases hq with hq | ⟨hcut, hq⟩
      · cases hq
      · exact ⟨hcut, .inr ⟨hq, .inl ⟨rfl, hb⟩⟩⟩
    · rcases hq with hq | ⟨hcut, hq⟩
      · exact absurd ⟨true, hc⟩ (ho.1 r hq).2
      · exact ⟨hcut, .inl (ih ho.2.2 hc hq)⟩

theorem required_cons (hf : f.ds ≠ r.ds) : Required r (f :: h) ↔ Required r h := by
  have hsent : f ≠ .sent r := fun e => hf (e ▸ rfl)
  have hcut : ¬ f.cuts r.ds := fun hc => hf (Fact.ds_of_cuts hc)
  simp [Required, hsent, hcut]

theorem finRequired_cons (hf : f.ds ≠ s) : FinRequired s (f :: h) ↔ FinRequired s h := by
  have hacc : ¬ f.acceptsFin s := fun hc => hf (Fact.ds_of_acceptsFin hc)
  have hcut : ¬ f.cuts s := fun hc => hf (Fact.ds_of_cuts hc)
  have hdone : f ≠ .sendDone s true := fun e => hf (e ▸ rfl)
  simp [FinRequired, hacc, hcut, hdone]

theorem lostSend_cons (hf : f.ds ≠ r.ds) : LostSend r (f :: h) ↔ LostSend r h := by
  have hcut : ¬ f.cuts r.ds := fun hc => hf (Fact.ds_of_cuts hc)
  have hend : ¬ f.ends r.ds := fun hc => hf (Fact.ds_of_ends hc)
  have hret : f ≠ .returned r true := fun e => hf (e ▸ rfl)
  simp [LostSend, LosesSend, hcut, hend, hret]

theorem lostFin_cons (hf : f.ds ≠ s) : LostFin s (f :: h) ↔ LostFin s h := by
  have hcut : ¬ f.cuts s := fun hc => hf (Fact.ds_of_cuts hc)
  have hend : ¬ f.ends s := fun hc => hf (Fact.ds_of_ends hc)
  simp [LostFin, hcut, hend]

theorem settled_cons (hf : ¬ f.cuts s) (hs : Settled s h) : Settled s (f :: h) := .inr ⟨hf, hs⟩

theorem deciding_cons (hf : f.ds ≠ s) : deciding s (f :: h) = deciding s h := by
  cases f <;> simp_all [deciding, Fact.ds]

/-- Output that is not superseded is required. -/
theorem required_of_uncut {later earlier : History} (hu : ∀ f ∈ later, ¬ f.cuts r.ds) :
    Required r (later ++ .sent r :: earlier) := by
  induction later with
  | nil => exact .inl rfl
  | cons f later ih =>
    exact .inr ⟨hu f List.mem_cons_self, ih fun g hg => hu g (List.mem_cons_of_mem _ hg)⟩

/-- A FIN that is neither met nor superseded is required. -/
theorem finRequired_of_uncut {later earlier : History} (hf : f.acceptsFin s)
    (hu : ∀ g ∈ later, ¬ g.cuts s) (hd : .sendDone s true ∉ later) :
    FinRequired s (later ++ f :: earlier) := by
  induction later with
  | nil => exact .inl hf
  | cons g later ih =>
    refine .inr ⟨hu g List.mem_cons_self, ?_, ih (fun k hk => hu k (List.mem_cons_of_mem _ hk)) ?_⟩
    · rintro rfl
      exact hd List.mem_cons_self
    · exact fun hm => hd (List.mem_cons_of_mem _ hm)

end Wtquic.Msquic
