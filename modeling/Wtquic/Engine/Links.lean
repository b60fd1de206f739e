-- SUMMARY: A driver stream gets a slot once, and is detached once, when that slot is released.
import Wtquic.Engine.InputActs

namespace Wtquic.Engine

/-! # Links -/

variable {σ : Type} {E : Ctx σ} {N : News} {D : Doomed} {w w' : World σ}

/-- The driver stream that an entry ties to a slot, or unties. -/
def Out.link : Out → Option Nat
  | .attach ds _ | .op (.detach ds _) _ => some ds
  | _ => none

theorem Out.link_of_isLink {o : Out} (h : o.isLink = false) : o.link = none := by
  cases o with
  | op o r => cases o <;> simp_all [Out.isLink, Out.link]
  | attach ds i => simp [Out.isLink] at h
  | cb c => rfl
  | ret => rfl
  | sess s => rfl

namespace World

/-- What tied driver stream `ds` to slots and untied it, newest first. -/
def links (ds : Nat) (w : World σ) : List Out := w.trace.filter (·.link == some ds)

/-- Slot `i` is occupied by driver stream `ds`. -/
def Holds (w : World σ) (i ds : Nat) : Prop := (w.es i).kind ≠ .free ∧ (w.es i).ds = ds

theorem links_append {t : List Out} (ht : w'.trace = t ++ w.trace) (ds : Nat) :
    w'.links ds = t.filter (·.link == some ds) ++ w.links ds := by
  rw [links, ht, List.filter_append, links]

/-- Entries that tie nothing. -/
theorem links_of_idle {t : List Out} (ht : w'.trace = t ++ w.trace) (h : ∀ o ∈ t, o.link = none)
    (ds : Nat) : w'.links ds = w.links ds := by
  have hnone : t.filter (·.link == some ds) = [] :=
    List.filter_eq_nil_iff.mpr fun o ho => by simp [h o ho]
  rw [links_append ht, hnone, List.nil_append]

end World

/-- A driver stream has no slot yet, occupies the slot it got, or has left it. -/
inductive Fate (w : World σ) (ds : Nat) : Prop
  | idle (h : w.links ds = []) (hn : ∀ i, ¬ w.Holds i ds)
  | tied (i : Nat) (h : w.links ds = [.attach ds i]) (hi : ∀ j, w.Holds j ds ↔ j = i)
  | cut (i : Nat) (r : DrvRes) (h : w.links ds = [.op (.detach ds i) r, .attach ds i])
      (hn : ∀ i, ¬ w.Holds i ds)

theorem Fate.of_eq {ds : Nat} (h : Fate w ds) (hl : w'.links ds = w.links ds)
    (hs : ∀ i, w'.Holds i ds ↔ w.Holds i ds) : Fate w' ds := by
  cases h with
  | idle h hn => exact .idle (hl.trans h) fun i hi => hn i ((hs i).mp hi)
  | tied i h hi => exact .tied i (hl.trans h) fun j => (hs j).trans (hi j)
  | cut i r h hn => exact .cut i r (hl.trans h) fun i hi => hn i ((hs i).mp hi)

/-- Slots and driver streams are tied one to one. -/
structure Linked (w : World σ) : Prop where
  faults : ∀ f ∈ w.faults, f.isMemory
  fate : ∀ ds, Fate w ds
  named : ∀ i, ¬ w.Holds i 0
  fresh : ∀ ds, w.nextDs ≤ ds → w.links ds = []
  records : ∀ r p, w.conn.admissionPeers r = some p →
    p.ds < w.nextDs ∧ (p.waits → w.links p.ds = [])
  distinct : ∀ r r' p p', w.conn.admissionPeers r = some p → w.conn.admissionPeers r' = some p' →
    p.waits → p'.waits → p.ds = p'.ds → r = r'

namespace Linked

/-- No link is made or cut. -/
theorem same (h : Linked w) (hf : ∀ f ∈ w'.faults, f ∈ w.faults ∨ f.isMemory)
    (hl : ∀ ds, w'.links ds = w.links ds) (hs : ∀ i ds, w'.Holds i ds ↔ w.Holds i ds)
    (hn : w.nextDs ≤ w'.nextDs)
    (hr : ∀ r q, w'.conn.admissionPeers r = some q →
      ∃ p, w.conn.admissionPeers r = some p ∧ q.ds = p.ds ∧ (q.waits → p.waits)) : Linked w' where
  faults := fun f hm => (hf f hm).elim (h.faults f) id
  fate := fun ds => (h.fate ds).of_eq (hl ds) fun i => hs i ds
  named := fun i hi => h.named i ((hs i 0).mp hi)
  fresh := fun ds hd => (hl ds).trans (h.fresh ds (Nat.le_trans hn hd))
  records := fun r q hq => by
    obtain ⟨p, hp, hds, hw⟩ := hr r q hq
    obtain ⟨hlt, hidle⟩ := h.records r p hp
    refine ⟨hds ▸ Nat.lt_of_lt_of_le hlt hn, fun hwait => ?_⟩
    rw [hl, hds]
    exact hidle (hw hwait)
  distinct := fun r r' q q' hq hq' hwait hwait' he => by
    obtain ⟨p, hp, hds, hw⟩ := hr r q hq
    obtain ⟨p', hp', hds', hw'⟩ := hr r' q' hq'
    exact h.distinct r r' p p' hp hp' (hw hwait) (hw' hwait') (hds ▸ hds' ▸ he)

/-- Slots, records and faults stay, and nothing is tied or cut. -/
theorem of_trace {t : List Out} (h : Linked w) (ht : w'.trace = t ++ w.trace)
    (hlink : ∀ o ∈ t, o.link = none) (hc : w'.conn.peer = w.conn.peer)
    (hr : w'.conn.admissionPeers = w.conn.admissionPeers) (hn : w'.nextDs = w.nextDs)
    (hf : w'.faults = w.faults) : Linked w' :=
  h.same (fun f hm => .inl (hf ▸ hm)) (World.links_of_idle ht hlink)
    (fun i ds => by simp only [World.Holds, World.es, hc]) (Nat.le_of_eq hn.symm)
    fun r q hq => ⟨q, hr ▸ hq, rfl, id⟩

theorem log {o : Out} (h : Linked w) (ho : o.link = none) : Linked (w.log o) :=
  h.of_trace (t := [o]) rfl (by simpa using ho) rfl rfl rfl rfl

theorem setSess (h : Linked w) (s : SessState) : Linked (w.setSess s) :=
  h.of_trace (t := [.sess s]) rfl (by simp [Out.link]) rfl rfl rfl rfl

/-- The stream in a slot is written. -/
theorem putEs {i : Nat} {e : Estream} (h : Linked w) (hk : e.kind ≠ .free ↔ (w.es i).kind ≠ .free)
    (hds : (w.es i).kind ≠ .free → e.ds = (w.es i).ds) : Linked (w.putEs i e) := by
  refine h.same (fun f hm => .inl hm) (fun _ => rfl) (fun j ds => ?_) (Nat.le_refl _)
    fun r q hq => ⟨q, hq, rfl, id⟩
  unfold World.Holds
  rw [World.es_putEs]
  split
  · next hji =>
    subst hji
    exact ⟨fun hh => ⟨hk.mp hh.1, (hds (hk.mp hh.1)) ▸ hh.2⟩,
      fun hh => ⟨hk.mpr hh.1, (hds hh.1).trans hh.2⟩⟩
  · rfl

theorem modEs {i : Nat} {f : Estream → Estream} (h : Linked w) (hk : (w.es i).kind ≠ .free)
    (hf : (f (w.es i)).kind ≠ .free) (hds : (f (w.es i)).ds = (w.es i).ds) :
    Linked (w.modEs i f) := by
  rw [World.modEs_of_occupied hk]
  exact h.putEs ⟨fun _ => hk, fun _ => hf⟩ fun _ => hds

theorem updConn {f : Conn → Conn} (h : Linked w) (hp : (f w.conn).peer = w.conn.peer)
    (hr : (f w.conn).admissionPeers = w.conn.admissionPeers) : Linked (w.updConn f) :=
  h.of_trace (t := []) rfl (by simp) hp hr rfl rfl

theorem setAdmission {r : Nat} {q : Option Admission} (h : Linked w)
    (hq : ∀ q', q = some q' →
      ∃ p, w.conn.admissionPeers r = some p ∧ q'.ds = p.ds ∧ (q'.waits → p.waits)) :
    Linked (w.setAdmission r q) := by
  refine h.same (fun f hf => .inl hf) (fun _ => rfl) (fun _ _ => .rfl) (Nat.le_refl _) ?_
  intro r' q' hq'
  simp only [World.setAdmission, World.conn_updConn, Function.update_apply] at hq'
  split at hq'
  · next hr =>
    subst hr
    exact hq q' hq'
  · exact ⟨q', hq', rfl, id⟩

theorem settled (h : Linked w) (hs : Settled w w') : Linked w' := by
  obtain ⟨te, code, closed, user, hc⟩ := hs.conn
  obtain ⟨t, ht, hl⟩ := hs.links
  refine h.same (fun f hm => .inl (hs.faults ▸ hm))
    (World.links_of_idle ht fun o ho => Out.link_of_isLink (hl o ho)) (fun i ds => ?_)
    (Nat.le_of_eq hs.nextDs.symm) fun r q hq => ⟨q, by simpa [hc] using hq, rfl, id⟩
  simp only [World.Holds, World.es, hc]

theorem still (h : Linked w) (hs : Still w w') : Linked w' := by
  obtain ⟨te, user, hc⟩ := hs.conn
  refine h.same (fun f hm => .inl (hs.faults ▸ hm))
    (World.links_of_idle (t := []) hs.trace (by simp)) (fun i ds => ?_)
    (Nat.le_of_eq hs.nextDs.symm) fun r q hq => ⟨q, by simpa [hc] using hq, rfl, id⟩
  simp only [World.Holds, World.es, hc]

theorem letGo (h : Linked w) (i : Nat) : Linked (admissionLetGo i w) := by
  refine h.same (fun f hm => .inl (by simpa using hm)) (fun ds => by simp [World.links])
    (fun j ds => by simp [World.Holds]) (by simp) fun r q hq => ?_
  simp only [conn_admissionLetGo, Conn.letGo] at hq
  split at hq
  · obtain ⟨p, hp, rfl⟩ := Option.map_eq_some_iff.mp hq
    exact ⟨p, hp, (p.later_letGo i).ds, (p.later_letGo i).waits⟩
  · exact ⟨q, hq, rfl, id⟩

/-! ## Attach and release -/

/-- A driver stream without a slot gets one that is free. -/
theorem attach (ds i : Nat) (h : Linked w) (hds : ds ≠ 0) (hidle : w.links ds = [])
    (hfree : (w.es i).kind = .free)
    (hl : ∀ d, w'.links d = if d = ds then [.attach ds i] else w.links d)
    (hs : ∀ j d, w'.Holds j d ↔ if j = i then d = ds else w.Holds j d)
    (hn : w.nextDs ≤ w'.nextDs) (hnew : ds < w'.nextDs) (hf : w'.faults = w.faults)
    (hr : ∀ r q, w'.conn.admissionPeers r = some q →
      ∃ p, w.conn.admissionPeers r = some p ∧ q.ds = p.ds ∧ (q.waits → p.waits ∧ p.ds ≠ ds)) :
    Linked w' where
  faults := fun f hm => h.faults f (hf ▸ hm)
  fate := fun d => by
    have hold : ∀ j, w.Holds j ds → False := by
      cases h.fate ds with
      | idle _ hn => exact hn
      | tied i hl _ => simp [hidle] at hl
      | cut i r hl _ => simp [hidle] at hl
    by_cases hd : d = ds
    · subst hd
      refine .tied i (by rw [hl, if_pos rfl]) fun j => ?_
      rw [hs]
      split
      · next hji => exact ⟨fun _ => hji, fun _ => rfl⟩
      · next hji => exact ⟨fun hh => (hold j hh).elim, fun he => absurd he hji⟩
    · refine (h.fate d).of_eq (by rw [hl, if_neg hd]) fun j => ?_
      rw [hs]
      split
      · next hji =>
        subst hji
        exact ⟨fun he => absurd he hd, fun hh => absurd hfree hh.1⟩
      · rfl
  named := fun j hj => by
    rw [hs] at hj
    split at hj
    · exact hds hj.symm
    · exact h.named j hj
  fresh := fun d hd => by
    rw [hl, if_neg (Nat.ne_of_gt (Nat.lt_of_lt_of_le hnew hd))]
    exact h.fresh d (Nat.le_trans hn hd)
  records := fun r q hq => by
    obtain ⟨p, hp, hpd, hw⟩ := hr r q hq
    obtain ⟨hlt, hwait⟩ := h.records r p hp
    refine ⟨hpd ▸ Nat.lt_of_lt_of_le hlt hn, fun hqw => ?_⟩
    rw [hl, hpd, if_neg (hw hqw).2]
    exact hwait (hw hqw).1
  distinct := fun r r' q q' hq hq' hwait hwait' he => by
    obtain ⟨p, hp, hpd, hw⟩ := hr r q hq
    obtain ⟨p', hp', hpd', hw'⟩ := hr r' q' hq'
    exact h.distinct r r' p p' hp hp' (hw hwait).1 (hw' hwait').1 (hpd ▸ hpd' ▸ he)

/-- An occupied slot is released, and its driver stream is detached. -/
theorem release {i : Nat} {e : Estream} (h : Linked w) (hk : (w.es i).kind ≠ .free)
    (he : e.kind = .free) : Linked ((admissionLetGo i (detachEs E i w)).putEs i e) := by
  have hds : (w.es i).ds ≠ 0 := fun hz => h.named i ⟨hk, hz⟩
  have hdetach : detachEs E i w = (w.op E (.detach (w.es i).ds i)).2 := by
    rw [detachEs, if_pos hds]
  rw [putEs_letGo, hdetach]
  refine letGo ?_ i
  have hlinks : ∀ d, (((w.op E (.detach (w.es i).ds i)).2.putEs i e).links d)
      = if d = (w.es i).ds then
          .op (.detach (w.es i).ds i) (E.drv w.trace (.detach (w.es i).ds i)) :: w.links d
        else w.links d := by
    intro d
    rw [World.links_append (w := w) (t := [_]) rfl]
    by_cases hd : d = (w.es i).ds
    · simp [Out.link, hd]
    · simp [Out.link, hd, Ne.symm hd]
  have hholds : ∀ j d, ((w.op E (.detach (w.es i).ds i)).2.putEs i e).Holds j d ↔
      j ≠ i ∧ w.Holds j d := by
    intro j d
    unfold World.Holds
    rw [World.es_putEs]
    split
    · next hji => simp [he, hji]
    · next hji => exact ⟨fun hh => ⟨hji, hh⟩, fun hh => hh.2⟩
  have htied : w.links (w.es i).ds = [.attach (w.es i).ds i] ∧
      ∀ j, w.Holds j (w.es i).ds ↔ j = i := by
    cases h.fate (w.es i).ds with
    | idle _ hn => exact absurd ⟨hk, rfl⟩ (hn i)
    | cut _ _ _ hn => exact absurd ⟨hk, rfl⟩ (hn i)
    | tied j hl hj =>
      obtain rfl := (hj i).mp ⟨hk, rfl⟩
      exact ⟨hl, hj⟩
  refine ⟨h.faults, fun d => ?_, fun j hj => h.named j ((hholds j 0).mp hj).2, fun d hd => ?_,
    fun r p hp => ?_, h.distinct⟩
  · by_cases hd : d = (w.es i).ds
    · refine .cut i _ (by rw [hlinks, if_pos hd, hd, htied.1]) fun j hj => ?_
      rw [hholds, hd, htied.2] at hj
      exact hj.1 hj.2
    · refine (h.fate d).of_eq (by rw [hlinks, if_neg hd]) fun j => ?_
      rw [hholds]
      refine and_iff_right_of_imp fun hh hji => hd ?_
      rw [← hh.2, hji]
  · have hlt : d ≠ (w.es i).ds := by
      rintro rfl
      have := h.fresh _ hd
      simp [htied.1] at this
    rw [hlinks, if_neg hlt]
    exact h.fresh d hd
  · obtain ⟨hlt, hidle⟩ := h.records r p hp
    refine ⟨hlt, fun hw => ?_⟩
    have hne : p.ds ≠ (w.es i).ds := fun he => by
      have := hidle hw
      simp [he, htied.1] at this
    rw [hlinks, if_neg hne]
    exact hidle hw

theorem wtReleaseIfDone (h : Linked w) (i : Nat) : Linked (wtReleaseIfDone E i w) := by
  unfold Engine.wtReleaseIfDone
  split
  · next hd =>
    have hk := Estream.kind_of_wtDone hd
    unfold estreamRelease
    simp only [hk, ne_eq, reduceCtorEq, not_false_eq_true, decide_true, World.audit_true]
    exact h.release (by simp [hk]) rfl
  · exact h

/-! ## Teardown -/

theorem teardown {fatal : Nat → World σ → World σ} (hf : FatalOk fatal) (is : List Nat)
    (hs : w.conn.sessState = .closed) (h : Linked w) : Linked (teardown E fatal is w) := by
  refine (teardown_induct hf (P := Linked) is hs h fun v i hv hl => ?_).1
  rw [teardownSlot_eq]
  split
  · exact hl
  · next hk =>
    have hwt : (v.es i).kind = .wt := by simpa using hk
    have hsd := teardownShutdown_settled (E := E) hf hv i
    obtain ⟨u, hu⟩ := hsd.slots i
    have hku : ((teardownShutdown E fatal i v).es i).kind ≠ .free := by simp [hu, hwt]
    exact ((hl.settled hsd).modEs hku hku rfl).wtReleaseIfDone i

end Linked

namespace Linked

/-- A callback on a closed connection. -/
theorem notify_closed (hE : E.Lawful) (h : Linked w) (c : Callback) (hc : w.conn.closed) :
    Linked (E.notify c w) :=
  ((h.log (o := .cb c) rfl).log (o := .ret) rfl).still (hE.quiet c w hc)

/-- The death of a connection. -/
theorem lost (hE : E.Lawful) {u : World σ} (h : Linked u) (hc : u.conn.closed) :
    Linked (sessionConnLost E u) := by
  have hclosed : ∀ is, Linked (Engine.teardown E (fun _ w => w) is (u.setSess .closed)) := fun is =>
    teardown fatalOk_skip is rfl (h.setSess _)
  unfold Engine.sessionConnLost
  split
  · rw [sessionClosedWith_eq]
    split
    · exact h
    · refine (hclosed _).notify_closed hE _ ((Frame.teardown (S := .call) fatalOk_skip _ rfl).closed hc)
  · rw [sessionClosedWith_eq]
    split
    · exact h
    · refine (hclosed _).notify_closed hE _ ((Frame.teardown (S := .call) fatalOk_skip _ rfl).closed hc)
  · exact (h.setSess _).notify_closed hE _ hc
  · exact (h.setSess _).notify_closed hE _ hc
  · exact (h.setSess _).notify_closed hE _ hc
  all_goals exact h

theorem connFatal (hE : E.Lawful) (h : Linked w) (err : Nat) : Linked (connFatal E err w) := by
  unfold Engine.connFatal
  split
  · exact h
  · have hdead : Linked (((connLatchError ⟨.quicApp, err, 0, 0⟩ w).updConn fun c =>
        { c with closed := true, closeCode := err }).op E (.connClose err)).2 :=
      ((h.settled (.connLatchError _ w)).settled (.die err _)).log rfl
    exact (hdead.lost hE rfl).notify_closed hE _ ((Frame.sessionConnLost (S := .call) hE _).closed rfl)

theorem onConnClosed (hE : E.Lawful) (h : Linked w) (err : Nat) (remote : Bool) :
    Linked (onConnClosed E err remote w) := by
  unfold Engine.onConnClosed
  split
  · exact h
  · have hdead : Linked ((connLatchError ⟨if remote then .quicApp else .local, err, 0, 0⟩ w).updConn
        fun c => { c with closed := true, closeCode := err }) :=
      (h.settled (.connLatchError _ w)).settled (.die err _)
    exact (hdead.lost hE rfl).notify_closed hE _ ((Frame.sessionConnLost (S := .call) hE _).closed rfl)

theorem enroll {r : Nat} {q : Admission} (h : Linked w)
    (hds : q.ds = w.nextDs) : Linked (w.newDetachedDs.2.setAdmission r (some q)) where
  faults := h.faults
  fate := fun ds => (h.fate ds).of_eq rfl fun _ => .rfl
  named := h.named
  fresh := fun ds hd => h.fresh ds (Nat.le_of_succ_le hd)
  records := fun r' p hp => by
    simp only [World.setAdmission, World.conn_updConn, Function.update_apply] at hp
    split at hp
    · cases hp
      exact ⟨hds ▸ Nat.lt_succ_self _, fun _ => h.fresh _ (Nat.le_of_eq hds.symm)⟩
    · exact ⟨Nat.lt_succ_of_lt (h.records r' p hp).1, (h.records r' p hp).2⟩
  distinct := fun r₁ r₂ p₁ p₂ hp₁ hp₂ hw₁ hw₂ he => by
    simp only [World.setAdmission, World.conn_updConn, Function.update_apply] at hp₁ hp₂
    -- the new record's stream is younger than all others
    split at hp₁ <;> split at hp₂
    · next h₁ h₂ => exact h₁.trans h₂.symm
    · cases hp₁
      have := (h.records r₂ p₂ hp₂).1
      omega
    · cases hp₂
      have := (h.records r₁ p₁ hp₁).1
      omega
    · exact h.distinct r₁ r₂ p₁ p₂ hp₁ hp₂ hw₁ hw₂ he

theorem born {i : Nat} {e : Estream} (h : Linked w) (hn : w.nextDs ≠ 0)
    (hfree : (w.es i).kind = .free) (he : e.kind ≠ .free) (hds : e.ds = w.nextDs) :
    Linked ((w.newDs i).2.claim i e) := by
  refine h.attach w.nextDs i hn (h.fresh _ (Nat.le_refl _)) hfree (fun d => ?_)
    (fun j d => ?_) (Nat.le_succ _) (Nat.lt_succ_self _) rfl
    fun r q hq => ⟨q, hq, rfl, fun hw => ⟨hw, Nat.ne_of_lt (h.records r q hq).1⟩⟩
  · rw [World.links_append (w := w) (t := [_]) rfl]
    by_cases hd : d = w.nextDs
    · simp [Out.link, hd, h.fresh _ (Nat.le_refl _)]
    · simp [Out.link, hd, Ne.symm hd]
  · unfold World.Holds
    rw [World.claim, World.es_putEs]
    split
    · simp [he, hds, eq_comm]
    · rfl

theorem entry {r i : Nat} {p : Admission} {e : Estream} (h : Linked w) (hn : p.ds ≠ 0)
    (hp : w.conn.admissionPeers r = some p) (hwait : p.waits) (hfree : (w.es i).kind = .free)
    (he : e.kind ≠ .free) (hds : e.ds = p.ds) :
    Linked (((w.claim i e).log (.attach p.ds i)).setAdmission r
      (some { p with es := some i, state := .attached })) := by
  have hidle := (h.records r p hp).2 hwait
  refine h.attach p.ds i hn hidle hfree (fun d => ?_) (fun j d => ?_)
    (Nat.le_refl _) (h.records r p hp).1 rfl fun r' q hq => ?_
  · rw [World.links_append (w := w) (t := [_]) rfl]
    by_cases hd : d = p.ds
    · simp [Out.link, hd, hidle]
    · simp [Out.link, hd, Ne.symm hd]
  · change ((w.claim i e).es j).kind ≠ .free ∧ ((w.claim i e).es j).ds = d ↔ _
    rw [World.claim, World.es_putEs]
    split
    · simp [he, hds, eq_comm]
    · rfl
  · simp only [World.setAdmission, World.conn_updConn, Function.update_apply] at hq
    split at hq
    · next hr =>
      cases hq
      exact ⟨p, hr ▸ hp, rfl, fun hw => by simp [Admission.waits] at hw⟩
    · next hr =>
      exact ⟨q, hq, rfl, fun hw => ⟨hw, fun heq => hr (h.distinct r' r q p hq hp hw hwait heq)⟩⟩

theorem establish {i : Nat} (h : Linked w) (hk : (w.es i).kind ≠ .free) (id : Nat) :
    Linked (establish i id w) := by
  have hsess := (h.updConn (f := fun c => { c with sessionEstablished := true }) rfl rfl).setSess
    .established
  have hid := hsess.updConn (f := fun c => { c with sessionId := id, sessionEs := some i }) rfl rfl
  have hmark := hid.modEs (f := fun e => { e with isSessionStream := true }) hk hk rfl
  unfold Engine.establish
  exact Linked.updConn hmark (by rfl) (by rfl)

theorem dialed {i : Nat} {e : Estream} {res : DrvRes} {u : World σ} (h : Linked w)
    (hn : w.nextDs ≠ 0) (hd : Dialed w i e res u) : Linked u := by
  have hc := hd.conn
  have he := hd.stream
  obtain ⟨sends, hsends, ht⟩ := hd.trace
  have hnone : ∀ o ∈ sends, o.link = none := fun o ho => by
    obtain ⟨ds, data, fin, r, rfl⟩ := hsends o ho
    rfl
  refine h.attach w.nextDs i hn (h.fresh _ (Nat.le_refl _)) hd.free (fun d => ?_)
    (fun j d => ?_) (by rw [hd.nextDs]; exact Nat.le_succ _) (by rw [hd.nextDs]; exact Nat.lt_succ_self _)
    hd.faults fun r q hq => ?_
  · have hsend : sends.filter (·.link == some d) = [] :=
      List.filter_eq_nil_iff.mpr fun o ho => by simp [hnone o ho]
    rw [World.links, ht, List.filter_append, hsend]
    by_cases hd : d = w.nextDs
    · have hfresh : w.trace.filter (·.link == some w.nextDs) = [] := h.fresh _ (Nat.le_refl _)
      rw [hd, List.filter_cons, List.filter_cons, hfresh]
      simp [Out.link]
    · simp [Out.link, hd, Ne.symm hd, World.links]
  · unfold World.Holds
    simp only [World.es, hc, Function.update_apply]
    split
    · simp [he, eq_comm]
    · rfl
  · have hq : w.conn.admissionPeers r = some q := by simpa [hc] using hq
    exact ⟨q, hq, rfl, fun hw => ⟨hw, Nat.ne_of_lt (h.records r q hq).1⟩⟩

end Linked

theorem KindStep.ne_free {k k' : EsKind} (h : KindStep k k') (hk : k ≠ .free) : k' ≠ .free := by
  cases h with
  | same => exact hk
  | classified _ hf _ => exact hf
  | refused => exact nofun

theorem Linked.beginDrain (h : Linked w) : Linked (beginDrain w) := by
  have hmark := h.updConn (f := fun c => { c with drainRx := true }) rfl rfl
  unfold Engine.beginDrain
  dsimp only
  split
  · exact hmark.setSess _
  · exact hmark

theorem Act.linked (hE : E.Sound) (hL : E.Keeps fun u v => Linked u → Linked v)
    (hw : Coherent D w) (h : Linked w) (ha : Act E N D w w') : Linked w' := by
  have hdraining : ∀ {u : World σ}, Coherent D u → Linked u → Linked (sessionDraining E u) :=
    hL.sessionDraining (fun _ => id) (fun h h' => h' ∘ h) fun _ _ _ _ hu => hu.beginDrain.log rfl
  cases ha with
  | fault f hf =>
    refine h.same (fun g hg => ?_) (fun _ => rfl) (fun _ _ => .rfl) (Nat.le_refl _)
      fun r q hq => ⟨q, hq, rfl, id⟩
    rcases List.mem_cons.mp hg with rfl | hg
    · exact .inr hf
    · exact .inl hg
  | hear i bs => exact h.of_trace (t := []) rfl (by simp) rfl rfl rfl rfl
  | op o ho =>
    refine h.log ?_
    cases o <;> simp_all [Out.link, DrvOp.isDetach]
  | detached =>
    exact h.same (fun f hf => .inl hf) (fun _ => rfl) (fun _ _ => .rfl) (Nat.le_succ _)
      fun r q hq => ⟨q, hq, rfl, id⟩
  | conn f hcore hpeer hrec hclosed hans hpark =>
    exact h.of_trace (t := []) rfl (by simp) hpeer hrec rfl rfl
  | aged => exact h.updConn rfl rfl
  | letGo i => exact h.letGo i
  | forget r => exact h.setAdmission fun q hq => nomatch hq
  | record r q hq =>
    refine h.setAdmission fun q' hq' => ?_
    cases hq'
    obtain ⟨p, hp, hds, -, hwait⟩ := hq.old
    exact ⟨p, hp, hds, hwait⟩
  | enroll r q hold hr hds hq hes hn => exact h.enroll hds
  | write i e he =>
    exact h.putEs ⟨fun _ => he.occupied, fun _ => he.kind.ne_free he.occupied⟩ fun _ => he.ds
  | spoil i e hold he => exact h.putEs ⟨fun hk => absurd he hk, fun hk => absurd hold hk⟩ (absurd hold)
  | born i e hold he hc hds hok hl hn => exact h.born hw.named hold he hds
  | opened i bidi e hold he hds hok hr hid hl hb =>
    refine Linked.born (w := (w.op E (World.openOp bidi i)).2) (h.log ?_) hw.named hold
      (by simp [he]) hds
    cases bidi <;> rfl
  | entry r i p e hp hwait hold he hc hds hid hl hok =>
    exact h.entry (hw.records r p hp).1 hp hwait hold he hds
  | release i e hold hcrit hpark he => exact h.release hold he
  | named i id hok hn hh => exact h.putEs Iff.rfl fun _ => rfl
  | goaway v hv hj =>
    exact hdraining (hw.of_goaway (some v)) (h.updConn rfl rfl)
  | givenUp i id go hs hk hgo hid =>
    have hdead : Linked (giveUp i id go w) :=
      (h.updConn (f := fun c => { c with goaway := go }) rfl rfl).putEs Iff.rfl fun _ => rfl
    exact hL D _ _ (hw.givenUp hs hk (known_of_given hid)) ((hdead.setSess _).log rfl)
  | pending hs hp => exact h.setSess _
  | dialed i e hs hp hd => exact (h.dialed hw.named hd).setSess _
  | undialed i err e hs hp hd => exact (h.dialed hw.named hd).connFatal hE.toLawful err
  | notify c hc hop => exact hL D c w hw (h.log rfl)
  | failed r hs hp hj =>
    exact hL D _ _ (hw.setSess_over hs hp rfl fun i => .inr (hj i)) ((h.setSess _).log rfl)
  | rejected status hs hj =>
    have he : w.conn.sessState.early := by simp [hs, SessState.early]
    exact hL D _ _ (hw.setSess_over he
      (hw.client_of_early he (by simp [hs])) rfl fun i => .inr (hj i)) ((h.setSess _).log rfl)
  | established i ev hs hk hpark hj hid hgo =>
    have hi : (w.es i).kind ≠ .free := by
      rcases hk with ⟨hk, -⟩ | hk <;> simp [hk]
    have hbegun : Coherent D (establish i (w.es i).id w) := hw.establish hs hk hpark hj
    have hlive := hL D (.sessionEstablished ev) _ hbegun ((h.establish hi _).log rfl)
    unfold drainUnderGoaway
    split
    · exact hdraining (hE.coherent _ _ _ hbegun) hlive
    · exact hlive
  | drained => exact hdraining hw h
  | ended code reason clean hs =>
    rw [sessionClosed, sessionClosedWith_eq, if_neg (by simpa [sessionActive] using hs)]
    have hu : Ending .closed w (w.setSess .closed) := ⟨rfl, _, _, _, rfl⟩
    obtain ⟨ht, hquiet⟩ := hw.torn_quiet (E := E) (fatalOk_connFatal hE.toLawful) hu
    exact hL D _ _ (hw.finish rfl hu ht hquiet (.inr (hw.judged_of_active hs))
      (.inr (hw.established_of_active hs)))
      (Linked.log (.teardown (fatalOk_connFatal hE.toLawful) _ rfl (h.setSess _)) rfl)
  | died err hc => exact h.connFatal hE.toLawful err
  | lost err remote hc => exact h.onConnClosed hE.toLawful err remote

theorem linked_rule :
    ActRule (σ := σ) (fun _ => True) fun w w' => Linked w → Linked w' where
  call := trivial
  refl := fun _ => id
  trans := fun h h' => h' ∘ h
  ret := fun _ h => h.log rfl
  ext := fun _ _ h => h.of_trace (t := []) rfl (by simp) rfl rfl rfl rfl
  act := fun _ hE hL _ _ _ hw ha h => ha.linked hE hL hw h

/-! ## Runs -/

theorem linked_init (cfg : ConnCfg) : Linked (init cfg).world := by
  have hpeer : ∀ i, ((init cfg).world.es i).kind = .free := by
    intro i
    unfold init create World.es
    split <;> rfl
  have hrec : ∀ r, (init cfg).world.conn.admissionPeers r = none := by
    intro r
    unfold init create
    split <;> rfl
  exact ⟨nofun, fun ds => .idle rfl fun i hi => hi.1 (hpeer i), fun i hi => hi.1 (hpeer i),
    fun _ _ => rfl, fun r p hp => by simp [hrec r] at hp, fun r _ p _ hp => by simp [hrec r] at hp⟩

/-- A run all of whose inputs are orderly. -/
def OrderlyRun (env : Env) (depth : Nat) : State → List Input → Prop
  | _, [] => True
  | s, inp :: rest =>
    inp.orderly (env.ctx depth) s.world ∧ OrderlyRun env depth (step env depth s inp) rest

theorem step_linked (env : Env) (depth : Nat) {s : State} {inp : Input}
    (ho : inp.orderly (env.ctx depth) s.world) (hw : Coherent .none s.world) (hl : Linked s.world) :
    Coherent .none (step env depth s inp).world ∧ Linked (step env depth s inp).world := by
  obtain ⟨hw', hkeep⟩ := linked_rule.step env depth trivial (fun hord => absurd ho hord) hw
  exact ⟨hw', hkeep hl⟩

theorem run_linked (env : Env) (depth : Nat) {s : State} {inputs : List Input}
    (ho : OrderlyRun env depth s inputs) (hw : Coherent .none s.world) (hl : Linked s.world) :
    Coherent .none (run env depth s inputs).world ∧ Linked (run env depth s inputs).world := by
  induction inputs generalizing s with
  | nil => exact ⟨hw, hl⟩
  | cons inp inputs ih =>
    obtain ⟨hw', hl'⟩ := step_linked env depth ho.1 hw hl
    exact ih ho.2 hw' hl'

/-- A driver that reports native ids at once, and an application. -/
def Env.prompt (app : List Out → Callback → List AppCall) : Env where
  drv _ o :=
    match o with
    | .openBidi _ => { id := 0 }
    | _ => {}
  app

/-- The request of the client. -/
def plainConnect : ClientConnectCfg := { authority := [97], path := [47] }

/-- The section that the request is sent as. -/
def plainSection : Bytes :=
  [0, 0, 207, 215, 80, 1, 97, 193, 39, 2, 58, 112, 114, 111, 116, 111, 99, 111, 108, 15, 119, 101,
    98, 116, 114, 97, 110, 115, 112, 111, 114, 116, 45, 104, 51]

theorem preflight_plain : preflight plainConnect = .ok plainSection := by decide +kernel

/-- The client waits for the SETTINGS with its request. -/
def Env.connecting (env : Env) : State :=
  let s := step env 1 (init { persp := .client }) .start
  { s with
    world := (s.world.updConn fun c => { c with
      wtProfile := plainConnect.profile
      wtProfiles := ProfileSet.bit plainConnect.profile
      offered := plainConnect.protocols
      requireProtocol := plainConnect.requireProtocol
      connectSection := plainSection
      clientResponseOk := false
      clientSelectedOffer := none }).setSess .pending }

/-- The section of the request is worked out once for all runs. -/
theorem Env.run_connecting (env : Env)
    (h : let c := (step env 1 (init { persp := .client }) .start).world.conn
      c.persp = .client ∧ (c.closed || c.sessState != .idle || c.goaway.isSome) = false ∧
        c.wtProfile = plainConnect.profile ∧ c.settingsReceived = false) (rest : List Input) :
    run env 1 (init { persp := .client }) (.start :: .call (.clientConnect plainConnect) :: rest)
      = run env 1 env.connecting rest := by
  change run env 1 (step env 1 _ (.call (.clientConnect plainConnect))) rest = _
  congr 1
  unfold Env.connecting
  generalize step env 1 (init { persp := .client }) .start = s at h ⊢
  obtain ⟨hp, hidle, hprofile, hset⟩ := h
  have hlen : ¬ plainConnect.protocols.length > maxOffered := by decide
  simp only [step, Input.allowed, Input.slot, Option.all_none, if_true, Input.apply, AppCall.run,
    AppCall.slot, handleOk, AppCall.apply, clientConnect, hlen, hp, hidle, hprofile, hset,
    preflight_plain, if_false, ne_eq, not_true_eq_false, and_false, Bool.false_eq_true,
    World.conn_setSess, World.conn_updConn, Bool.not_false]

/-- A client establishes its session. -/
def clientSession : List Input :=
  [.start, .call (.clientConnect plainConnect), .peerUniOpened 3,
    .streamBytes 0 [0, 4, 13, 1, 0, 7, 0, 8, 1, 51, 1, 172, 124, 240, 0, 1] false,
    .streamBytes 1 [1, 3, 0, 0, 217] false]

/-- Then the server opens a uni stream, whose connection half ends. -/
def clientTerminal : List Input :=
  clientSession ++ [.peerUniOpened 7, .streamBytes 2 [64, 84, 0] false, .streamTerminal 2]

/-- The application that closes the session when a stream is terminal. -/
def closeOnTerminal (_ : List Out) : Callback → List AppCall
  | .wtStreamTerminal _ => [.sessionClose 0 []]
  | _ => []

/-- A run is orderly if it reports streams terminal in its last input only, and that one is. -/
theorem OrderlyRun.last {env : Env} {depth : Nat} {s : State} {inputs : List Input} {inp : Input}
    (h : ∀ i, .streamTerminal i ∉ inputs)
    (hlast : inp.orderly (env.ctx depth) (run env depth s inputs).world) :
    OrderlyRun env depth s (inputs ++ [inp]) := by
  induction inputs generalizing s with
  | nil => exact ⟨hlast, trivial⟩
  | cons a inputs ih =>
    refine ⟨?_, ih (fun i hi => h i (List.mem_cons_of_mem _ hi)) hlast⟩
    cases a with
    | streamTerminal i => exact absurd List.mem_cons_self (h i)
    | _ => trivial

end Wtquic.Engine
