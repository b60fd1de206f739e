-- SUMMARY: Native stream ids: no two streams share one, none changes, and reports are checked.
import Wtquic.Engine.Links

namespace Wtquic.Engine

/-! # Native ids -/

variable {σ : Type} {E : Ctx σ} {N : News} {D : Doomed} {w w' w'' : World σ}

/-! ## Ids and their holders -/

/-- A native id that side `p` gives to a stream it opens. -/
structure LocalId (p : Perspective) (bidi : Bool) (id : Nat) : Prop where
  valid : id < 2 ^ 62
  opener : id % 2 = if p = .client then 0 else 1
  direction : (id / 2 % 2 == 1) = !bidi

/-- The direction of a stream that this side opened. -/
def Estream.openedBidi (e : Estream) : Option Bool :=
  if e.kind = .connect then some true else if e.wtLocal then some e.wtBidi else none

/-- The id that an open returned for a stream of the engine, and the direction. -/
def Out.issue : Out → Option (Bool × Nat)
  | .op (.openBidi _) r => if r.rc = .ok ∧ r.id ≠ streamIdUnknown then some (true, r.id) else none
  | .op (.openUni (some _)) r =>
    if r.rc = .ok ∧ r.id ≠ streamIdUnknown then some (false, r.id) else none
  | _ => none

/-- The ids that opens have returned. -/
def issued (t : List Out) : List Nat := t.filterMap fun o => o.issue.map Prod.snd

/-- Behind `base` the driver of side `p` returns valid ids, and none twice or that is in `R`. -/
def Issues (p : Perspective) (R : Nat → Prop) (base t : List Out) : Prop :=
  ∀ o u, o :: u <:+ t → base <:+ u → ∀ bidi id, o.issue = some (bidi, id) →
    LocalId p bidi id ∧ id ∉ issued u ∧ ¬ R id

theorem Issues.suffix {p : Perspective} {R : Nat → Prop} {base t u : List Out}
    (h : Issues p R base t) (hu : u <:+ t) : Issues p R base u :=
  fun o v hv => h o v (hv.trans hu)

theorem issued_suffix {t u : List Out} (h : u <:+ t) {id : Nat} (hid : id ∈ issued u) :
    id ∈ issued t :=
  (h.sublist.filterMap _).subset hid

/-- What may have a native id. -/
inductive Holder where
  | slot (i : Nat)
  | record (r : Nat)
  | session
  deriving DecidableEq, Repr

namespace World

/-- The id of a holder, if it is known. -/
def nativeId (w : World σ) : Holder → Option Nat
  | .slot i =>
    if (w.es i).kind ≠ .free ∧ (w.es i).id ≠ streamIdUnknown then some (w.es i).id else none
  | .record r => (w.conn.admissionPeers r).bind fun p => if p.waits then some p.id else none
  | .session => if w.conn.sessionEstablished then some w.conn.sessionId else none

/-- The session and its stream are two holders of one id. -/
def Shares (w : World σ) (h h' : Holder) : Prop :=
  h = h' ∨ ∃ i, (w.es i).isSessionStream ∧
    ((h = .session ∧ h' = .slot i) ∨ (h = .slot i ∧ h' = .session))

theorem Shares.symm {h h' : Holder} (hs : w.Shares h h') : w.Shares h' h := by
  rcases hs with rfl | ⟨i, hi, hs⟩
  · exact .inl rfl
  · exact .inr ⟨i, hi, hs.symm.imp And.symm And.symm⟩

theorem nativeId_slot {i id : Nat} :
    w.nativeId (.slot i) = some id ↔
      (w.es i).kind ≠ .free ∧ (w.es i).id ≠ streamIdUnknown ∧ (w.es i).id = id := by
  simp [nativeId, and_assoc]

theorem nativeId_record {r id : Nat} :
    w.nativeId (.record r) = some id ↔
      ∃ p, w.conn.admissionPeers r = some p ∧ p.waits ∧ p.id = id := by
  simp [nativeId, Option.bind_eq_some_iff]

theorem nativeId_session {id : Nat} :
    w.nativeId .session = some id ↔ w.conn.sessionEstablished ∧ w.conn.sessionId = id := by
  simp [nativeId]

end World

/-- What identifies the stream in a slot. -/
structure Tag where
  generation : Nat
  nativeId : Nat
  openedBidi : Option Bool
  session : Bool

def Estream.tag (e : Estream) : Tag where
  generation := e.generation
  nativeId := e.id
  openedBidi := e.openedBidi
  session := e.isSessionStream

/-- The ids of the holders outside `H` stay. -/
structure Leaves (H : Holder → Prop) (w w' : World σ) : Prop where
  trace : w.trace <:+ w'.trace
  persp : w'.conn.persp = w.conn.persp
  generation : w.conn.streamGeneration ≤ w'.conn.streamGeneration
  slots : ∀ i, ¬ H (.slot i) → (w'.es i).kind ≠ .free →
    (w.es i).kind ≠ .free ∧ (w'.es i).tag = (w.es i).tag
  records : ∀ r q, ¬ H (.record r) → w'.conn.admissionPeers r = some q → q.waits →
    ∃ p, w.conn.admissionPeers r = some p ∧ p.waits ∧ q.id = p.id
  established : ¬ H .session → w'.conn.sessionEstablished = w.conn.sessionEstablished
  session : ¬ H .session → w'.conn.sessionId = w.conn.sessionId

/-- All ids stay. -/
abbrev Retains : World σ → World σ → Prop := Leaves fun _ => False

/-- Ids are valid and unshared; `R` are the ids that have been reported. -/
structure Ids (p : Perspective) (R : Nat → Prop) (w : World σ) : Prop where
  persp : w.conn.persp = p
  age : ∀ i, (w.es i).kind ≠ .free → (w.es i).generation ≤ w.conn.streamGeneration
  apart : ∀ h h' id, w.nativeId h = some id → w.nativeId h' = some id → w.Shares h h'
  known : ∀ h id, w.nativeId h = some id → id < 2 ^ 62 ∧
    (id % 2 = (if p = .client then 0 else 1) → id ∈ issued w.trace ∨ R id)
  foreign : ∀ r id, w.nativeId (.record r) = some id → id % 2 = if p = .client then 1 else 0
  local_ : ∀ i bidi, (w.es i).kind ≠ .free → (w.es i).openedBidi = some bidi →
    (w.es i).id ≠ streamIdUnknown → LocalId p bidi (w.es i).id

/-- A stream keeps its id, and so does the session. -/
structure Stable (w w' : World σ) : Prop where
  generation : w.conn.streamGeneration ≤ w'.conn.streamGeneration
  slots : ∀ i, (w'.es i).kind ≠ .free → (w'.es i).generation ≤ w.conn.streamGeneration →
    (w.es i).kind ≠ .free ∧ (w'.es i).generation = (w.es i).generation ∧
      ((w.es i).id ≠ streamIdUnknown → (w'.es i).id = (w.es i).id)
  session : w.conn.sessionEstablished →
    w'.conn.sessionEstablished ∧ w'.conn.sessionId = w.conn.sessionId

namespace Stable

@[refl] theorem refl (w : World σ) : Stable w w :=
  ⟨Nat.le_refl _, fun _ hk _ => ⟨hk, rfl, fun _ => rfl⟩, fun h => ⟨h, rfl⟩⟩

theorem trans (h : Stable w w') (h' : Stable w' w'') : Stable w w'' where
  generation := Nat.le_trans h.generation h'.generation
  slots := fun i hk hg => by
    obtain ⟨hk', hg', hid'⟩ := h'.slots i hk (Nat.le_trans hg h.generation)
    obtain ⟨hk₀, hg₀, hid₀⟩ := h.slots i hk' (hg' ▸ hg)
    refine ⟨hk₀, hg'.trans hg₀, fun hu => ?_⟩
    have hid := hid₀ hu
    exact (hid' (hid ▸ hu)).trans hid
  session := fun he => by
    obtain ⟨he', hid'⟩ := h.session he
    obtain ⟨he'', hid''⟩ := h'.session he'
    exact ⟨he'', hid''.trans hid'⟩

end Stable

namespace Leaves

variable {H : Holder → Prop}

@[refl] theorem refl (w : World σ) : Leaves H w w :=
  ⟨List.suffix_refl _, rfl, Nat.le_refl _, fun _ _ hk => ⟨hk, rfl⟩,
    fun _ q _ hq hw => ⟨q, hq, hw, rfl⟩, fun _ => rfl, fun _ => rfl⟩

theorem trans (h : Leaves H w w') (h' : Leaves H w' w'') : Leaves H w w'' where
  trace := h.trace.trans h'.trace
  persp := h'.persp.trans h.persp
  generation := Nat.le_trans h.generation h'.generation
  slots := fun i hi hk => by
    obtain ⟨hk', ht'⟩ := h'.slots i hi hk
    obtain ⟨hk₀, ht₀⟩ := h.slots i hi hk'
    exact ⟨hk₀, ht'.trans ht₀⟩
  records := fun r q hr hq hw => by
    obtain ⟨p, hp, hw', hid'⟩ := h'.records r q hr hq hw
    obtain ⟨p₀, hp₀, hw₀, hid₀⟩ := h.records r p hr hp hw'
    exact ⟨p₀, hp₀, hw₀, hid'.trans hid₀⟩
  established := fun hs => (h'.established hs).trans (h.established hs)
  session := fun hs => (h'.session hs).trans (h.session hs)

/-- A holder that is left alone has no id it did not have. -/
theorem nativeId (h : Leaves H w w') {a : Holder} (ha : ¬ H a) {id : Nat}
    (hid : w'.nativeId a = some id) : w.nativeId a = some id := by
  cases a with
  | slot i =>
    rw [World.nativeId_slot] at hid ⊢
    obtain ⟨hk, ht⟩ := h.slots i ha hid.1
    have hnat : (w'.es i).id = (w.es i).id := congrArg Tag.nativeId ht
    exact ⟨hk, hnat ▸ hid.2.1, hnat ▸ hid.2.2⟩
  | record r =>
    rw [World.nativeId_record] at hid ⊢
    obtain ⟨q, hq, hw, rfl⟩ := hid
    obtain ⟨p, hp, hwait, hpid⟩ := h.records r q ha hq hw
    exact ⟨p, hp, hwait, hpid.symm⟩
  | session =>
    rw [World.nativeId_session] at hid ⊢
    exact ⟨h.established ha ▸ hid.1, h.session ha ▸ hid.2⟩

/-- Two holders that are left alone share an id as before. -/
theorem shares (h : Leaves H w w') {a b : Holder} (ha : ¬ H a) (hb : ¬ H b) {id : Nat}
    (hia : w'.nativeId a = some id) (hib : w'.nativeId b = some id) (hs : w.Shares a b) :
    w'.Shares a b := by
  refine hs.imp_right fun ⟨i, hi, hab⟩ => ⟨i, ?_, hab⟩
  have hslot : ¬ H (.slot i) ∧ w'.nativeId (.slot i) = some id := by
    rcases hab with ⟨-, rfl⟩ | ⟨rfl, -⟩
    · exact ⟨hb, hib⟩
    · exact ⟨ha, hia⟩
  obtain ⟨-, ht⟩ := h.slots i hslot.1 (World.nativeId_slot.mp hslot.2).1
  exact (congrArg Tag.session ht).trans hi

end Leaves

/-! ## New ids -/

/-- What holds of a holder that got an id. -/
structure Gained (p : Perspective) (R : Nat → Prop) (w : World σ) (h : Holder) (id : Nat) :
    Prop where
  unshared : ∀ h', h' ≠ h → w.nativeId h' ≠ some id
  valid : id < 2 ^ 62
  local_ : id % 2 = (if p = .client then 0 else 1) → id ∈ issued w.trace ∨ R id
  foreign : ∀ r, h = .record r → id % 2 = if p = .client then 1 else 0

namespace Ids

variable {p : Perspective} {R R' : Nat → Prop} {H : Holder → Prop}

theorem mono (h : Ids p R w) (hR : ∀ id, R id → R' id) : Ids p R' w :=
  { h with
    known := fun a id ha => ⟨(h.known a id ha).1, fun hp => ((h.known a id ha).2 hp).imp_right (hR id)⟩ }

/-- Some holders get new ids. -/
theorem gain (h : Ids p R w) (hs : Leaves H w w')
    (hnew : ∀ a id, H a → w'.nativeId a = some id → Gained p R w' a id)
    (hslot : ∀ i, H (.slot i) → (w'.es i).kind ≠ .free →
      (w'.es i).generation ≤ w'.conn.streamGeneration ∧
      ∀ bidi, (w'.es i).openedBidi = some bidi → (w'.es i).id ≠ streamIdUnknown →
        LocalId p bidi (w'.es i).id) : Ids p R w' where
  persp := hs.persp.trans h.persp
  age := fun i hk => by
    by_cases hi : H (.slot i)
    · exact (hslot i hi hk).1
    · obtain ⟨hk', ht⟩ := hs.slots i hi hk
      have hg : (w'.es i).generation = (w.es i).generation := congrArg Tag.generation ht
      rw [hg]
      exact Nat.le_trans (h.age i hk') hs.generation
  apart := fun a b id ha hb => by
    by_cases hab : a = b
    · exact .inl hab
    by_cases hHa : H a
    · exact absurd hb ((hnew a id hHa ha).unshared b (Ne.symm hab))
    by_cases hHb : H b
    · exact absurd ha ((hnew b id hHb hb).unshared a hab)
    exact hs.shares hHa hHb ha hb (h.apart a b id (hs.nativeId hHa ha) (hs.nativeId hHb hb))
  known := fun a id ha => by
    by_cases hHa : H a
    · exact ⟨(hnew a id hHa ha).valid, (hnew a id hHa ha).local_⟩
    · obtain ⟨hv, hp⟩ := h.known a id (hs.nativeId hHa ha)
      exact ⟨hv, fun ho => (hp ho).imp_left (issued_suffix hs.trace)⟩
  foreign := fun r id hr => by
    by_cases hHr : H (.record r)
    · exact (hnew _ id hHr hr).foreign r rfl
    · exact h.foreign r id (hs.nativeId hHr hr)
  local_ := fun i bidi hk hb hid => by
    by_cases hi : H (.slot i)
    · exact (hslot i hi hk).2 bidi hb hid
    · obtain ⟨hk', ht⟩ := hs.slots i hi hk
      have hnat : (w'.es i).id = (w.es i).id := congrArg Tag.nativeId ht
      rw [hnat]
      exact h.local_ i bidi hk' ((congrArg Tag.openedBidi ht).symm.trans hb) (hnat ▸ hid)

theorem retain (h : Ids p R w) (hs : Retains w w') : Ids p R w' :=
  h.gain hs (fun _ _ hf => hf.elim) fun _ hf => hf.elim

/-- A peer's id has no holder yet. -/
theorem unheld_peer {id : Nat} (hid : w.conn.PeerId id) (h : Holder) :
    w.nativeId h ≠ some id := by
  intro hh
  cases h with
  | slot i =>
    obtain ⟨hk, -, he⟩ := World.nativeId_slot.mp hh
    exact hid.slots i hk he
  | record r =>
    obtain ⟨q, hq, hw, he⟩ := World.nativeId_record.mp hh
    exact hid.records r q hq hw he
  | session =>
    obtain ⟨hs, he⟩ := World.nativeId_session.mp hh
    exact hid.session hs he

/-- An id that this side has not used has no holder yet. -/
theorem unheld_local (h : Ids p R w) {bidi : Bool} {id : Nat} (hid : LocalId p bidi id)
    (hu : id ∉ issued w.trace) (hR : ¬ R id) (a : Holder) : w.nativeId a ≠ some id := by
  intro ha
  rcases (h.known a id ha).2 hid.opener with hi | hi
  · exact hu hi
  · exact hR hi

end Ids

/-! ## Acts that leave the ids alone -/

theorem WriteOk.tag {i : Nat} {e : Estream} (h : WriteOk D w i e) : e.tag = (w.es i).tag := by
  have hconnect : e.kind = .connect ↔ (w.es i).kind = .connect := by
    have hk := h.kind
    generalize (w.es i).kind = k at hk ⊢
    generalize e.kind = k' at hk ⊢
    cases hk with
    | same => rfl
    | classified hc hf hn => rcases hc with rfl | rfl <;> simp [hn]
    | refused => simp
  have hopened : e.openedBidi = (w.es i).openedBidi := by
    simp only [Estream.openedBidi, hconnect, h.opener]
    split
    · rfl
    · split
      · next hl => rw [h.bidi hl]
      · rfl
  simp only [Estream.tag, h.generation, h.id, hopened, h.session]

theorem Torn.tag {e e' : Estream} (h : Torn e e') (hk : e'.kind ≠ .free) : e'.tag = e.tag := by
  simp only [Estream.tag, Estream.openedBidi, h.kind_eq hk, h.generation, h.nativeId, h.opener,
    h.bidi, h.isSessionStream]

namespace Leaves

variable {H : Holder → Prop}

/-- A step that keeps the slots and the records. -/
theorem of_eq (ht : w.trace <:+ w'.trace) (hp : w'.conn.peer = w.conn.peer)
    (hr : w'.conn.admissionPeers = w.conn.admissionPeers) (hc : w'.conn.core = w.conn.core) :
    Leaves H w w' where
  trace := ht
  persp := (congrArg Core.persp hc :)
  generation := Nat.le_of_eq (congrArg Core.streamGeneration hc.symm :)
  slots := fun i _ hk => by
    have he : w'.es i = w.es i := by rw [World.es, hp]; rfl
    rw [he] at hk ⊢
    exact ⟨hk, rfl⟩
  records := fun r q _ hq hw => ⟨q, hr ▸ hq, hw, rfl⟩
  established := fun _ => (congrArg Core.sessionEstablished hc :)
  session := fun _ => (congrArg Core.sessionId hc :)

theorem log (o : Out) (w : World σ) : Leaves H w (w.log o) :=
  of_eq (List.suffix_cons _ _) rfl rfl rfl

theorem op (o : DrvOp) (w : World σ) : Leaves H w (w.op E o).2 := log _ w

theorem setSess (s : SessState) (w : World σ) : Leaves H w (w.setSess s) :=
  ⟨List.suffix_cons _ _, rfl, Nat.le_refl _, fun _ _ hk => ⟨hk, rfl⟩,
    fun _ q _ hq hw => ⟨q, hq, hw, rfl⟩, fun _ => rfl, fun _ => rfl⟩

/-- Another content of a slot. -/
theorem putEs {i : Nat} {e : Estream}
    (h : ¬ H (.slot i) → e.kind ≠ .free → (w.es i).kind ≠ .free ∧ e.tag = (w.es i).tag) :
    Leaves H w (w.putEs i e) where
  trace := List.suffix_refl _
  persp := rfl
  generation := Nat.le_refl _
  slots := fun j hj hk => by
    rw [World.es_putEs] at hk ⊢
    split
    · next hji =>
      subst hji
      exact h hj (by simpa using hk)
    · next hji => exact ⟨by simpa [hji] using hk, rfl⟩
  records := fun r q _ hq hw => ⟨q, hq, hw, rfl⟩
  established := fun _ => rfl
  session := fun _ => rfl

theorem setAdmission {r : Nat} {q : Option Admission}
    (h : ¬ H (.record r) → ∀ q', q = some q' → q'.waits →
      ∃ p, w.conn.admissionPeers r = some p ∧ p.waits ∧ q'.id = p.id) :
    Leaves H w (w.setAdmission r q) where
  trace := List.suffix_refl _
  persp := rfl
  generation := Nat.le_refl _
  slots := fun i _ hk => ⟨hk, rfl⟩
  records := fun r' q' hr hq hw => by
    simp only [World.setAdmission, World.conn_updConn, Function.update_apply] at hq
    split at hq
    · next he =>
      subst he
      exact h hr q' hq hw
    · exact ⟨q', hq, hw, rfl⟩
  established := fun _ => rfl
  session := fun _ => rfl

theorem letGo (i : Nat) (w : World σ) : Leaves H w (admissionLetGo i w) where
  trace := by simp
  persp := by simp [conn_admissionLetGo]
  generation := by simp [conn_admissionLetGo]
  slots := fun j _ hk => by
    rw [es_admissionLetGo] at hk ⊢
    exact ⟨hk, rfl⟩
  records := fun r q _ hq hw => by
    simp only [conn_admissionLetGo, Conn.letGo] at hq
    split at hq
    · obtain ⟨p, hp, rfl⟩ := Option.map_eq_some_iff.mp hq
      exact ⟨p, hp, (p.later_letGo i).waits hw, (p.later_letGo i).nativeId⟩
    · exact ⟨q, hq, hw, rfl⟩
  established := fun _ => by simp [conn_admissionLetGo]
  session := fun _ => by simp [conn_admissionLetGo]

theorem of_torn {v : World σ} (ht : w.trace <:+ v.trace) (h : TornDown w v) : Leaves H w v where
  trace := ht
  persp := (congrArg Core.persp h.core :)
  generation := Nat.le_of_eq (congrArg Core.streamGeneration h.core.symm :)
  slots := fun i _ hk => by
    have hke := (h.slot i).kind_eq hk
    exact ⟨hke ▸ hk, (h.slot i).tag hk⟩
  records := fun r q _ hq hw => by
    obtain ⟨p, hp, hl⟩ := h.records r q hq
    exact ⟨p, hp, hl.waits hw, hl.nativeId⟩
  established := fun _ => (congrArg Core.sessionEstablished h.core :)
  session := fun _ => (congrArg Core.sessionId h.core :)

theorem settled (h : Settled w w') : Leaves H w w' := of_torn h.frame.trace (.of_settled h)

theorem still (h : Still w w') : Leaves H w w' := by
  obtain ⟨te, user, hc⟩ := h.conn
  refine ⟨h.trace ▸ List.suffix_refl _, by rw [hc], Nat.le_of_eq (by rw [hc]), fun i _ hk => ?_,
    fun r q _ hq hw => ⟨q, by simpa [hc] using hq, hw, rfl⟩, fun _ => by rw [hc],
    fun _ => by rw [hc]⟩
  obtain ⟨u, hu⟩ := h.es i
  rw [hu] at hk ⊢
  exact ⟨hk, rfl⟩

/-- A callback on a closed connection. -/
theorem notify_closed (hE : E.Lawful) (c : Callback) (hc : w.conn.closed) :
    Leaves H w (E.notify c w) :=
  ((log (.cb c) w).trans (log .ret _)).trans (still (hE.quiet c w hc))

theorem teardown {fatal : Nat → World σ → World σ} (hf : FatalOk fatal) (is : List Nat)
    (w : World σ) : Leaves H (w.setSess .closed) (teardown E fatal is (w.setSess .closed)) :=
  of_torn (Frame.teardown (S := .call) hf is rfl).trace
    (TornDown.loop hf is rfl).1

theorem lost (hE : E.Lawful) (hc : w.conn.closed) : Leaves H w (sessionConnLost E w) := by
  have hclosed : Leaves H w (sessionClosedWith E (fun _ w => w) 0 [] false w) := by
    rw [sessionClosedWith_eq]
    split
    · rfl
    · exact (setSess _ w).trans ((teardown fatalOk_skip _ w).trans (notify_closed hE _
        ((Frame.teardown (S := .call) fatalOk_skip _ rfl).closed hc)))
  have hfailed : Leaves H w (sessionFailed E .connection w) :=
    (setSess _ w).trans (notify_closed hE _ hc)
  unfold sessionConnLost
  split <;> first | exact hclosed | exact hfailed | rfl

theorem connFatal (hE : E.Lawful) (err : Nat) (w : World σ) : Leaves H w (connFatal E err w) := by
  unfold Engine.connFatal
  split
  · rfl
  · have hdie := settled (H := H) ((Settled.connLatchError ⟨.quicApp, err, 0, 0⟩ w).trans
      (.die err _))
    have hdead := hdie.trans (op (E := E) (.connClose err) _)
    exact hdead.trans ((lost hE rfl).trans
      (notify_closed hE _ ((Frame.sessionConnLost (S := .call) hE _).closed rfl)))

theorem onConnClosed (hE : E.Lawful) (err : Nat) (remote : Bool) (w : World σ) :
    Leaves H w (onConnClosed E err remote w) := by
  unfold Engine.onConnClosed
  split
  · rfl
  · have hdead := settled (H := H) ((Settled.connLatchError
      ⟨if remote then .quicApp else .local, err, 0, 0⟩ w).trans (.die err _))
    exact hdead.trans ((lost hE rfl).trans
      (notify_closed hE _ ((Frame.sessionConnLost (S := .call) hE _).closed rfl)))

/-- A slot is emptied. -/
theorem release {i : Nat} {e : Estream} (he : e.kind = .free) (w : World σ) :
    Leaves H w ((admissionLetGo i (detachEs E i w)).putEs i e) := by
  have hdetach : Leaves H w (detachEs E i w) := by
    unfold detachEs
    split
    · exact op _ w
    · rfl
  exact (hdetach.trans (letGo i _)).trans (putEs fun _ hk => absurd he hk)

/-- A slot that gets the next generation. -/
theorem claim {i : Nat} {e : Estream} (hi : H (.slot i)) (w : World σ) :
    Leaves H w (w.claim i e) where
  trace := List.suffix_refl _
  persp := rfl
  generation := Nat.le_succ _
  slots := fun j hj hk => by
    have hji : j ≠ i := fun he => hj (he ▸ hi)
    rw [World.claim, World.es_putEs_of_ne hji] at hk ⊢
    exact ⟨hk, rfl⟩
  records := fun r q _ hq hw => ⟨q, hq, hw, rfl⟩
  established := fun _ => rfl
  session := fun _ => rfl

theorem newDs (i : Nat) (w : World σ) : Leaves H w (w.newDs i).2 :=
  of_eq (List.suffix_cons _ _) rfl rfl rfl

theorem dialed {i : Nat} {e : Estream} {res : DrvRes} {u : World σ} (hi : H (.slot i))
    (hd : Dialed w i e res u) : Leaves H w u := by
  obtain ⟨sends, -, ht⟩ := hd.trace
  have hc := hd.conn
  refine ⟨?_, by rw [hc], by rw [hc]; exact Nat.le_succ _, fun j hj hk => ?_,
    fun r q _ hq hw => ⟨q, by simpa [hc] using hq, hw, rfl⟩, fun _ => by rw [hc],
    fun _ => by rw [hc]⟩
  · rw [ht]
    exact ((List.suffix_cons _ _).trans (List.suffix_cons _ _)).trans (List.suffix_append _ _)
  · have hji : j ≠ i := fun he => hj (he ▸ hi)
    have he : u.es j = w.es j := by
      simp only [World.es, hc]
      exact Function.update_of_ne hji _ _
    rw [he] at hk ⊢
    exact ⟨hk, rfl⟩

/-- The streams outside `H` keep their ids; a slot in `H` keeps its stream and its id, or got a
new stream. -/
theorem stable (h : Leaves H w w') (hsess : ¬ H .session)
    (hslot : ∀ i, H (.slot i) → (w'.es i).kind ≠ .free →
      w.conn.streamGeneration < (w'.es i).generation ∨
      ((w.es i).kind ≠ .free ∧ (w'.es i).generation = (w.es i).generation ∧
        ((w.es i).id ≠ streamIdUnknown → (w'.es i).id = (w.es i).id))) : Stable w w' where
  generation := h.generation
  slots := fun i hk hg => by
    by_cases hi : H (.slot i)
    · exact (hslot i hi hk).resolve_left (Nat.not_lt.mpr hg)
    · obtain ⟨hk', ht⟩ := h.slots i hi hk
      exact ⟨hk', (congrArg Tag.generation ht :), fun _ => (congrArg Tag.nativeId ht :)⟩
  session := fun he => ⟨(h.established hsess).trans he, h.session hsess⟩

end Leaves

/-! ## Acts -/

/-- Valid ids stay valid, and streams keep theirs, if the driver returns valid ids. -/
def Kept (p : Perspective) (R : Nat → Prop) (base : List Out) (w w' : World σ) : Prop :=
  w.trace <:+ w'.trace ∧ (Ids p R w → base <:+ w.trace → Issues p R base w'.trace →
    Ids p R w' ∧ Stable w w')

section Kept

variable {p : Perspective} {R : Nat → Prop} {base : List Out}

@[refl] theorem Kept.refl (w : World σ) : Kept p R base w w :=
  ⟨List.suffix_refl _, fun h _ _ => ⟨h, .refl w⟩⟩

theorem Kept.trans (h : Kept p R base w w') (h' : Kept p R base w' w'') :
    Kept p R base w w'' := by
  refine ⟨h.1.trans h'.1, fun hi hb hs => ?_⟩
  obtain ⟨hi', hst⟩ := h.2 hi hb (hs.suffix h'.1)
  obtain ⟨hi'', hst'⟩ := h'.2 hi' (hb.trans h.1) hs
  exact ⟨hi'', hst.trans hst'⟩

theorem Leaves.kept (h : Retains w w') : Kept p R base w w' :=
  ⟨h.trace, fun hi _ _ => ⟨hi.retain h, h.stable id fun _ hf => hf.elim⟩⟩

/-- A free slot gets a stream that the peer opened. -/
theorem Kept.born {i : Nat} {w' : World σ} (hs : Leaves (· = .slot i) w w')
    (hg : (w'.es i).generation = w.conn.streamGeneration + 1 ∧
      (w'.es i).generation ≤ w'.conn.streamGeneration)
    (hl : (w'.es i).openedBidi = none) (hn : w.conn.PeerId (w'.es i).id) :
    Kept p R base w w' := by
  refine ⟨hs.trace, fun hi _ _ => ⟨hi.gain hs ?_ ?_, hs.stable (by simp) ?_⟩⟩
  · rintro _ id rfl hid
    obtain ⟨-, -, rfl⟩ := World.nativeId_slot.mp hid
    refine ⟨fun b hb hid' => Ids.unheld_peer hn b (hs.nativeId hb hid'), hn.valid, fun ho => ?_,
      fun r hr => nomatch hr⟩
    have := hn.side
    rw [hi.persp] at this
    revert ho this
    cases p <;> simp <;> omega
  · rintro j hj -
    cases hj
    exact ⟨hg.2, fun bidi hb => by simp [hl] at hb⟩
  · rintro j hj -
    cases hj
    exact .inl (by omega)

/-- A free slot gets a stream that this side opened. -/
theorem Kept.opened {i : Nat} {o : Out} {w' : World σ} (bidi : Bool)
    (hs : Leaves (· = .slot i) w w')
    (hg : (w'.es i).generation = w.conn.streamGeneration + 1 ∧
      (w'.es i).generation ≤ w'.conn.streamGeneration)
    (hl : (w'.es i).openedBidi = some bidi)
    (ho : (w'.es i).id ≠ streamIdUnknown → o.issue = some (bidi, (w'.es i).id))
    (ht : o :: w.trace <:+ w'.trace) : Kept p R base w w' := by
  refine ⟨hs.trace, fun hi hb hiss => ?_⟩
  have hid : (w'.es i).id ≠ streamIdUnknown → LocalId p bidi (w'.es i).id ∧
      (∀ a, w.nativeId a ≠ some (w'.es i).id) ∧ (w'.es i).id ∈ issued w'.trace := by
    intro hk
    obtain ⟨hloc, hu, hR⟩ := hiss o w.trace ht hb bidi _ (ho hk)
    refine ⟨hloc, hi.unheld_local hloc hu hR, issued_suffix ht ?_⟩
    simp [issued, ho hk]
  refine ⟨hi.gain hs ?_ ?_, hs.stable (by simp) ?_⟩
  · rintro _ id rfl hid'
    obtain ⟨-, hk, rfl⟩ := World.nativeId_slot.mp hid'
    obtain ⟨hloc, hun, hin⟩ := hid hk
    exact ⟨fun b hb hb' => hun b (hs.nativeId hb hb'), hloc.valid, fun _ => .inl hin,
      fun r hr => nomatch hr⟩
  · rintro j hj -
    cases hj
    refine ⟨hg.2, fun bidi' hb' hk => ?_⟩
    rw [hl] at hb'
    cases hb'
    exact (hid hk).1
  · rintro j hj -
    cases hj
    exact .inl (by omega)

/-- A stream learns the id it owes. -/
theorem Kept.named {i id : Nat} {w' : World σ} (hw : Coherent D w) (hn : Named w i id)
    (hR : R id) (hs : Leaves (· = .slot i) w w')
    (he : (w'.es i).tag = { (w.es i).tag with nativeId := id }) : Kept p R base w w' := by
  have hk : (w.es i).kind ≠ .free := by
    rcases hn.kind with hk | ⟨hk, -⟩ <;> simp [hk]
  have hid : (w'.es i).id = id := congrArg Tag.nativeId he
  have hgen : (w'.es i).generation = (w.es i).generation := congrArg Tag.generation he
  have hopen : (w'.es i).openedBidi = (w.es i).openedBidi := congrArg Tag.openedBidi he
  refine ⟨hs.trace, fun hi _ _ => ⟨hi.gain hs ?_ ?_, hs.stable (by simp) ?_⟩⟩
  · rintro _ id' rfl hid'
    obtain ⟨-, -, rfl⟩ := World.nativeId_slot.mp hid'
    rw [hid]
    refine ⟨fun b hb hb' => ?_, hn.valid, fun _ => .inr hR, fun r hr => nomatch hr⟩
    have hold := hs.nativeId hb hb'
    cases b with
    | slot k =>
      obtain ⟨hkk, -, he⟩ := World.nativeId_slot.mp hold
      exact hn.unused k (fun hki => hb (hki ▸ rfl)) hkk (hw.slots k hkk).bound he
    | record r =>
      -- a record's id is the peer's
      have hf := hi.foreign r id hold
      have ho := hn.opener
      rw [hi.persp] at ho
      cases p <;> simp [hf] at ho
    | session =>
      obtain ⟨hest, he⟩ := World.nativeId_session.mp hold
      exact hn.session hest he.symm
  · rintro j hj -
    cases hj
    refine ⟨hgen ▸ Nat.le_trans (hi.age i hk) hs.generation, fun bidi hb _ => ?_⟩
    rw [hid]
    refine ⟨hn.valid, hi.persp ▸ hn.opener, hn.direction.trans (congrArg not ?_)⟩
    rw [hopen] at hb
    unfold Estream.openedBidi at hb
    rcases hn.kind with hc | ⟨hc, hl⟩
    · simp [hc] at hb
      simp [hc, hb]
    · simp [hc, hl] at hb
      simp [hc, hb]
  · rintro j hj -
    cases hj
    refine .inr ⟨hk, hgen, fun hu => ?_⟩
    have ho := (hw.slots i hk).owes (hn.kind.imp_right And.right)
    simp [hn.owed, hu] at ho

/-- A waiting record's stream gets a slot. -/
theorem Kept.entry {r i : Nat} {q : Admission} {w' : World σ}
    (hq : w.conn.admissionPeers r = some q) (hw : q.waits)
    (hs : Leaves (fun a => a = .slot i ∨ a = .record r) w w')
    (hg : (w'.es i).generation = w.conn.streamGeneration + 1 ∧
      (w'.es i).generation ≤ w'.conn.streamGeneration)
    (hl : (w'.es i).openedBidi = none) (hid : (w'.es i).id = q.id)
    (hr : w'.nativeId (.record r) = none) : Kept p R base w w' := by
  have hold : w.nativeId (.record r) = some q.id := World.nativeId_record.mpr ⟨q, hq, hw, rfl⟩
  refine ⟨hs.trace, fun hi _ _ => ⟨hi.gain hs ?_ ?_, hs.stable (by simp) ?_⟩⟩
  · rintro _ id (rfl | rfl) hid'
    · obtain ⟨-, -, rfl⟩ := World.nativeId_slot.mp hid'
      rw [hid]
      refine ⟨fun b hb hb' => ?_, (hi.known _ _ hold).1, fun ho => ?_, fun r hr => nomatch hr⟩
      · by_cases hbr : b = .record r
        · simp [hbr, hr] at hb'
        · have hb₀ := hs.nativeId (by simp [hb, hbr]) hb'
          rcases hi.apart _ _ _ hb₀ hold with he | ⟨j, -, ⟨-, he⟩ | ⟨-, he⟩⟩
          · exact hbr he
          · cases he
          · cases he
      · have := hi.foreign r _ hold
        revert ho this
        cases p <;> simp <;> omega
    · simp [hr] at hid'
  · rintro j hj -
    simp only [Holder.slot.injEq, reduceCtorEq, or_false] at hj
    subst hj
    exact ⟨hg.2, fun bidi hb => by simp [hl] at hb⟩
  · rintro j hj -
    simp only [Holder.slot.injEq, reduceCtorEq, or_false] at hj
    subst hj
    exact .inl (by omega)

/-- The session takes the id of its stream. -/
theorem Kept.establish {i : Nat} (hw : Coherent D w) (he : w.conn.sessState.early)
    (hk : (w.es i).kind ≠ .free) (hu : (w.es i).id ≠ streamIdUnknown) :
    Kept p R base w (establish i (w.es i).id w) := by
  have hnone : w.conn.sessionEstablished = false := hw.early he
  have hes : ∀ j, (Engine.establish i (w.es i).id w).es j
      = if j = i then { w.es j with isSessionStream := true } else w.es j := by
    intro j
    simp only [World.es, conn_establish, Function.update_apply]
    split
    · next hji => rw [hji]
    · rfl
  have hfields : ∀ j, ((Engine.establish i (w.es i).id w).es j).kind = (w.es j).kind ∧
      ((Engine.establish i (w.es i).id w).es j).id = (w.es j).id ∧
      ((Engine.establish i (w.es i).id w).es j).generation = (w.es j).generation ∧
      ((Engine.establish i (w.es i).id w).es j).openedBidi = (w.es j).openedBidi := by
    intro j
    rw [hes]
    split <;> exact ⟨rfl, rfl, rfl, rfl⟩
  have hsession : (Engine.establish i (w.es i).id w).nativeId .session = some (w.es i).id := by
    simp [World.nativeId, conn_establish]
  have hother : ∀ a, a ≠ .session →
      (Engine.establish i (w.es i).id w).nativeId a = w.nativeId a := by
    intro a ha
    cases a with
    | slot j => simp only [World.nativeId, (hfields j).1, (hfields j).2.1]
    | record r => simp only [World.nativeId, conn_establish]
    | session => exact absurd rfl ha
  have hslot : w.nativeId (.slot i) = some (w.es i).id :=
    World.nativeId_slot.mpr ⟨hk, hu, rfl⟩
  have htrace : w.trace <:+ (Engine.establish i (w.es i).id w).trace := by
    rw [trace_establish]
    exact List.suffix_cons _ _
  generalize hv : Engine.establish i (w.es i).id w = v at hes hfields hsession hother htrace
  have hgen : v.conn.streamGeneration = w.conn.streamGeneration := by rw [← hv, conn_establish]
  refine ⟨htrace, fun hi _ _ => ⟨⟨?_, fun j hkj => ?_, ?_, fun a id ha => ?_, fun r id hr => ?_,
    fun j bidi hkj hb hid => ?_⟩, ⟨Nat.le_of_eq hgen.symm, fun j hkj _ => ?_, by simp [hnone]⟩⟩⟩
  · rw [← hv, conn_establish]
    exact hi.persp
  · rw [(hfields j).2.2.1, hgen]
    exact hi.age j ((hfields j).1 ▸ hkj)
  · -- before, the session had no id, so an id had one holder
    have hone : ∀ a b id, a ≠ .session → b ≠ .session → w.nativeId a = some id →
        w.nativeId b = some id → a = b := by
      intro a b id ha hb hia hib
      rcases hi.apart a b id hia hib with hab | ⟨j, -, ⟨rfl, -⟩ | ⟨-, rfl⟩⟩
      · exact hab
      · exact absurd rfl ha
      · exact absurd rfl hb
    have hstream : ∀ b, b ≠ .session → v.nativeId b = some (w.es i).id → v.Shares .session b := by
      intro b hb hib
      rw [hother b hb] at hib
      refine .inr ⟨i, ?_, .inl ⟨rfl, hone b _ _ hb (by simp) hib hslot⟩⟩
      rw [hes, if_pos rfl]
    intro a b id hia hib
    by_cases ha : a = .session
    · subst ha
      obtain rfl : (w.es i).id = id := by simpa [hsession] using hia
      by_cases hb : b = .session
      · exact .inl hb.symm
      · exact hstream b hb hib
    by_cases hb : b = .session
    · subst hb
      obtain rfl : (w.es i).id = id := by simpa [hsession] using hib
      exact (hstream a ha hia).symm
    · rw [hother a ha] at hia
      rw [hother b hb] at hib
      exact .inl (hone a b id ha hb hia hib)
  · have hold : ∃ b, w.nativeId b = some id := by
      by_cases has : a = .session
      · subst has
        rw [hsession] at ha
        exact ⟨_, hslot.trans ha⟩
      · exact ⟨a, hother a has ▸ ha⟩
    obtain ⟨b, hb⟩ := hold
    exact ⟨(hi.known b id hb).1, fun ho =>
      ((hi.known b id hb).2 ho).imp_left (issued_suffix htrace)⟩
  · exact hi.foreign r id (hother (.record r) (by simp) ▸ hr)
  · obtain ⟨hkj', hid', -, hb'⟩ := hfields j
    rw [hid']
    exact hi.local_ j bidi (hkj' ▸ hkj) (hb' ▸ hb) (hid' ▸ hid)
  · obtain ⟨hkj', hid', hg', -⟩ := hfields j
    exact ⟨hkj' ▸ hkj, hg', fun _ => hid'⟩

/-- The CONNECT gets the id its open returned. -/
theorem Kept.dialed {i : Nat} {e : Estream} {u : World σ}
    (hd : Dialed w i e (E.drv w.trace (.openBidi i)) u) : Kept p R base w u := by
  have he : u.es i = e := by simp [World.es, hd.conn]
  obtain ⟨sends, -, ht⟩ := hd.trace
  refine .opened (i := i) (o := .op (.openBidi i) (E.drv w.trace (.openBidi i))) true
    (.dialed (by rfl) hd) ?_ ?_ ?_ ?_
  · simp [he, hd.stream, hd.conn]
  · simp [he, hd.stream, Estream.openedBidi]
  · intro hk
    rw [he, hd.stream] at hk ⊢
    simpa [Out.issue, hd.opened] using hk
  · rw [ht]
    exact (List.suffix_cons _ _).trans (List.suffix_append _ _)

theorem Leaves.beginDrain {H : Holder → Prop} (w : World σ) : Leaves H w (beginDrain w) := by
  have hmark : Leaves H w (w.updConn fun c => { c with drainRx := true }) :=
    ⟨List.suffix_refl _, rfl, Nat.le_refl _, fun _ _ hk => ⟨hk, rfl⟩,
      fun _ q _ hq hw => ⟨q, hq, hw, rfl⟩, fun _ => rfl, fun _ => rfl⟩
  unfold Engine.beginDrain
  dsimp only
  split
  · exact hmark.trans (setSess _ _)
  · exact hmark

theorem Act.kept (hE : E.Sound) (hI : E.Keeps (Kept p R base)) (hf : N.fresh)
    (hR : ∀ id, N.named id → R id) (hw : Coherent D w) (ha : Act E N D w w') :
    Kept p R base w w' := by
  have hnotify : ∀ {u v : World σ} (c : Callback), Kept p R base u v → Coherent D v →
      Kept p R base u (E.notify c v) := fun {u v} c hk hv =>
    (hk.trans (Leaves.kept (.log _ v))).trans (hI D c v hv)
  have hdraining : ∀ {u : World σ}, Coherent D u → Kept p R base u (sessionDraining E u) :=
    hI.sessionDraining .refl .trans fun u _ _ _ =>
      Leaves.kept ((Leaves.beginDrain u).trans (.log _ _))
  cases ha with
  | fault f hf => exact Leaves.kept (.of_eq (List.suffix_refl _) rfl rfl rfl)
  | hear i bs => exact Leaves.kept (.of_eq (List.suffix_refl _) rfl rfl rfl)
  | op o ho => exact Leaves.kept (.op o w)
  | detached => exact Leaves.kept (.of_eq (List.suffix_refl _) rfl rfl rfl)
  | conn f hcore hpeer hrec hclosed hans hpark =>
    exact Leaves.kept (.of_eq (List.suffix_refl _) hpeer hrec hcore)
  | aged =>
    exact Leaves.kept ⟨List.suffix_refl _, rfl, Nat.le_succ _, fun _ _ hk => ⟨hk, rfl⟩,
      fun _ q _ hq hw => ⟨q, hq, hw, rfl⟩, fun _ => rfl, fun _ => rfl⟩
  | letGo i => exact Leaves.kept (.letGo i w)
  | forget r => exact Leaves.kept (.setAdmission fun _ _ hq => nomatch hq)
  | record r q hq =>
    refine Leaves.kept (.setAdmission fun _ q' hq' hwait => ?_)
    cases hq'
    obtain ⟨p, hp, -, hid, hw⟩ := hq.old
    exact ⟨p, hp, hw hwait, hid⟩
  | enroll r q hold hr hds hq hes hn =>
    have hn := hn hf
    have hnew : Leaves (· = .record r) w w.newDetachedDs.2 :=
      .of_eq (List.suffix_refl _) rfl rfl rfl
    have hs : Leaves (· = .record r) w (w.newDetachedDs.2.setAdmission r (some q)) :=
      hnew.trans (.setAdmission fun hr => absurd rfl hr)
    refine ⟨hs.trace, fun hi _ _ => ⟨hi.gain hs ?_ nofun, hs.stable nofun nofun⟩⟩
    rintro _ id rfl hid
    obtain ⟨q', hq', -, rfl⟩ := World.nativeId_record.mp hid
    obtain rfl : q = q' := by simpa [World.setAdmission] using hq'
    have hside := hn.side
    rw [hi.persp] at hside
    refine ⟨fun b hb hid' => Ids.unheld_peer hn b (hs.nativeId hb hid'), hn.valid, fun ho => ?_,
      fun _ _ => hside⟩
    revert ho hside
    cases p <;> simp <;> omega
  | write i e he => exact Leaves.kept (.putEs fun _ _ => ⟨he.occupied, he.tag⟩)
  | spoil i e hold he => exact Leaves.kept (.putEs fun _ hk => absurd he hk)
  | born i e hold he hc hds hok hl hn =>
    refine .born ((Leaves.newDs i w).trans (.claim (H := (· = .slot i)) rfl _)) ?_ ?_ ?_
    · simp [World.claim, World.newDs]
    · simp [World.claim, Estream.openedBidi, hc, hl]
    · simpa [World.claim] using hn hf
  | opened i bidi e hold he hds hok hr hid hl hb =>
    refine .opened (o := .op (World.openOp bidi i) (E.drv w.trace (World.openOp bidi i))) bidi
      ((Leaves.op _ w).trans ((Leaves.newDs i _).trans (.claim (H := (· = .slot i)) rfl _))) ?_ ?_ ?_ ?_
    · simp [World.claim, World.newDs, World.op_snd]
    · simp [World.claim, Estream.openedBidi, he, hl, hb]
    · intro hk
      have hk : e.id ≠ streamIdUnknown := by simpa [World.claim] using hk
      rw [hid] at hk
      cases bidi <;> simp_all [World.claim, World.openOp, Out.issue]
    · exact List.suffix_cons _ _
  | entry r i q e hq hwait hold he hc hds hid hl hok =>
    refine .entry (r := r) (i := i) hq hwait ?_ ?_ ?_ ?_ ?_
    · refine .trans (.claim (.inl rfl) w) (.trans (.log _ _) (.setAdmission fun hr => ?_))
      exact absurd (.inr rfl) hr
    · simp [World.claim, World.setAdmission, World.es]
    · simp [World.claim, World.setAdmission, World.es, Estream.openedBidi, hc, hl]
    · simpa [World.claim, World.setAdmission, World.es] using hid
    · simp [World.nativeId, World.setAdmission, Admission.waits]
  | release i e hold hcrit hpark he => exact Leaves.kept (.release he w)
  | named i id hok hn hh =>
    refine .named (i := i) hw ((nativeIdOk_iff w i id).mp hok) (hR id hn)
      (.putEs fun hi => absurd rfl hi) ?_
    simp [Estream.tag, Estream.openedBidi]
  | goaway v hv hj =>
    have hgo : Retains w (w.updConn fun c => { c with goaway := some v }) :=
      ⟨List.suffix_refl _, rfl, Nat.le_refl _, fun _ _ hk => ⟨hk, rfl⟩,
        fun _ q _ hq hw => ⟨q, hq, hw, rfl⟩, fun _ => rfl, fun _ => rfl⟩
    exact (Leaves.kept hgo).trans (hdraining (hw.of_goaway (some v)))
  | givenUp i id go hs hk hgo hid =>
    have hleaves : ∀ {H : Holder → Prop}, (¬ H (.slot i) → id = (w.es i).id) →
        Leaves H w (giveUp i id go w) := by
      intro H h
      have hgo : Leaves H w (w.updConn fun c => { c with goaway := go }) :=
        ⟨List.suffix_refl _, rfl, Nat.le_refl _, fun _ _ hk => ⟨hk, rfl⟩,
          fun _ q _ hq hw => ⟨q, hq, hw, rfl⟩, fun _ => rfl, fun _ => rfl⟩
      refine hgo.trans (.putEs fun hi _ => ⟨?_, ?_⟩)
      · change (w.es i).kind ≠ .free
        simp [hk]
      · rw [h hi]
        rfl
    have hgive : Kept p R base w (giveUp i id go w) := by
      rcases hid with ⟨hid, -⟩ | ⟨hok, hn⟩
      · exact Leaves.kept (hleaves fun _ => hid)
      · refine .named (i := i) hw ((nativeIdOk_iff w i id).mp hok) (hR id hn)
          (hleaves fun hi => absurd rfl hi) ?_
        simp [giveUp, Estream.tag, Estream.openedBidi]
    exact hnotify _ (hgive.trans (Leaves.kept (.setSess _ _)))
      (hw.givenUp hs hk (known_of_given hid))
  | pending hs hp => exact Leaves.kept (.setSess _ w)
  | dialed i e hs hp hd => exact (Kept.dialed hd).trans (Leaves.kept (.setSess _ _))
  | undialed i err e hs hp hd =>
    exact (Kept.dialed hd).trans (Leaves.kept (.connFatal hE.toLawful err _))
  | notify c hc hop => exact hnotify c (.refl w) hw
  | failed r hs hp hj =>
    exact hnotify _ (Leaves.kept (.setSess _ w))
      (hw.setSess_over hs hp rfl fun i => .inr (hj i))
  | rejected status hs hj =>
    have he : w.conn.sessState.early := by simp [hs, SessState.early]
    exact hnotify _ (Leaves.kept (.setSess _ w)) (hw.setSess_over he
      (hw.client_of_early he (by simp [hs])) rfl fun i => .inr (hj i))
  | established i ev hs hk hpark hj hid hgo =>
    have hi : (w.es i).kind ≠ .free := by
      rcases hk with ⟨hk, -⟩ | hk <;> simp [hk]
    have hbegun : Coherent D (establish i (w.es i).id w) := hw.establish hs hk hpark hj
    have hlive := hnotify (.sessionEstablished ev) (Kept.establish hw hs hi hid) hbegun
    unfold drainUnderGoaway
    split
    · exact hlive.trans (hdraining (hE.coherent _ _ _ hbegun))
    · exact hlive
  | drained => exact hdraining hw
  | ended code reason clean hs =>
    rw [sessionClosed, sessionClosedWith_eq, if_neg (by simpa [sessionActive] using hs)]
    have hu : Ending .closed w (w.setSess .closed) := ⟨rfl, _, _, _, rfl⟩
    have hfatal := fatalOk_connFatal hE.toLawful
    obtain ⟨ht, hquiet⟩ := hw.torn_quiet (E := E) hfatal hu
    exact hnotify _ (Leaves.kept ((Leaves.setSess _ w).trans (.teardown hfatal _ w)))
      (hw.finish rfl hu ht hquiet (.inr (hw.judged_of_active hs))
        (.inr (hw.established_of_active hs)))
  | died err hc => exact Leaves.kept (.connFatal hE.toLawful err w)
  | lost err remote hc => exact Leaves.kept (.onConnClosed hE.toLawful err remote w)

theorem kept_rule (p : Perspective) (R : Nat → Prop) (base : List Out) :
    ActRule (σ := σ) (fun N => N.fresh ∧ ∀ id, N.named id → R id) (Kept p R base) where
  call := ⟨trivial, nofun⟩
  refl := .refl
  trans := .trans
  ret := fun _ => Leaves.kept (.log _ _)
  ext := fun _ _ => Leaves.kept (.of_eq (List.suffix_refl _) rfl rfl rfl)
  act := fun hN hE hI _ _ _ hw ha => ha.kept hE hI hN.1 hN.2 hw

/-- A slot that is released keeps the ids of the others. -/
theorem Leaves.estreamRelease (i : Nat) (w : World σ) : Retains w (estreamRelease E i w) := by
  have haudit : Retains w (w.audit ((w.es i).kind ≠ .free) (.doubleRelease i)) :=
    .of_eq (by simp) (by simp) (by simp) (by simp)
  exact haudit.trans (.release rfl _)

end Kept

/-! ## Runs -/

/-- The peer's streams have valid ids that are not in use, and the driver returns valid ids that
it did not return before and that are not in `known`, the ids reported so far. -/
def HonestRun (env : Env) (depth : Nat) : List Nat → State → List Input → Prop
  | _, _, [] => True
  | known, s, inp :: rest =>
    inp.fresh s.world.conn ∧
    Issues s.world.conn.persp (· ∈ inp.reports.toList ++ known) s.world.trace
      (step env depth s inp).world.trace ∧
    HonestRun env depth (inp.reports.toList ++ known) (step env depth s inp) rest

/-- An honest run keeps the ids in order, and goes on as one. -/
theorem run_ids (env : Env) (depth : Nat) {p : Perspective} {known : List Nat} {s : State}
    {inputs rest : List Input} (h : HonestRun env depth known s (inputs ++ rest))
    (hw : Coherent .none s.world) (hi : Ids p (· ∈ known) s.world) :
    Stable s.world (run env depth s inputs).world ∧
      ∃ known', Ids p (· ∈ known') (run env depth s inputs).world ∧
        HonestRun env depth known' (run env depth s inputs) rest := by
  induction inputs generalizing known s with
  | nil => exact ⟨.refl _, known, hi, h⟩
  | cons inp inputs ih =>
    obtain ⟨hfresh, hissues, hrest⟩ := h
    have hreports : ∀ id, inp.reports = some id → id ∈ inp.reports.toList ++ known := by
      intro id hid
      simp [hid]
    obtain ⟨hw', -, hkept⟩ := (kept_rule p (· ∈ inp.reports.toList ++ known)
      s.world.trace).step env depth ⟨hfresh, hreports⟩
      (fun _ i v _ => Leaves.kept (.estreamRelease i v)) hw
    obtain ⟨hi', hstable⟩ := hkept (hi.mono fun id hid => List.mem_append_right _ hid)
      (List.suffix_refl _) (hi.persp ▸ hissues)
    obtain ⟨hstable', hlater⟩ := ih hrest hw' hi'
    exact ⟨hstable.trans hstable', hlater⟩

theorem ids_init (cfg : ConnCfg) : Ids cfg.persp (· ∈ []) (init cfg).world := by
  have hpeer : ∀ i, ((init cfg).world.es i).kind = .free := by
    intro i
    unfold init create World.es
    split <;> rfl
  have hrec : ∀ r, (init cfg).world.conn.admissionPeers r = none := by
    intro r
    unfold init create
    split <;> rfl
  have hest : (init cfg).world.conn.sessionEstablished = false := by
    unfold init create
    split <;> rfl
  have hnone : ∀ a, (init cfg).world.nativeId a = none := by
    intro a
    cases a with
    | slot i => simp [World.nativeId, hpeer i]
    | record r => simp [World.nativeId, hrec r]
    | session => simp [World.nativeId, hest]
  refine ⟨?_, fun i hk => absurd (hpeer i) hk, fun a _ id ha => by simp [hnone a] at ha,
    fun a id ha => by simp [hnone a] at ha, fun r id hr => by simp [hnone (.record r)] at hr,
    fun i _ hk => absurd (hpeer i) hk⟩
  unfold init create
  split <;> rfl

/-- What becomes of the report that the stream in slot `i` has the native id `id`. -/
structure IdReport (E : Ctx σ) (i id : Nat) (w : World σ) : Prop where
  dropped : w.conn.closed → onStreamNativeId E i id w = w
  accepted : w.conn.closed = false → Named w i id →
    onStreamNativeId E i id w =
      let v := w.putEs i { w.es i with id, nativeIdPending := false }
      if (w.es i).kind = .connect ∧ w.conn.persp = .client then clientMaybeEstablish E i v else v
  refused : w.conn.closed = false → ¬ Named w i id →
    (onStreamNativeId E i id w).conn.epitaph =
      { w.conn.epitaph with closed := true, closeCode := H3Err.internalError }

theorem idReport (hE : E.Lawful) (i id : Nat) (w : World σ) : IdReport E i id w where
  dropped := fun hc => by rw [onStreamNativeId, if_pos hc]
  accepted := fun hc hn => by
    have hk : (w.es i).kind ≠ .free := by
      rcases hn.kind with hk | ⟨hk, -⟩ <;> simp [hk]
    rw [onStreamNativeId, if_neg (by simp [hc]),
      if_neg (by simpa using (nativeIdOk_iff w i id).mpr hn), World.modEs_of_occupied hk]
    simp only [World.es_putEs_self, World.conn_putEs]
  refused := fun hc hn => by
    have hbad : nativeIdOk w.conn i id = false := by
      by_contra hok
      exact hn ((nativeIdOk_iff w i id).mp (by simpa using hok))
    rw [onStreamNativeId, if_neg (by simp [hc]), if_pos (by simp [hbad])]
    exact epitaph_connFatal hE _ hc

/-- In an honest run the known ids of occupied slots are distinct and differ from the session
id, but for the session's stream; those of local streams are this side's; a stream keeps its
id, and so does the session; and a report is accepted if the stream owes it and the id is valid
and unused, kills the connection if not, and is dropped on a closed connection. -/
theorem native_ids (env : Env) (depth : Nat) (cfg : ConnCfg) (inputs rest : List Input)
    (h : HonestRun env depth [] (init cfg) (inputs ++ rest)) :
    let s := run env depth (init cfg) inputs
    let w := s.world
    let w' := (run env depth s rest).world
    (∀ i j, (w.es i).kind ≠ .free → (w.es j).kind ≠ .free → (w.es i).id ≠ streamIdUnknown →
      (w.es i).id = (w.es j).id → i = j) ∧
    (w.conn.sessionEstablished → ∀ i, (w.es i).kind ≠ .free →
      (w.es i).id = w.conn.sessionId → (w.es i).isSessionStream) ∧
    (∀ i bidi, (w.es i).kind ≠ .free → (w.es i).openedBidi = some bidi →
      (w.es i).id ≠ streamIdUnknown → LocalId cfg.persp bidi (w.es i).id) ∧
    (∀ i, (w.es i).kind ≠ .free → (w.es i).id ≠ streamIdUnknown → (w'.es i).kind ≠ .free →
      (w'.es i).generation = (w.es i).generation → (w'.es i).id = (w.es i).id) ∧
    (w.conn.sessionEstablished →
      w'.conn.sessionEstablished ∧ w'.conn.sessionId = w.conn.sessionId) ∧
    ∀ i id, IdReport (env.ctx depth) i id w := by
  intro s w w'
  obtain ⟨-, known, hi, hrest⟩ := run_ids env depth h (coherent_init cfg) (ids_init cfg)
  have hw : Coherent .none w := run_coherent env depth inputs (coherent_init cfg)
  have hstable : Stable w w' :=
    (run_ids env depth ((List.append_nil rest).symm ▸ hrest) hw hi).1
  refine ⟨fun i j hki hkj hu hid => ?_, fun he i hk hid => ?_, hi.local_, fun i hk hu hk' hg => ?_,
    hstable.session, fun i id => idReport (env.lawful depth) i id w⟩
  · have hij := hi.apart (.slot i) (.slot j) _ (World.nativeId_slot.mpr ⟨hki, hu, rfl⟩)
      (World.nativeId_slot.mpr ⟨hkj, hid ▸ hu, hid.symm⟩)
    rcases hij with hij | ⟨k, -, ⟨hs, -⟩ | ⟨-, hs⟩⟩
    · cases hij
      rfl
    · cases hs
    · cases hs
  · have hsess : w.nativeId .session = some (w.es i).id :=
      World.nativeId_session.mpr ⟨he, hid.symm⟩
    have hu := unknown_of_lt (hi.known _ _ hsess).1
    have hshare := hi.apart .session (.slot i) _ hsess (World.nativeId_slot.mpr ⟨hk, hu, rfl⟩)
    rcases hshare with hs | ⟨k, hk, ⟨-, hs⟩ | ⟨hs, -⟩⟩
    · cases hs
    · cases hs
      exact hk
    · cases hs
  · exact (hstable.slots i hk' (hg ▸ hi.age i hk)).2.2 hu

/-! ## A client whose ids are reported late -/

/-- A client that connects, and learns the id of its CONNECT behind the response. -/
def lateIds : List Input :=
  [.start, .call (.clientConnect plainConnect), .peerUniOpened 3,
    .streamBytes 0 [0, 4, 13, 1, 0, 7, 0, 8, 1, 51, 1, 172, 124, 240, 0, 1] false,
    .streamBytes 1 [1, 3, 0, 0, 217] false, .nativeId 1 0, .call (.wtOpen true)]

/-- A stream may have its id looked up among the slots and records there are. -/
theorem Coherent.peerId {id : Nat} (h : Coherent D w) (hv : id < 2 ^ 62)
    (hp : id % 2 = if w.conn.persp = .client then 1 else 0)
    (hslots : ∀ i < w.conn.streamCapacity, (w.es i).kind ≠ .free → (w.es i).id ≠ id)
    (hsess : w.conn.sessionEstablished → w.conn.sessionId ≠ id)
    (hrec : ∀ r < w.conn.peerCapacity, w.conn.admissionPeers r = none) : w.conn.PeerId id where
  valid := hv
  side := hp
  slots := fun i hk => hslots i (h.slots i hk).bound hk
  session := hsess
  records := fun r p hr => by
    rw [hrec r (h.records r p hr).2.1] at hr
    cases hr

theorem Issues.of_silent {p : Perspective} {R : Nat → Prop} {base t : List Out}
    (h : t.all fun o => o.issue.isNone) : Issues p R base t := by
  intro o u hu _ bidi id ho
  have := List.all_eq_true.mp h o (hu.subset List.mem_cons_self)
  simp [ho] at this

/-- The peer's streams have valid ids that are not in use. -/
def FreshRun (env : Env) (depth : Nat) : State → List Input → Prop
  | _, [] => True
  | s, inp :: rest => inp.fresh s.world.conn ∧ FreshRun env depth (step env depth s inp) rest

/-- A run in which no open returns an id is honest if the peer is. -/
theorem HonestRun.of_silent (env : Env) (depth : Nat) {known : List Nat} {s : State}
    {inputs : List Input} (h : FreshRun env depth s inputs)
    (hs : (run env depth s inputs).world.trace.all fun o => o.issue.isNone) :
    HonestRun env depth known s inputs := by
  induction inputs generalizing known s with
  | nil => trivial
  | cons inp inputs ih =>
    obtain ⟨hfresh, hrest⟩ := h
    have hlater := (Frame.run env depth (step env depth s inp) inputs).trace
    exact ⟨hfresh, (Issues.of_silent hs).suffix hlater, ih hrest hs⟩

/-- The report for the stream is honoured, and a second one kills the connection. -/
theorem native_ids_late :
    let s := run .plain 1 (init { persp := .client }) lateIds
    let w := s.world
    let w' := (run .plain 1 s [.nativeId 2 4, .nativeId 2 8]).world
    ((∀ i j, (w.es i).kind ≠ .free → (w.es j).kind ≠ .free → (w.es i).id ≠ streamIdUnknown →
      (w.es i).id = (w.es j).id → i = j) ∧
    (w.conn.sessionEstablished → ∀ i, (w.es i).kind ≠ .free →
      (w.es i).id = w.conn.sessionId → (w.es i).isSessionStream) ∧
    (∀ i bidi, (w.es i).kind ≠ .free → (w.es i).openedBidi = some bidi →
      (w.es i).id ≠ streamIdUnknown → LocalId .client bidi (w.es i).id) ∧
    (∀ i, (w.es i).kind ≠ .free → (w.es i).id ≠ streamIdUnknown → (w'.es i).kind ≠ .free →
      (w'.es i).generation = (w.es i).generation → (w'.es i).id = (w.es i).id) ∧
    (w.conn.sessionEstablished →
      w'.conn.sessionEstablished ∧ w'.conn.sessionId = w.conn.sessionId) ∧
    ∀ i id, IdReport (Env.plain.ctx 1) i id w) ∧
    (w.conn.sessionEstablished ∧ (w'.es 2).id = 4 ∧ w'.conn.closeCode = H3Err.internalError) := by
  have hend : (run .plain 1 (init { persp := .client }) (lateIds ++ [.nativeId 2 4, .nativeId 2 8])
        ).world.trace.all (fun o => o.issue.isNone) ∧
      (run .plain 1 (init { persp := .client }) lateIds).world.conn.sessionEstablished ∧
      ((run .plain 1 (init { persp := .client }) (lateIds ++ [.nativeId 2 4, .nativeId 2 8])
        ).world.es 2).id = 4 ∧
      (run .plain 1 (init { persp := .client }) (lateIds ++ [.nativeId 2 4, .nativeId 2 8])
        ).world.conn.closeCode = H3Err.internalError := by
    have hlate : lateIds = .start :: .call (.clientConnect plainConnect) :: lateIds.drop 2 := rfl
    rw [hlate, List.cons_append, List.cons_append, Env.run_connecting _ ⟨rfl, rfl, rfl, rfl⟩,
      Env.run_connecting _ ⟨rfl, rfl, rfl, rfl⟩]
    decide +kernel
  obtain ⟨hsilent, hresult⟩ := hend
  refine ⟨native_ids .plain 1 { persp := .client } lateIds [.nativeId 2 4, .nativeId 2 8]
    (.of_silent .plain 1 ?_ hsilent), by simpa [run] using hresult⟩
  -- the one stream the peer opens is its control stream
  let c := (run .plain 1 (init { persp := .client }) (lateIds.take 2)).world.conn
  have hold : (∀ i < c.streamCapacity, (c.peer i).kind ≠ .free → (c.peer i).id ≠ 3) ∧
      c.persp = .client ∧ (c.sessionEstablished → c.sessionId ≠ 3) ∧
      ∀ r < c.peerCapacity, c.admissionPeers r = none := by
    rw [show c = (run .plain 1 Env.plain.connecting []).world.conn from
      congrArg (·.world.conn) (Env.run_connecting _ ⟨rfl, rfl, rfl, rfl⟩ [])]
    decide +kernel
  have hpeer : c.PeerId 3 :=
    (run_coherent .plain 1 (lateIds.take 2) (coherent_init { persp := .client })).peerId
      (by decide) (by rw [hold.2.1]; rfl) hold.1 hold.2.2.1 hold.2.2.2
  exact ⟨trivial, trivial, hpeer, trivial, trivial, trivial, trivial, trivial, trivial, trivial⟩

/-- On a closed connection a report is dropped, though the stream owes it and the id is in
order. -/
theorem native_ids_closed :
    let w := (run .plain 1 (init { persp := .client })
      (lateIds.take 4 ++ [.connClosed 5 false])).world
    let w' := onStreamNativeId (Env.plain.ctx 1) 1 0 w
    Named w 1 0 ∧ (w'.es 1).id = streamIdUnknown ∧ (w'.es 1).nativeIdPending ∧
      w'.conn.closeCode = 5 := by
  rw [show lateIds.take 4 ++ [.connClosed 5 false] = .start ::
    .call (.clientConnect plainConnect) :: ((lateIds.take 4).drop 2 ++ [.connClosed 5 false])
    from rfl, Env.run_connecting _ ⟨rfl, rfl, rfl, rfl⟩]
  intro w w'
  have h : nativeIdOk w.conn 1 0 ∧ (w'.es 1).id = streamIdUnknown ∧ (w'.es 1).nativeIdPending ∧
      w'.conn.closeCode = 5 := by
    decide +kernel
  exact ⟨(nativeIdOk_iff w 1 0).mp h.1, h.2⟩

end Wtquic.Engine
