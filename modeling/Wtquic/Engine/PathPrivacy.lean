-- SUMMARY: Before a profile is selected, the configured paths have no influence on what the engine does.
import Mathlib.Data.List.TakeWhile
import Wtquic.Engine.StreamFrame

namespace Wtquic.Engine

/-! # The path table is secret until a profile is selected

Two connections that differ in their path tables go through the same worlds until the
peer's SETTINGS select a profile. The selection is in the trace: `on_peer_settings`
reports it, before anything reads the table. -/

variable {σ : Type} {E : Ctx σ} {w : World σ} {tbl tbl' : PathTable}

/-- A latched profile has been reported. -/
def Reported (w : World σ) : Prop :=
  w.conn.profileLatched → .cb (.peerSettings true) ∈ w.trace

theorem Frame.keeps_reported {S : Scope} {w w' : World σ} (h : Frame S w w')
    (hr : Reported w) : Reported w' :=
  h.reported hr

/-- Two worlds that share a past in which a profile was reported, and have it latched. -/
def Past (w w' : World σ) : Prop :=
  w.conn.profileLatched ∧ w'.conn.profileLatched ∧
    ∃ t, Out.cb (.peerSettings true) ∈ t ∧ t <:+ w.trace ∧ t <:+ w'.trace

/-- Two outcomes are equal unless they come after the report of a profile. -/
def Veiled {β : Type} (p : β → World σ) (x y : β) : Prop := x = y ∨ Past (p x) (p y)

/-- What two outcomes become later. -/
theorem Past.frame {a b a' b' : World σ} (h : Past a b) (ha : Frame .all a a')
    (hb : Frame .all b b') : Past a' b' := by
  obtain ⟨hla, hlb, t, ht, hta, htb⟩ := h
  exact ⟨ha.latched_mono hla, hb.latched_mono hlb, t, ht, hta.trans ha.trace, htb.trans hb.trace⟩

theorem Past.of_latched {a b : World σ} (hl : w.conn.profileLatched) (hr : Reported w)
    (ha : Frame .all w a) (hb : Frame .all w b) : Past a b :=
  Past.frame ⟨hl, hl, w.trace, hr hl, List.suffix_refl _, List.suffix_refl _⟩ ha hb

namespace Veiled

variable {β γ : Type} {p : β → World σ} {q : γ → World σ}

theorem refl (x : β) : Veiled p x x := .inl rfl

/-- Continue two outcomes. -/
theorem bind {x y : β} {k l : β → γ} (h : Veiled p x y) (hk : ∀ b, Frame .all (p b) (q (k b)))
    (hl : ∀ b, Frame .all (p b) (q (l b))) (he : Veiled q (k x) (l x)) :
    Veiled q (k x) (l y) := by
  rcases h with rfl | hp
  · exact he
  · exact .inr (hp.frame (hk x) (hl y))

/-- A continuation that does not read the table. -/
theorem map {x y : β} (f : β → γ) (h : Veiled p x y) (hf : ∀ b, Frame .all (p b) (q (f b))) :
    Veiled q (f x) (f y) :=
  h.bind hf hf (.refl _)

/-- A continuation that leaves the world alone. -/
theorem pass {x y : β} (f : β → γ) (h : Veiled p x y)
    (hf : ∀ b, q (f b) = p b) : Veiled q (f x) (f y) :=
  h.map f fun b => by rw [hf]

end Veiled

/-! ## The functions that read the table -/

theorem serverRequestDone_veiled (hE : E.Lawful) (hr : Reported w) (i : Nat) :
    Veiled id (serverRequestDone E tbl i w) (serverRequestDone E tbl' i w) := by
  by_cases hl : w.conn.profileLatched
  · have hframe : ∀ t, Frame .all w (serverRequestDone E t i w) := fun t =>
      .serverRequestDone hE trivial trivial t w
    exact .inr (.of_latched hl hr (hframe tbl) (hframe tbl'))
  · left
    unfold serverRequestDone
    simp only [hl, Bool.not_false, Bool.or_true, if_true]

theorem requestFrameDone_veiled (hE : E.Lawful) (hr : Reported w) (i : Nat) :
    Veiled Prod.snd (requestFrameDone E tbl i w) (requestFrameDone E tbl' i w) := by
  unfold requestFrameDone
  split
  · exact .refl _
  · refine Veiled.pass (p := id) (fun v => (!(v.conn.closed || (v.es i).kind == .free
      || (v.es i).requestDead), v)) ?_ fun _ => rfl
    split
    · exact .refl _
    · dsimp only
      split
      · exact .refl _
      · refine serverRequestDone_veiled hE (Frame.keeps_reported (S := .all) ?_ hr) i
        exact .modEs_scope trivial _ _ (by rfl)

/-- Two walks that differ in what they do with a complete frame. -/
theorem frameLoop_veiled {W W' : FrameWalk σ} (hW : W.Framed .all) (hW' : W'.Framed .all)
    (hh : W'.header = W.header) (hp : W'.payload = W.payload)
    (hf : ∀ v, Reported v → Veiled Prod.snd (W.finish v) (W'.finish v)) (i n : Nat)
    (data : Bytes) (hr : Reported w) :
    Veiled id (frameLoop W i n data w) (frameLoop W' i n data w) := by
  have hi : Scope.all.slots i := trivial
  have hhead : ∀ data v, frameHead W' i data v = frameHead W i data v := by
    intro data v
    unfold frameHead
    rw [hh]
  have hadvance : ∀ slice rest v, Reported v →
      Veiled (fun x => x.2.2) (frameAdvance W i slice rest v) (frameAdvance W' i slice rest v) := by
    intro slice rest v hv
    have hend : Reported (frameEnd i (frameTake i slice v)) :=
      ((Frame.frameTake trivial hi slice v).trans (.frameEnd hi _)).keeps_reported hv
    unfold frameAdvance
    dsimp only
    split
    · exact (hf _ hend).pass (q := fun x => x.2.2) (fun x => (x.1, rest, x.2)) fun _ => rfl
    · exact .refl _
  have hbody : ∀ data v, Reported v →
      Veiled (fun x => x.2.2) (frameBody W i data v) (frameBody W' i data v) := by
    intro data v hv
    unfold frameBody
    rw [hp]
    dsimp only
    split
    · exact hadvance _ _ _ ((hW.payload _ _).keeps_reported hv)
    · exact .refl _
  induction n generalizing data w with
  | zero => exact .refl _
  | succ n ih =>
    unfold frameLoop
    split
    · exact .refl _
    · have hround : Veiled (fun x => x.2.2) (frameRound W i data w) (frameRound W' i data w) := by
        have hhd := Frame.frameHead hW trivial hi data w
        unfold frameRound
        rw [hhead]
        dsimp only
        split
        · exact hbody _ _ (hhd.keeps_reported hr)
        · exact .refl _
      refine hround.bind (k := fun x => if x.1 then frameLoop W i n x.2.1 x.2.2 else x.2.2)
        (l := fun x => if x.1 then frameLoop W' i n x.2.1 x.2.2 else x.2.2) ?_ ?_ ?_
      · intro x
        split
        · exact .frameLoop hW trivial hi _ _ _
        · rfl
      · intro x
        split
        · exact .frameLoop hW' trivial hi _ _ _
        · rfl
      · split
        · exact ih _ ((Frame.frameRound hW trivial hi _ _).keeps_reported hr)
        · exact .refl _

theorem requestStreamBytes_veiled (hE : E.Lawful) (hr : Reported w) (i : Nat) (data : Bytes) :
    Veiled id (requestStreamBytes E tbl i data w) (requestStreamBytes E tbl' i data w) := by
  have hW : ∀ t, (requestWalk E t i).Framed .all := fun t =>
    Frame.requestWalk hE trivial trivial t
  unfold requestStreamBytes
  split
  · exact .refl _
  · exact frameLoop_veiled (hW tbl) (hW tbl') rfl rfl
      (fun _ hv => requestFrameDone_veiled hE hv i) _ _ _ hr

theorem releaseParked_veiled (hE : E.Lawful) (hr : Reported w) (i : Nat) :
    Veiled id (releaseParked E tbl i w) (releaseParked E tbl' i w) := by
  have hi : Scope.all.slots i := trivial
  unfold releaseParked
  refine Veiled.map (p := id) (applyDeferredFin E i w.conn.parkedFin) ?_
    fun _ => .applyDeferredFin hE trivial hi _ _
  exact serverRequestDone_veiled hE ((Frame.restoreParked trivial hi w).keeps_reported hr) i

theorem settingsRelease_veiled (hE : E.Lawful) (hr : Reported w) :
    Veiled id (settingsRelease E tbl w) (settingsRelease E tbl' w) := by
  unfold settingsRelease
  have hclient : Frame .all w
      (if w.conn.persp = .client ∧ w.conn.sessState = .pending then
        if w.conn.wtSupported then clientSendConnect E w else sessionFailed E .noWtSupport w
      else w) := by
    split
    · split
      · exact .clientSendConnect hE _
      · exact .sessionFailed hE _ _
    · rfl
  dsimp only
  generalize (if w.conn.persp = .client ∧ w.conn.sessState = .pending then
    if w.conn.wtSupported then clientSendConnect E w else sessionFailed E .noWtSupport w
    else w) = v at hclient ⊢
  split
  · exact releaseParked_veiled hE (hclient.keeps_reported hr) _
  · exact .refl _

theorem controlBytes_veiled (hE : E.Lawful) (hr : Reported w) (i : Nat) (data : Bytes) :
    Veiled id (controlBytes E tbl i data w) (controlBytes E tbl' i data w) := by
  have hsettings : ∀ v : World σ, Reported v →
      Veiled id (controlSettings E tbl i v) (controlSettings E tbl' i v) := by
    intro v hv
    unfold controlSettings
    split
    · exact .refl _
    · exact .refl _
    · next s _ =>
      have hlatch : Frame .all v _ := Frame.latchSettings hE trivial s v
      exact settingsRelease_veiled hE (hlatch.keeps_reported hv)
  have hfinish : ∀ v : World σ, Reported v →
      Veiled Prod.snd (controlFrameDone E tbl i v) (controlFrameDone E tbl' i v) := by
    intro v hv
    unfold controlFrameDone
    split
    · exact .refl _
    · exact (hsettings v hv).pass (q := Prod.snd) (fun u => (true, u)) fun _ => rfl
    · exact .refl _
    · exact .refl _
  exact frameLoop_veiled (Frame.controlWalk hE tbl i) (Frame.controlWalk hE tbl' i) rfl rfl
    hfinish _ _ _ hr

/-! ## Deliveries -/

theorem bidiClassifyBytes_veiled (hE : E.Lawful) (hr : Reported w) (i : Nat) (data : Bytes) :
    Veiled (fun x => x.2.2) (bidiClassifyBytes E tbl i data w)
      (bidiClassifyBytes E tbl' i data w) := by
  have hi : Scope.all.slots i := trivial
  unfold bidiClassifyBytes
  split
  · exact .refl _
  dsimp only
  split
  · exact .refl _
  · exact .refl _
  split
  · exact .refl _
  · refine (requestStreamBytes_veiled hE ?_ i _).pass (q := fun x => x.2.2) (fun v : World σ =>
      (!v.conn.closed, data.drop (Preamble.decFeed (w.es i).pre .bidi data).2.2, v)) fun _ => rfl
    refine Frame.keeps_reported (S := .all) ?_ hr
    exact (Frame.auditSub trivial _ _ _).trans ((Frame.modEs_scope hi _ _ (by rfl)).trans
      ((Frame.bufferType trivial hi _ _).trans (Frame.modEs_scope hi _ _ (by rfl))))

theorem classifiedDelivery_veiled (hE : E.Lawful) (hr : Reported w) (accounted : Bool)
    (i gen len : Nat) (data : Bytes) (fin : Bool) :
    Veiled (fun x => x.2.2) (classifiedDelivery E tbl accounted i gen len data fin w)
      (classifiedDelivery E tbl' accounted i gen len data fin w) := by
  have hi : Scope.all.slots i := trivial
  have hrequest : Veiled Prod.snd (requestDelivery E tbl i data fin w)
      (requestDelivery E tbl' i data fin w) := by
    unfold requestDelivery
    split
    · exact .refl _
    · refine Veiled.map (p := id) (requestDeliveryFin E i fin) ?_
        fun _ => .requestDeliveryFin hE trivial hi _ _
      split
      · exact .refl _
      · exact requestStreamBytes_veiled hE hr i data
  have hsink : ∀ (data : Bytes) (v : World σ), Reported v →
      Veiled Prod.snd (sinkDelivery E tbl i data fin v) (sinkDelivery E tbl' i data fin v) := by
    intro data v hv
    unfold sinkDelivery
    refine Veiled.map (p := id) (fun u => sinkDeliveryFin E i fin (sinkQpack E i data u)) ?_
      fun _ => (Frame.sinkQpack hE trivial hi _ _).trans (.sinkDeliveryFin hE hi _ _)
    unfold sinkControl
    split
    · exact controlBytes_veiled hE hv i data
    · exact .refl _
  unfold classifiedDelivery
  split
  · exact hrequest.pass (q := fun x => x.2.2) (fun x => (x.1, len, x.2)) fun _ => rfl
  · unfold uniDelivery
    have hclass : Frame .all w
        (if (w.es i).kind = .type ∧ !data.isEmpty then uniClassifyBytes E i data w
          else (true, data, w)).2.2 := by
      split
      · exact .uniClassifyBytes hE trivial hi _ _
      · rfl
    dsimp only
    generalize (if (w.es i).kind = .type ∧ !data.isEmpty then uniClassifyBytes E i data w
      else (true, data, w)) = x at hclass ⊢
    obtain ⟨live, data', v⟩ := x
    dsimp only at hclass ⊢
    split
    · exact .refl _
    split
    · exact .refl _
    split
    · exact .refl _
    · exact (hsink data' v (hclass.keeps_reported hr)).pass (q := fun x => x.2.2) (fun x => (x.1, len, x.2)) fun _ => rfl

theorem streamBytes_veiled (hE : E.Lawful) (hr : Reported w) (accounted : Bool) (i : Nat)
    (data : Bytes) (fin : Bool) :
    Veiled (fun x => x.2.2) (streamBytes E tbl accounted i data fin w)
      (streamBytes E tbl' accounted i data fin w) := by
  have hi : Scope.all.slots i := trivial
  unfold streamBytes
  split
  · exact .refl _
  split
  · exact .refl _
  dsimp only
  split
  · refine (bidiClassifyBytes_veiled hE hr i data).bind
      (fun _ => .bidiDelivery hE _ _ _ _ _ _ _) (fun _ => .bidiDelivery hE _ _ _ _ _ _ _) ?_
    have hbidi := Frame.bidiClassifyBytes hE (S := .all) trivial hi tbl data w
    generalize bidiClassifyBytes E tbl i data w = x at hbidi ⊢
    obtain ⟨live, rest, v⟩ := x
    simp only [bidiDelivery]
    split
    · exact .refl _
    split
    · exact .refl _
    split
    · exact .refl _
    · exact classifiedDelivery_veiled hE (hbidi.keeps_reported hr) _ _ _ _ _ _
  · exact classifiedDelivery_veiled hE hr _ _ _ _ _ _

theorem peerAdmissionBytes_veiled (hE : E.Lawful) (hr : Reported w) (r : Nat) (data : Bytes)
    (fin : Bool) :
    Veiled (fun x => x.2.2) (peerAdmissionBytes E tbl r data fin w)
      (peerAdmissionBytes E tbl' r data fin w) := by
  have hbidi : ∀ v : World σ, Reported v →
      Veiled (fun x => x.2.2) (admissionBidi E tbl r v) (admissionBidi E tbl' r v) := by
    intro v hv
    unfold admissionBidi
    split
    · exact .refl _
    dsimp only
    split
    · exact .refl _
    · next u he =>
      have hentry : Frame .all v u := (Frame.admissionEntry he).2
      exact (requestStreamBytes_veiled hE (hentry.keeps_reported hv) _ _).pass
        (q := fun x => x.2.2) (fun u : World σ => (Rc.ok, some (httpSlot v.conn r true 0), u))
        fun _ => rfl
  have hrest : ∀ used x, Reported x.2.2 →
      Veiled (fun x => x.2.2) (admissionRest E tbl r used data fin x)
        (admissionRest E tbl' r used data fin x) := by
    rintro used ⟨rc, es, v⟩ hv
    simp only [admissionRest]
    split
    · exact .refl _
    split
    · exact .refl _
    split
    · exact .refl _
    split
    · exact .refl _
    · exact (streamBytes_veiled hE hv _ _ _ _).pass (q := fun x => x.2.2)
        (fun x => (x.1, used + x.2.1, x.2.2)) fun _ => rfl
  have hprefix : ∀ p, Veiled (fun x => x.2.2) (admissionPrefix E tbl r p data fin w)
      (admissionPrefix E tbl' r p data fin w) := by
    intro p
    unfold admissionPrefix
    obtain ⟨res, decoder, used⟩ := Preamble.decFeed p.decoder (if p.bidi then .bidi else .uni) data
    dsimp only
    have hv := (Frame.admissionFeed (S := .all) trivial r p decoder used data w).keeps_reported hr
    generalize admissionFeed r p decoder used data w = v at hv ⊢
    split
    · exact .refl _
    · exact .refl _
    · split
      · refine (hbidi v hv).bind (fun _ => .admissionRest hE _ _ _ _ _ _)
          (fun _ => .admissionRest hE _ _ _ _ _ _) (hrest _ _ ?_)
        exact (Frame.admissionBidi hE tbl r v).keeps_reported hv
      · exact hrest _ _ ((Frame.admissionUni hE r _ v).keeps_reported hv)
  unfold peerAdmissionBytes
  split
  · exact .refl _
  split
  · exact .refl _
  split
  · exact streamBytes_veiled hE hr _ _ _ _
  · split
    · exact .refl _
    · exact .refl _
    · exact hprefix _
    · exact hprefix _

theorem input_veiled (hE : E.Lawful) (hr : Reported w) (inp : Input) :
    Veiled id (inp.apply E tbl w) (inp.apply E tbl' w) := by
  cases inp with
  | streamBytes i data fin =>
    exact (streamBytes_veiled hE hr false i data fin).pass (q := id) (fun x => x.2.2)
      fun _ => rfl
  | streamBytesAccounted i data fin =>
    exact (streamBytes_veiled hE hr true i data fin).pass (q := id) (fun x => x.2.2)
      fun _ => rfl
  | admissionBytes r data fin =>
    exact (peerAdmissionBytes_veiled hE hr r data fin).pass (q := id) (fun x => x.2.2)
      fun _ => rfl
  | _ => exact .refl _

/-! ## Runs -/

/-- Two inputs that may differ in the configured paths only. -/
def SameButPaths (a b : Input) : Prop :=
  a = b ∨ ∃ paths paths', a = .setPaths paths ∧ b = .setPaths paths'

theorem step_veiled (env : Env) (depth : Nat) {s s' : State} (hr : Reported s.world)
    (hs : Veiled id s.world s'.world) {a b : Input} (hab : SameButPaths a b) :
    Veiled id (step env depth s a).world (step env depth s' b).world := by
  have hE : (env.ctx (σ := Unit) depth).Lawful := env.lawful depth
  rcases hs with he | hp
  · rcases hab with rfl | ⟨paths, paths', rfl, rfl⟩
    · have hinput : Veiled id
          (if a.allowed s.world.conn then
            { s with world := a.apply (env.ctx depth) s.paths s.world } else s).world
          (if a.allowed s'.world.conn then
            { s' with world := a.apply (env.ctx depth) s'.paths s'.world } else s').world := by
        rw [← he]
        split
        · exact input_veiled hE hr a
        · exact .inl he
      cases a with
      | setPaths paths => exact .inl he
      | _ => exact hinput
    · exact .inl he
  · exact .inr (hp.frame (.step env depth s a) (.step env depth s' b))

theorem run_veiled (env : Env) (depth : Nat) {s s' : State} (hr : Reported s.world)
    (hs : Veiled id s.world s'.world) {inputs inputs' : List Input}
    (h : List.Forall₂ SameButPaths inputs inputs') :
    Veiled id (run env depth s inputs).world (run env depth s' inputs').world := by
  induction h generalizing s s' with
  | nil => exact hs
  | cons hab _ ih =>
    exact ih ((Frame.step env depth s _).keeps_reported hr) (step_veiled env depth hr hs hab)

/-- The history up to the report of SETTINGS that selected a profile, oldest entry first:
all of it when there is no such report. -/
def untilSelected (trace : List Out) : List Out :=
  trace.reverse.takeWhile (· != .cb (.peerSettings true))

theorem untilSelected_of_suffix {t trace : List Out} (ht : .cb (.peerSettings true) ∈ t)
    (h : t <:+ trace) : untilSelected trace = untilSelected t := by
  obtain ⟨rest, rfl⟩ := h
  have hstop : ∃ x ∈ t.reverse, ¬ (x != Out.cb (.peerSettings true)) = true :=
    ⟨_, List.mem_reverse.2 ht, by simp⟩
  unfold untilSelected
  rw [List.reverse_append, List.takeWhile_append]
  split
  · next hall =>
    obtain ⟨x, hx, hn⟩ := hstop
    have hself : t.reverse.takeWhile (· != .cb (.peerSettings true)) = t.reverse :=
      (List.takeWhile_prefix _).eq_of_length hall
    rw [List.takeWhile_eq_self_iff] at hself
    exact absurd (hself x hx) hn
  · rfl

/-- Until the peer's SETTINGS have selected a profile, two connections that differ only in
their configured paths do and report the same. -/
theorem paths_veiled (env : Env) (depth : Nat) (cfg : ConnCfg) (inputs inputs' : List Input)
    (h : List.Forall₂ SameButPaths inputs inputs') :
    let w := (run env depth (init cfg) inputs).world
    let w' := (run env depth (init cfg) inputs').world
    untilSelected w.trace = untilSelected w'.trace ∧
      (¬ w.conn.profileLatched → w = w') := by
  have hnew : Reported (init cfg).world := by
    intro hl
    have hfalse : (create cfg).profileLatched = false := by
      unfold create
      split <;> rfl
    simp [init, hfalse] at hl
  rcases run_veiled env depth hnew (.refl _) h with he | ⟨hl, _, t, ht, htw, htw'⟩
  · exact ⟨by rw [show _ = _ from he], fun _ => he⟩
  · refine ⟨?_, fun hn => absurd hl hn⟩
    calc untilSelected (run env depth (init cfg) inputs).world.trace
        = untilSelected t := untilSelected_of_suffix ht htw
      _ = untilSelected (run env depth (init cfg) inputs').world.trace :=
          (untilSelected_of_suffix ht htw').symm

/-- A connection with one path and one with none, and a request stream that opens. -/
theorem paths_veiled_open :
    let inputs := fun paths => [Input.setPaths paths, .peerBidiOpened 0, .streamBytes 0 [1] false]
    let w := (run .plain 0 (init { persp := .server }) (inputs [⟨[47], [], false, .unset, none⟩])).world
    let w' := (run .plain 0 (init { persp := .server }) (inputs [])).world
    untilSelected w.trace = untilSelected w'.trace ∧ (¬ w.conn.profileLatched → w = w') :=
  paths_veiled .plain 0 _ _ _
    (.cons (.inr ⟨_, _, rfl, rfl⟩) (.cons (.inl rfl) (.cons (.inl rfl) .nil)))

end Wtquic.Engine
