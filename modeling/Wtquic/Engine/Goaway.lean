-- SUMMARY: A GOAWAY binds the rest of a run: no CONNECT behind it, no session above it, one draining report.
import Wtquic.Engine.NativeIds

namespace Wtquic.Engine

/-! # GOAWAY

What the engine has promised once the peer's GOAWAY is recorded. The promises are
relations between two points of a run, so they compose along it. -/

variable {σ : Type} {E : Ctx σ} {N : News} {D : Doomed} {w w' w'' : World σ}

/-! ## Marks -/

/-- The CONNECT was sent. -/
def Out.isDial : Out → Bool
  | .sess .sent => true
  | _ => false

/-- The session was reported draining. -/
def Out.isDraining : Out → Bool
  | .cb .sessionDraining => true
  | _ => false

def dials (t : List Out) : Nat := t.countP Out.isDial

def drains (t : List Out) : Nat := t.countP Out.isDraining

theorem dials_cons (o : Out) (t : List Out) :
    dials (o :: t) = dials t + if o.isDial then 1 else 0 := List.countP_cons

theorem drains_cons (o : Out) (t : List Out) :
    drains (o :: t) = drains t + if o.isDraining then 1 else 0 := List.countP_cons

/-- The fields of a connection that the promises speak of. -/
structure Standing where
  persp : Perspective
  goaway : Option Nat
  established : Bool
  sessionId : Nat
  drainRx : Bool

def Conn.standing (c : Conn) : Standing where
  persp := c.persp
  goaway := c.goaway
  established := c.sessionEstablished
  sessionId := c.sessionId
  drainRx := c.drainRx

theorem standing_of_core {c c' : Conn} (h : c'.core = c.core) : c'.standing = c.standing := by
  simp only [Conn.core, Core.mk.injEq] at h
  obtain ⟨hp, -, -, -, -, -, -, he, hid, -, -, hg, -, hd⟩ := h
  simp only [Conn.standing, hp, he, hid, hg, hd]

/-- A step that leaves the fields alone and makes no mark. -/
structure Level (w w' : World σ) : Prop where
  standing : w'.conn.standing = w.conn.standing
  dials : dials w'.trace = dials w.trace
  drains : drains w'.trace = drains w.trace

namespace Level

@[refl] theorem refl (w : World σ) : Level w w := ⟨rfl, rfl, rfl⟩

theorem trans (h : Level w w') (h' : Level w' w'') : Level w w'' :=
  ⟨h'.standing.trans h.standing, h'.dials.trans h.dials, h'.drains.trans h.drains⟩

theorem of_eq (hc : w'.conn.standing = w.conn.standing) (ht : w'.trace = w.trace) : Level w w' :=
  ⟨hc, by rw [ht], by rw [ht]⟩

theorem log {o : Out} (hd : o.isDial = false) (hr : o.isDraining = false) (w : World σ) :
    Level w (w.log o) :=
  ⟨rfl, by simp [dials_cons, hd], by simp [drains_cons, hr]⟩

theorem op (o : DrvOp) (w : World σ) : Level w (w.op E o).2 := log rfl rfl w

theorem setSess {s : SessState} (hs : s ≠ .sent) (w : World σ) : Level w (w.setSess s) := by
  have hd : (Out.sess s).isDial = false := by cases s <;> first | rfl | exact absurd rfl hs
  exact ⟨rfl, by simp [dials_cons, hd], by rw [World.trace_setSess, drains_cons]; rfl⟩

theorem still (h : Still w w') : Level w w' := by
  obtain ⟨te, user, hc⟩ := h.conn
  exact of_eq (by rw [hc]; rfl) h.trace

/-- A callback on a closed connection. -/
theorem notify_closed (hE : E.Lawful) {c : Callback} (hn : (Out.cb c).isDraining = false)
    (hc : w.conn.closed) : Level w (E.notify c w) :=
  ((log rfl hn w).trans (log rfl rfl _)).trans (still (hE.quiet c w hc))

theorem detachEs (i : Nat) (w : World σ) : Level w (detachEs E i w) := by
  unfold Engine.detachEs
  split
  · exact op _ w
  · rfl

theorem release {i : Nat} {e : Estream} (w : World σ) :
    Level w ((admissionLetGo i (Engine.detachEs E i w)).putEs i e) := by
  refine (detachEs (E := E) i w).trans (of_eq ?_ (by simp))
  simp [conn_admissionLetGo, Conn.standing]

theorem estreamRelease (i : Nat) (w : World σ) : Level w (estreamRelease E i w) := by
  have haudit : Level w (w.audit ((w.es i).kind ≠ .free) (.doubleRelease i)) :=
    of_eq (by simp) (by simp)
  exact haudit.trans (release _)

theorem shutdownRawWith {fatal : Nat → World σ → World σ} (hf : ∀ err v, Level v (fatal err v))
    (ds : Nat) (a r : Bool) (code : Nat) (w : World σ) :
    Level w (shutdownRawWith E fatal ds a r code w) := by
  unfold Engine.shutdownRawWith
  dsimp only
  split
  · exact (op _ w).trans (hf _ _)
  · exact op _ w

theorem teardownSlot {fatal : Nat → World σ → World σ} (hf : ∀ err v, Level v (fatal err v))
    (i : Nat) (w : World σ) : Level w (teardownSlot E fatal w i) := by
  rw [teardownSlot_eq]
  split
  · rfl
  have hshut : Level w (teardownShutdown E fatal i w) := by
    unfold teardownShutdown
    dsimp only
    split
    · exact shutdownRawWith hf _ _ _ _ w
    · rfl
  refine hshut.trans ?_
  have hmod : Level (teardownShutdown E fatal i w)
      ((teardownShutdown E fatal i w).modEs i Estream.closeBoth) :=
    of_eq (by simp [Conn.standing]) (by simp)
  refine hmod.trans ?_
  unfold wtReleaseIfDone
  split
  · exact estreamRelease i _
  · rfl

theorem teardown {fatal : Nat → World σ → World σ} (hf : ∀ err v, Level v (fatal err v))
    (is : List Nat) (w : World σ) : Level w (teardown E fatal is w) := by
  induction is generalizing w with
  | nil => rfl
  | cons i is ih => exact (teardownSlot hf i w).trans (ih _)

theorem lost (hE : E.Lawful) (hc : w.conn.closed) : Level w (sessionConnLost E w) := by
  have hclosed : Level w (sessionClosedWith E (fun _ w => w) 0 [] false w) := by
    rw [sessionClosedWith_eq]
    split
    · rfl
    · exact ((setSess (by simp) w).trans (teardown (fun _ v => .refl v) _ _)).trans
        (notify_closed hE rfl ((Frame.teardown (S := .call) fatalOk_skip _ rfl).closed hc))
  have hfailed : Level w (sessionFailed E .connection w) :=
    (setSess (by simp) w).trans (notify_closed hE rfl hc)
  unfold sessionConnLost
  split <;> first | exact hclosed | exact hfailed | rfl

/-- The connection is marked closed. -/
theorem die (e : TransportError) (err : Nat) (w : World σ) : Level w
    ((connLatchError e w).updConn fun c => { c with closed := true, closeCode := err }) := by
  unfold connLatchError
  split
  · exact of_eq rfl rfl
  · exact of_eq rfl rfl

theorem connFatal (hE : E.Lawful) (err : Nat) (w : World σ) : Level w (connFatal E err w) := by
  unfold Engine.connFatal
  split
  · rfl
  · have hdead := (die ⟨.quicApp, err, 0, 0⟩ err w).trans (op (E := E) (.connClose err) _)
    exact hdead.trans ((lost hE rfl).trans
      (notify_closed hE rfl ((Frame.sessionConnLost (S := .call) hE _).closed rfl)))

theorem onConnClosed (hE : E.Lawful) (err : Nat) (remote : Bool) (w : World σ) :
    Level w (onConnClosed E err remote w) := by
  unfold Engine.onConnClosed
  split
  · rfl
  · exact (die ⟨if remote then .quicApp else .local, err, 0, 0⟩ err w).trans ((lost hE rfl).trans
      (notify_closed hE rfl ((Frame.sessionConnLost (S := .call) hE _).closed rfl)))

/-- The CONNECT stream exists; its first bytes are no mark. -/
theorem dialed {i : Nat} {e : Estream} {res : DrvRes} {u : World σ} (hd : Dialed w i e res u) :
    Level w u := by
  obtain ⟨sends, hsends, ht⟩ := hd.trace
  have hc := hd.conn
  have hquiet : ∀ (p : Out → Bool), (∀ o r, p (.op o r) = false) → sends.countP p = 0 := by
    intro p hp
    rw [List.countP_eq_zero]
    intro o ho
    obtain ⟨ds, data, fin, r, rfl⟩ := hsends o ho
    simp [hp]
  refine ⟨by rw [hc]; rfl, ?_, ?_⟩
  · rw [ht]
    simp [Engine.dials, hquiet Out.isDial fun _ _ => rfl, Out.isDial]
  · rw [ht]
    simp [Engine.drains, hquiet Out.isDraining fun _ _ => rfl, Out.isDraining]

end Level

/-! ## The promises -/

/-- What a step may do about the GOAWAY: lower its id, and report a draining session once. Under
a recorded GOAWAY no CONNECT is sent, and no client session begins at or above its id. -/
structure Heeds (w w' : World σ) : Prop where
  persp : w'.conn.persp = w.conn.persp
  goaway : ∀ g, w.conn.goaway = some g → ∃ g', w'.conn.goaway = some g' ∧ g' ≤ g
  session : w.conn.sessionEstablished →
    w'.conn.sessionEstablished ∧ w'.conn.sessionId = w.conn.sessionId
  refused : ∀ g, w.conn.goaway = some g → w.conn.persp = .client →
    w.conn.sessionEstablished = false → w'.conn.sessionEstablished → w'.conn.sessionId < g
  silent : w.conn.goaway.isSome → dials w'.trace = dials w.trace
  drainRx : w.conn.drainRx → w'.conn.drainRx
  once : drains w.trace = (if w.conn.drainRx then 1 else 0) →
    drains w'.trace = if w'.conn.drainRx then 1 else 0

namespace Heeds

@[refl] theorem refl (w : World σ) : Heeds w w where
  persp := rfl
  goaway := fun g hg => ⟨g, hg, Nat.le_refl g⟩
  session := fun he => ⟨he, rfl⟩
  refused := fun _ _ _ hn he => by simp [hn] at he
  silent := fun _ => rfl
  drainRx := id
  once := id

theorem trans (h : Heeds w w') (h' : Heeds w' w'') : Heeds w w'' where
  persp := h'.persp.trans h.persp
  goaway := fun g hg => by
    obtain ⟨g₁, hg₁, hle₁⟩ := h.goaway g hg
    obtain ⟨g₂, hg₂, hle₂⟩ := h'.goaway g₁ hg₁
    exact ⟨g₂, hg₂, Nat.le_trans hle₂ hle₁⟩
  session := fun he => by
    obtain ⟨he', hid'⟩ := h.session he
    obtain ⟨he'', hid''⟩ := h'.session he'
    exact ⟨he'', hid''.trans hid'⟩
  refused := fun g hg hp hn he => by
    -- the session begins in the first step or in the second
    cases hm : w'.conn.sessionEstablished with
    | true =>
      rw [(h'.session hm).2]
      exact h.refused g hg hp hn hm
    | false =>
      obtain ⟨g₁, hg₁, hle⟩ := h.goaway g hg
      exact Nat.lt_of_lt_of_le (h'.refused g₁ hg₁ (h.persp.trans hp) hm he) hle
  silent := fun hg => by
    obtain ⟨g, hg⟩ := Option.isSome_iff_exists.mp hg
    obtain ⟨g₁, hg₁, -⟩ := h.goaway g hg
    exact (h'.silent (by simp [hg₁])).trans (h.silent (by simp [hg]))
  drainRx := h'.drainRx ∘ h.drainRx
  once := h'.once ∘ h.once

theorem of_level (h : Level w w') : Heeds w w' := by
  have hs := h.standing
  simp only [Conn.standing, Standing.mk.injEq] at hs
  obtain ⟨hp, hg, he, hid, hd⟩ := hs
  exact
    { persp := hp
      goaway := fun g hg' => ⟨g, hg.trans hg', Nat.le_refl g⟩
      session := fun h => ⟨he.trans h, hid⟩
      refused := fun _ _ _ hn h => by simp [he, hn] at h
      silent := fun _ => h.dials
      drainRx := fun h => hd.trans h
      once := fun ho => by rw [h.drains, ho, hd] }

/-- A GOAWAY is recorded. -/
theorem goawayTo (go : Option Nat) (h : ∀ g, w.conn.goaway = some g → ∃ g', go = some g' ∧ g' ≤ g) :
    Heeds w (w.updConn fun c => { c with goaway := go }) where
  persp := rfl
  goaway := h
  session := fun he => ⟨he, rfl⟩
  refused := fun _ _ _ hn he => by simp [hn] at he
  silent := fun _ => rfl
  drainRx := id
  once := id

/-- The CONNECT is sent when there is no GOAWAY. -/
theorem sent (hg : w.conn.goaway = none) : Heeds w (w.setSess .sent) where
  persp := rfl
  goaway := fun g hg' => by simp [hg] at hg'
  session := fun he => ⟨he, rfl⟩
  refused := fun _ _ _ hn he => by simp [hn] at he
  silent := fun hs => by simp [hg] at hs
  drainRx := id
  once := fun h => by
    rw [World.trace_setSess, drains_cons]
    exact h

/-- The session begins below the GOAWAY. -/
theorem establish {i id : Nat} (hn : w.conn.sessionEstablished = false)
    (hid : w.conn.persp = .client → ∀ g, w.conn.goaway = some g → id < g) :
    Heeds w (establish i id w) := by
  have hc := conn_establish i id w
  refine ⟨by rw [hc], fun g hg => ⟨g, by rw [hc]; exact hg, Nat.le_refl g⟩,
    fun he => by simp [hn] at he, fun g hg hp _ _ => ?_, fun _ => ?_, fun hd => by rw [hc]; exact hd,
    fun ho => ?_⟩
  · rw [hc]
    exact hid hp g hg
  · rw [trace_establish, dials_cons]
    rfl
  · rw [trace_establish, drains_cons, hc]
    exact ho

/-- The session begins to drain, and says so. -/
theorem beginDrain (hn : w.conn.drainRx = false) :
    Heeds w ((beginDrain w).log (.cb .sessionDraining)) := by
  unfold Engine.beginDrain
  dsimp only
  split <;>
    exact
      { persp := rfl
        goaway := fun g hg => ⟨g, hg, Nat.le_refl g⟩
        session := fun he => ⟨he, rfl⟩
        refused := fun _ _ _ hn he => by
          have he : w.conn.sessionEstablished := he
          simp [hn] at he
        silent := fun _ => rfl
        drainRx := fun _ => rfl
        once := fun h => by
          have h : drains w.trace = 0 := by simpa [hn] using h
          simp only [World.trace_log, World.trace_setSess, World.trace_updConn, drains_cons, h]
          rfl }

end Heeds

/-- Under a GOAWAY an active session has been reported draining. -/
def Warned (w : World σ) : Prop :=
  w.conn.goaway.isSome → w.conn.sessState.active → w.conn.drainRx

/-- A session that runs was established. -/
def Begun (w : World σ) : Prop := w.conn.sessState.active → w.conn.sessionEstablished

/-- A step that keeps the promises. -/
structure Obeys (w w' : World σ) : Prop where
  heeds : Heeds w w'
  warned : Warned w → Warned w'
  begun : Begun w → Begun w'

theorem Warned.of_inactive (h : w.conn.sessState.active = false) : Warned w :=
  fun _ ha => by simp [h] at ha

theorem inactive_of_closed (hw : Coherent D w) (hc : w.conn.closed) :
    w.conn.sessState.active = false := by
  by_contra ha
  simp [hw.open_of_active (by simpa using ha)] at hc

namespace Obeys

@[refl] theorem refl (w : World σ) : Obeys w w := ⟨.refl w, id, id⟩

theorem trans (h : Obeys w w') (h' : Obeys w' w'') : Obeys w w'' :=
  ⟨h.heeds.trans h'.heeds, h'.warned ∘ h.warned, h'.begun ∘ h.begun⟩

theorem of_level (h : Level w w') (hs : w'.conn.sessState = w.conn.sessState) : Obeys w w' := by
  have hst := h.standing
  simp only [Conn.standing, Standing.mk.injEq] at hst
  obtain ⟨-, hgo, he, -, hd⟩ := hst
  refine ⟨.of_level h, fun hw hg ha => ?_, fun hw ha => ?_⟩
  · rw [hd]
    exact hw (hgo ▸ hg) (hs ▸ ha)
  · rw [he]
    exact hw (hs ▸ ha)

theorem of_core (hc : w'.conn.core = w.conn.core) (ht : w'.trace = w.trace) : Obeys w w' :=
  of_level (.of_eq (standing_of_core hc) ht) (congrArg Core.sessState hc :)

/-- A step behind which the session does not run. -/
theorem of_inactive (h : Heeds w w') (ha : w'.conn.sessState.active = false) : Obeys w w' :=
  ⟨h, fun _ => .of_inactive ha, fun _ hb => by simp [ha] at hb⟩

theorem op (o : DrvOp) (w : World σ) : Obeys w (w.op E o).2 := of_level (.op o w) rfl

/-- A callback recipient that keeps the promises, once it has heard. -/
theorem notify (hI : E.Keeps Obeys) {c : Callback} (hc : (Out.cb c).isDraining = false)
    (hw : Coherent D w) : Obeys w (E.notify c w) :=
  (of_level (.log rfl hc w) rfl).trans (hI D c w hw)

/-- A session whose outcome is settled, and the report of it. -/
theorem settled (hI : E.Keeps Obeys) {s : SessState} {c : Callback}
    (hc : (Out.cb c).isDraining = false) (hs : s ≠ .sent) (ha : s.active = false)
    (hw : Coherent D (w.setSess s)) : Obeys w (E.notify c (w.setSess s)) :=
  (of_inactive (.of_level (.setSess hs w)) ha).trans (notify hI hc hw)

/-- The session begins to drain, and says so. -/
theorem beginDrain (hn : w.conn.drainRx = false) (ha : w.conn.sessState.active) :
    Obeys w ((beginDrain w).log (.cb .sessionDraining)) := by
  refine ⟨.beginDrain hn, ?_, fun hw => ?_⟩ <;> unfold Engine.beginDrain <;> dsimp only
  · split <;> exact fun _ _ _ => rfl
  · split <;> exact fun _ => hw ha

theorem draining (hI : E.Keeps Obeys) (hw : Coherent D w) : Obeys w (sessionDraining E w) :=
  hI.sessionDraining .refl .trans (fun _ _ hd ha => .beginDrain hd ha) hw

end Obeys

/-- Behind `session_draining` an active session has been reported draining. -/
theorem warned_draining (hI : E.Keeps Obeys) (hw : Coherent D w) :
    Warned (sessionDraining E w) := by
  unfold sessionDraining
  split
  · next h =>
    intro _ ha
    simp only [sessionActive, Bool.or_eq_true, Bool.not_eq_true'] at h
    rcases h with (hc | hd) | hn
    · simp [hw.open_of_active ha] at hc
    · exact hd
    · simp [ha] at hn
  · intro _ _
    refine (hI D .sessionDraining _ hw.beginDrain).heeds.drainRx ?_
    unfold Engine.beginDrain
    dsimp only
    split <;> rfl

theorem Act.obeys (hE : E.Sound) (hI : E.Keeps Obeys) (hw : Coherent D w) (ha : Act E N D w w') :
    Obeys w w' := by
  have hw' := ha.coherent hE hw
  cases ha with
  | fault f hf => exact .of_core rfl rfl
  | hear i bs => exact .of_core rfl rfl
  | op o ho => exact .op o w
  | detached => exact .of_core rfl rfl
  | conn f hcore hpeer hrec hclosed hans hpark => exact .of_core hcore rfl
  | aged => exact .of_level (.of_eq rfl rfl) rfl
  | letGo i => exact .of_core (by simp [conn_admissionLetGo, Conn.core]) (by simp)
  | forget r => exact .of_core rfl rfl
  | record r q hq => exact .of_core rfl rfl
  | enroll r q hold hr hds hq hes hn => exact .of_core rfl rfl
  | write i e he => exact .of_core rfl rfl
  | spoil i e hold he => exact .of_core rfl rfl
  | born i e hold he hc hds hok hl hn =>
    exact (Obeys.of_level (.log rfl rfl w) rfl).trans (.of_level (.of_eq rfl rfl) rfl)
  | opened i bidi e hold he hds hok hr hid hl hb =>
    exact ((Obeys.op _ w).trans (.of_level (.log rfl rfl _) rfl)).trans
      (.of_level (.of_eq rfl rfl) rfl)
  | entry r i p e hp hwait hold he hc hds hid hl hok =>
    have hclaim : Obeys w (w.claim i e) := .of_level (.of_eq rfl rfl) rfl
    exact (hclaim.trans (.of_level (.log rfl rfl _) rfl)).trans (.of_core rfl rfl)
  | release i e hold hcrit hpark he =>
    refine .of_level (.release w) ?_
    simp [conn_admissionLetGo]
  | named i id hok hn hh => exact .of_core rfl rfl
  | goaway v hv hj =>
    have hgo : Heeds w (w.updConn fun c => { c with goaway := some v }) :=
      .goawayTo _ fun g hg => ⟨v, rfl, hv g hg⟩
    have hc := hw.of_goaway (some v)
    have hdrain := Obeys.draining hI hc
    exact ⟨hgo.trans hdrain.heeds, fun _ => warned_draining hI hc, hdrain.begun⟩
  | givenUp i id go hs hk hgo hid =>
    have hgive : Heeds w (giveUp i id go w) :=
      (Heeds.goawayTo go hgo).trans (.of_level (.of_eq rfl rfl))
    have hcoh : Coherent D ((giveUp i id go w).setSess .failed) :=
      hw.givenUp hs hk (known_of_given hid)
    have hfail := Obeys.settled hI (c := .sessionFailed .connection) rfl (by simp) rfl hcoh
    refine (Obeys.of_inactive hgive ?_).trans hfail
    change w.conn.sessState.active = false
    simp [hs, SessState.active]
  | pending hs hp =>
    exact .of_inactive (.of_level (.setSess (by simp) w)) rfl
  | dialed i e hs hp hd =>
    have hc := hd.conn
    refine .of_inactive ((Heeds.of_level (.dialed hd)).trans (.sent ?_)) rfl
    rw [hc]
    exact hd.silent
  | undialed i err e hs hp hd =>
    exact .of_inactive (.of_level ((Level.dialed hd).trans (.connFatal hE.toLawful err _)))
      (inactive_of_closed hw' (closed_connFatal hE.toLawful err _))
  | notify c hc hop =>
    refine .notify hI ?_ hw
    cases c <;> first | rfl | cases hc
  | failed r hs hp hj =>
    exact .settled hI rfl (by simp) rfl (hw.setSess_over hs hp rfl fun i => .inr (hj i))
  | rejected status hs hj =>
    have he : w.conn.sessState.early := by simp [hs, SessState.early]
    exact .settled hI rfl (by simp) rfl (hw.setSess_over he
      (hw.client_of_early he (by simp [hs])) rfl fun i => .inr (hj i))
  | established i ev hs hk hpark hj hid hgo =>
    have hbegun : Coherent D (establish i (w.es i).id w) := hw.establish hs hk hpark hj
    -- a client has no request streams, and its CONNECT is below the GOAWAY
    have hbelow : w.conn.persp = .client → ∀ g, w.conn.goaway = some g → (w.es i).id < g := by
      intro hp
      rcases hk with ⟨hk, -⟩ | hk
      · have := (hw.slots i (by simp [hk])).served hk
        simp [hp] at this
      · exact hgo hk
    have hreport := Obeys.notify hI (c := .sessionEstablished ev) rfl hbegun
    have hlive := (Heeds.establish (i := i) (hw.early hs) hbelow).trans hreport.heeds
    have hestablished := hreport.begun fun _ => by rw [conn_establish]
    have hcoh := hE.coherent _ (.sessionEstablished ev) _ hbegun
    unfold drainUnderGoaway
    split
    · have hdrain := Obeys.draining hI hcoh
      exact ⟨hlive.trans hdrain.heeds, fun _ => warned_draining hI hcoh,
        fun _ => hdrain.begun hestablished⟩
    · next hnone => exact ⟨hlive, fun _ hg => absurd hg hnone, fun _ => hestablished⟩
  | drained => exact .draining hI hw
  | ended code reason clean hs =>
    rw [sessionClosed, sessionClosedWith_eq, if_neg (by simpa [sessionActive] using hs)]
    have hu : Ending .closed w (w.setSess .closed) := ⟨rfl, _, _, _, rfl⟩
    have hfatal := fatalOk_connFatal hE.toLawful
    obtain ⟨ht, hquiet⟩ := hw.torn_quiet (E := E) hfatal hu
    have hover := congrArg Core.sessState ht.core
    have htorn : Obeys w (teardown E (connFatal E) (List.range w.conn.streamCapacity)
        (w.setSess .closed)) := by
      refine .of_inactive (.of_level ((Level.setSess (by simp) w).trans
        (.teardown (.connFatal hE.toLawful) _ _))) ?_
      exact (congrArg SessState.active hover :)
    exact htorn.trans (.notify hI rfl (hw.finish rfl hu ht hquiet (.inr (hw.judged_of_active hs))
      (.inr (hw.established_of_active hs))))
  | died err hc =>
    exact .of_inactive (.of_level (.connFatal hE.toLawful err w))
      (inactive_of_closed hw' (closed_connFatal hE.toLawful err w))
  | lost err remote hc =>
    refine .of_inactive (.of_level (.onConnClosed hE.toLawful err remote w))
      (inactive_of_closed hw' ?_)
    unfold Engine.onConnClosed
    rw [if_neg (by simp [hc])]
    exact closed_notify hE.toLawful (closed_sessionConnLost hE.toLawful rfl)

theorem obeys_rule : ActRule (σ := σ) (fun _ => True) Obeys where
  call := trivial
  refl := .refl
  trans := .trans
  ret := fun _ => .of_level (.log rfl rfl _) rfl
  ext := fun _ _ => .of_core rfl rfl
  act := fun _ hE hI _ _ _ hw ha => ha.obeys hE hI hw

/-! ## The CONNECT in flight -/

/-- A CONNECT that waits for its response, and whose native id is known, is below the GOAWAY. -/
def Spared (w : World σ) : Prop :=
  w.conn.sessState = .sent → ∀ i, (w.es i).kind = .connect → (w.es i).id ≠ streamIdUnknown →
    ∀ g, w.conn.goaway = some g → (w.es i).id < g

namespace Spared

theorem of_unsent (h : w.conn.sessState ≠ .sent) : Spared w := fun hs => absurd hs h

theorem of_over (h : w.conn.sessState.over) : Spared w := by
  refine .of_unsent fun hs => ?_
  simp [hs, SessState.over] at h

/-- Nothing that a CONNECT in flight is measured by has changed. -/
theorem same (h : Spared w) (hs : w'.conn.sessState = w.conn.sessState)
    (hg : w'.conn.goaway = w.conn.goaway)
    (hslot : ∀ i, (w'.es i).kind = .connect →
      (w.es i).kind = .connect ∧ (w'.es i).id = (w.es i).id) : Spared w' := by
  intro hs' i hk hu g hg'
  obtain ⟨hk', hid⟩ := hslot i hk
  rw [hid] at hu ⊢
  exact h (hs ▸ hs') i hk' hu g (hg ▸ hg')

theorem of_core (h : Spared w) (hc : w'.conn.core = w.conn.core)
    (hp : w'.conn.peer = w.conn.peer) : Spared w' := by
  refine h.same (congrArg Core.sessState hc :) (congrArg Core.goaway hc :) fun i hk => ?_
  have he : w'.es i = w.es i := by rw [World.es, hp]; rfl
  rw [he] at hk ⊢
  exact ⟨hk, rfl⟩

/-- Another content of a slot. -/
theorem putEs {i : Nat} {e : Estream} (h : Spared w)
    (he : e.kind = .connect → (w.es i).kind = .connect ∧ e.id = (w.es i).id) :
    Spared (w.putEs i e) := by
  refine h.same rfl rfl fun j hk => ?_
  rw [World.es_putEs] at hk ⊢
  split
  · next hji =>
    subst hji
    exact he (by simpa using hk)
  · next hji => exact ⟨by simpa [hji] using hk, rfl⟩

theorem estreamRelease (h : Spared w) (i : Nat) : Spared (estreamRelease E i w) := by
  refine h.same (by simp [conn_estreamRelease]) (by simp [conn_estreamRelease]) fun j hk => ?_
  rw [es_estreamRelease] at hk ⊢
  split
  · next hji => simp [hji, Estream.released] at hk
  · next hji => exact ⟨by simpa [hji] using hk, rfl⟩

end Spared

theorem Act.spares (hE : E.Sound) (hI : E.Keeps fun v v' : World σ => Spared v → Spared v')
    (hN : N.heeded) (hw : Coherent D w) (ha : Act E N D w w') (h : Spared w) : Spared w' := by
  have hw' := ha.coherent hE hw
  have hdraining : ∀ {u : World σ}, Coherent D u → Spared u → Spared (sessionDraining E u) := by
    intro u hu
    refine hI.sessionDraining (Q := fun v v' => Spared v → Spared v') (fun _ => id)
      (fun h h' => h' ∘ h) (fun v _ _ ha _ => .of_unsent ?_) hu
    unfold Engine.beginDrain
    dsimp only
    split
    · simp
    · intro hs
      have hs : v.conn.sessState = .sent := hs
      simp [hs, SessState.active] at ha
  cases ha with
  | fault f hf => exact h.of_core rfl rfl
  | hear i bs => exact h.of_core rfl rfl
  | op o ho => exact h.of_core rfl rfl
  | detached => exact h.of_core rfl rfl
  | conn f hcore hpeer hrec hclosed hans hpark => exact h.of_core hcore hpeer
  | aged => exact h.same rfl rfl fun _ hk => ⟨hk, rfl⟩
  | letGo i =>
    exact h.of_core (by simp [conn_admissionLetGo, Conn.core]) (by simp [conn_admissionLetGo])
  | forget r => exact h.of_core rfl rfl
  | record r q hq => exact h.of_core rfl rfl
  | enroll r q hold hr hds hq hes hn => exact h.of_core rfl rfl
  | write i e he =>
    refine h.putEs fun hk => ⟨?_, he.id⟩
    -- no stream becomes a CONNECT
    have hstep := he.kind
    rw [hk] at hstep
    generalize hold : (w.es i).kind = k at hstep
    cases hstep with
    | same => rfl
    | classified _ _ hc => exact absurd rfl hc
  | spoil i e hold he => exact h.putEs fun hk => by simp [he] at hk
  | born i e hold he hc hds hok hl hn =>
    have hds : Spared (w.newDs i).2 := h.of_core rfl rfl
    have haged : Spared ((w.newDs i).2.updConn fun c =>
        { c with streamGeneration := c.streamGeneration + 1 }) :=
      hds.same rfl rfl fun _ hk => ⟨hk, rfl⟩
    exact haged.putEs fun hk => absurd hk hc
  | opened i bidi e hold he hds hok hr hid hl hb =>
    have haged : Spared (((w.op E (World.openOp bidi i)).2.newDs i).2.updConn fun c =>
        { c with streamGeneration := c.streamGeneration + 1 }) :=
      h.same rfl rfl fun _ hk => ⟨hk, rfl⟩
    refine haged.putEs fun hk => ?_
    have hk : e.kind = .connect := hk
    simp [he] at hk
  | entry r i p e hp hwait hold he hc hds hid hl hok =>
    have haged : Spared (w.updConn fun c =>
        { c with streamGeneration := c.streamGeneration + 1 }) :=
      h.same rfl rfl fun _ hk => ⟨hk, rfl⟩
    have hclaim : Spared (w.claim i e) := haged.putEs fun hk => absurd hk hc
    exact hclaim.of_core rfl rfl
  | release i e hold hcrit hpark he =>
    have hdetach : Spared (detachEs E i w) := by
      unfold detachEs
      split
      · exact h.of_core rfl rfl
      · exact h
    have hgo : Spared (admissionLetGo i (detachEs E i w)) :=
      hdetach.of_core (by simp [conn_admissionLetGo, Conn.core]) (by simp [conn_admissionLetGo])
    exact hgo.putEs fun hk => by simp [he] at hk
  | named i id hok hn hh =>
    intro hs j hk hu g hg
    rw [World.es_putEs] at hk hu ⊢
    split
    · next hji =>
      subst hji
      exact hh hN (by simpa using hk) hs g hg
    · next hji => exact h hs j (by simpa [hji] using hk) (by simpa [hji] using hu) g hg
  | goaway v hv hj =>
    refine hdraining (hw.of_goaway (some v)) fun hs i hk hu g hg => ?_
    cases hg
    exact hj hs i hk hu
  | givenUp i id go hs hk hgo hid =>
    exact hI D _ _ (hw.givenUp hs hk (known_of_given hid)) (.of_unsent (by simp))
  | pending hs hp => exact .of_unsent (by simp)
  | dialed i e hs hp hd =>
    have hc := hd.conn
    intro _ j _ _ g hg
    rw [World.conn_setSess, hc] at hg
    have hg : w.conn.goaway = some g := hg
    simp [hd.silent] at hg
  | undialed i err e hs hp hd => exact .of_over (hw'.shut (closed_connFatal hE.toLawful err _))
  | notify c hc hop => exact hI D c w hw (h.of_core rfl rfl)
  | failed r hs hp hj =>
    exact hI D _ _ (hw.setSess_over hs hp rfl fun i => .inr (hj i)) (.of_unsent (by simp))
  | rejected status hs hj =>
    have he : w.conn.sessState.early := by simp [hs, SessState.early]
    exact hI D _ _ (hw.setSess_over he (hw.client_of_early he (by simp [hs])) rfl fun i =>
      .inr (hj i)) (.of_unsent (by simp))
  | established i ev hs hk hpark hj hid hgo =>
    have hbegun : Coherent D (establish i (w.es i).id w) := hw.establish hs hk hpark hj
    have hlive : Spared (E.notify (.sessionEstablished ev) (establish i (w.es i).id w)) :=
      hI D _ _ hbegun (.of_unsent (by simp [conn_establish]))
    unfold drainUnderGoaway
    split
    · exact hdraining (hE.coherent _ _ _ hbegun) hlive
    · exact hlive
  | drained => exact hdraining hw h
  | ended code reason clean hs =>
    rw [sessionClosed, sessionClosedWith_eq, if_neg (by simpa [sessionActive] using hs)]
    have hu : Ending .closed w (w.setSess .closed) := ⟨rfl, _, _, _, rfl⟩
    have hfatal := fatalOk_connFatal hE.toLawful
    obtain ⟨ht, hquiet⟩ := hw.torn_quiet (E := E) hfatal hu
    have hover := congrArg Core.sessState ht.core
    refine hI D _ _ (hw.finish rfl hu ht hquiet (.inr (hw.judged_of_active hs))
      (.inr (hw.established_of_active hs))) (.of_unsent ?_)
    rw [World.conn_log, show (teardown E (connFatal E) (List.range w.conn.streamCapacity)
      (w.setSess .closed)).conn.sessState = .closed from hover]
    simp
  | died err hc => exact .of_over (hw'.shut (closed_connFatal hE.toLawful err w))
  | lost err remote hc =>
    refine .of_over (hw'.shut ?_)
    unfold Engine.onConnClosed
    rw [if_neg (by simp [hc])]
    exact closed_notify hE.toLawful (closed_sessionConnLost hE.toLawful rfl)

theorem spares_rule : ActRule (σ := σ) News.heeded fun w w' => Spared w → Spared w' where
  call := trivial
  refl := fun _ => id
  trans := fun h h' => h' ∘ h
  ret := fun _ h => h.of_core rfl rfl
  ext := fun _ _ h => h.of_core rfl rfl
  act := fun hN hE hI _ _ _ hw ha => ha.spares hE hI hN hw

/-! ## Runs -/

theorem step_obeys (env : Env) (depth : Nat) {s : State} (inp : Input)
    (hw : Coherent .none s.world) : Obeys s.world (step env depth s inp).world := by
  refine (obeys_rule.step env depth trivial (fun _ {i v} hi => ?_) hw).2
  exact .of_level (.estreamRelease i v) (by simp [conn_estreamRelease])

theorem run_obeys (env : Env) (depth : Nat) {s : State} (inputs : List Input)
    (hw : Coherent .none s.world) : Obeys s.world (run env depth s inputs).world := by
  induction inputs generalizing s with
  | nil => exact .refl _
  | cons inp inputs ih =>
    exact (step_obeys env depth inp hw).trans (ih (run_coherent env depth [inp] hw))

theorem goaway_init (cfg : ConnCfg) : (init cfg).world.conn.drainRx = false ∧
    (init cfg).world.conn.goaway = none := by
  unfold init create
  split <;> exact ⟨rfl, rfl⟩

/-- A GOAWAY above the last one, or a smaller MAX_PUSH_ID, kills the connection and is not
recorded. -/
theorem controlGoaway_raised (hE : E.Lawful) {g v : Nat} (hg : w.conn.goaway = some g)
    (hv : g < v) (ho : w.conn.closed = false) : (controlGoaway E v w).conn.epitaph =
      { w.conn.epitaph with closed := true, closeCode := H3Err.idError } := by
  unfold controlGoaway
  rw [if_pos (.inr (by simpa [hg] using hv))]
  exact epitaph_connFatal hE _ ho

theorem controlMaxPushId_lowered (hE : E.Lawful) {m v : Nat} (hm : w.conn.maxPushId = some m)
    (hv : v < m) (ho : w.conn.closed = false) : (controlMaxPushId E v w).conn.epitaph =
      { w.conn.epitaph with closed := true, closeCode := H3Err.idError } := by
  unfold controlMaxPushId
  rw [if_pos (by simpa [hm] using hv)]
  exact epitaph_connFatal hE _ ho

/-- A run all of whose inputs are heeded. -/
def HeededRun (env : Env) (depth : Nat) : State → List Input → Prop
  | _, [] => True
  | s, inp :: rest => inp.heeded s.world.conn ∧ HeededRun env depth (step env depth s inp) rest

theorem run_spares (env : Env) (depth : Nat) {s : State} {inputs : List Input}
    (h : HeededRun env depth s inputs) (hw : Coherent .none s.world) (hs : Spared s.world) :
    Spared (run env depth s inputs).world := by
  induction inputs generalizing s with
  | nil => exact hs
  | cons inp inputs ih =>
    obtain ⟨hheed, hrest⟩ := h
    obtain ⟨hw', hkeep⟩ := spares_rule.step env depth
      (show (inp.news s.world.conn).heeded from hheed)
      (fun _ {i _} _ hv => hv.estreamRelease i) hw
    exact ih hrest hw' (hkeep hs)

/-- When every report of a native id is heeded, a client's CONNECT that waits for its response
with a known id is always below the recorded GOAWAY. The inputs left out report an id at or above
the GOAWAY before the response has come: the engine then goes on to wait. -/
theorem connect_spared (env : Env) (depth : Nat) (cfg : ConnCfg) (inputs : List Input)
    (h : HeededRun env depth (init cfg) inputs) :
    let w := (run env depth (init cfg) inputs).world
    w.conn.sessState = .sent → ∀ i, (w.es i).kind = .connect → (w.es i).id ≠ streamIdUnknown →
      ∀ g, w.conn.goaway = some g → (w.es i).id < g := by
  refine run_spares env depth h (coherent_init cfg) fun _ _ _ _ g hg => ?_
  simp [(goaway_init cfg).2] at hg

/-! ## A client under a GOAWAY -/

/-- A client whose CONNECT has the id 0 hears a GOAWAY for 4, and then the response. -/
def clientGoaway : List Input :=
  clientSession.take 4 ++ [.streamBytes 0 [7, 1, 4] false, .streamBytes 1 [1, 3, 0, 0, 217] false]

/-- A run in which no native id is reported is heeded. -/
theorem HeededRun.of_unnamed {env : Env} {depth : Nat} {s : State} {inputs : List Input}
    (h : ∀ inp ∈ inputs, inp.reports = none) : HeededRun env depth s inputs := by
  induction inputs generalizing s with
  | nil => trivial
  | cons inp inputs ih =>
    refine ⟨?_, ih fun a ha => h a (List.mem_cons_of_mem _ ha)⟩
    have hnone := h inp List.mem_cons_self
    cases inp with
    | nativeId i id => cases hnone
    | _ => trivial

/-- The CONNECT waits under the GOAWAY. -/
theorem connect_spared_waiting :
    let w := (run (.prompt fun _ _ => []) 1 (init { persp := .client }) (clientGoaway.take 5)).world
    w.conn.sessState = .sent ∧ (w.es 1).kind = .connect ∧ w.conn.goaway = some 4 ∧
      (w.es 1).id < 4 := by
  have hsent : let w := (run (.prompt fun _ _ => []) 1 (init { persp := .client })
        (clientGoaway.take 5)).world
      w.conn.sessState = .sent ∧ (w.es 1).kind = .connect ∧ w.conn.goaway = some 4 ∧
        (w.es 1).id ≠ streamIdUnknown := by
    rw [show clientGoaway.take 5 = .start :: .call (.clientConnect plainConnect) ::
      (clientGoaway.take 5).drop 2 from rfl, Env.run_connecting _ ⟨rfl, rfl, rfl, rfl⟩]
    decide +kernel
  obtain ⟨hs, hk, hg, hu⟩ := hsent
  exact ⟨hs, hk, hg, connect_spared (.prompt fun _ _ => []) 1 { persp := .client }
    (clientGoaway.take 5) (.of_unnamed (by decide)) hs 1 hk hu 4 hg⟩

end Wtquic.Engine
