-- SUMMARY: What engine functions leave alone, and what a lawful callback recipient does.
import Wtquic.Engine.Run

namespace Wtquic.Engine

/-! # Frames

Every engine function extends the trace, never reopens a closed connection and keeps
the configuration. Beyond that it touches the HTTP streams of its scope only, and a
call from inside a callback, whose scope is empty, leaves all of them alone. -/

variable {σ : Type}

/-- Kinds of streams that only the processing of a backend input touches. -/
def EsKind.http : EsKind → Bool
  | .type | .btype | .control | .qpack | .drain | .connect | .request => true
  | .free | .wt | .reserved => false

@[simp] theorem EsKind.http_free : EsKind.free.http = false := rfl
@[simp] theorem EsKind.http_wt : EsKind.wt.http = false := rfl

theorem EsKind.ne_free_of_http {k : EsKind} (h : k.http) : k ≠ .free := by
  rintro rfl
  cases h

theorem EsKind.ne_wt_of_http {k : EsKind} (h : k.http) : k ≠ .wt := by
  rintro rfl
  cases h

/-- A WT stream whose receive half still waits for the peer's FIN or RESET. -/
def Estream.recvHeld (e : Estream) : Bool := e.kind == .wt && (e.wtRecvOpen || e.wtRecvDrain)

/-- The configuration of a connection, which nothing writes. -/
def Conn.config (c : Conn) : Conn where
  admissionEnabled := c.admissionEnabled
  budgeted := c.budgeted
  streamCapacity := c.streamCapacity
  peerCapacity := c.peerCapacity
  peerUni := c.peerUni
  localCapacity := c.localCapacity
  persp := c.persp
  caps := c.caps
  ecp := c.ecp
  wtProfiles := {}
  wtProfile := .current

/-- The connection without the fields that a call may write. -/
def Conn.mask (c : Conn) : Conn :=
  { c with
    streamGeneration := 0
    admissionPeers := fun _ => none
    wtProfiles := {}
    wtProfile := .current
    closed := false
    closeCode := 0
    transportError := none
    sessState := .idle
    connectSection := []
    offered := []
    requireProtocol := false
    connectDs := 0
    clientResponseOk := false
    clientSelectedOffer := none
    drainRx := false
    peer := fun _ => {} }

/-- What a client has asked for. -/
structure Order where
  profiles : ProfileSet
  offered : List Bytes
  require : Bool
  sec : Bytes
  deriving DecidableEq, Repr

def Conn.order (c : Conn) : Order where
  profiles := c.wtProfiles
  offered := c.offered
  require := c.requireProtocol
  sec := c.connectSection

/-- How far the session and the control stream have come. -/
structure Course where
  sess : SessState
  goaway : Option Nat
  maxPushId : Option Nat
  deriving DecidableEq, Repr

def Conn.course (c : Conn) : Course where
  sess := c.sessState
  goaway := c.goaway
  maxPushId := c.maxPushId

/-- The session does not return to idle and its request stays; GOAWAY only shrinks and
MAX_PUSH_ID only grows. -/
structure Conn.Forward (c c' : Conn) : Prop where
  order : c.sessState ≠ .idle → c'.sessState ≠ .idle ∧ c'.order = c.order
  goaway : ∀ g, c.goaway = some g → ∃ g', c'.goaway = some g' ∧ g' ≤ g
  push : ∀ m, c.maxPushId = some m → ∃ m', c'.maxPushId = some m' ∧ m ≤ m'

namespace Conn.Forward

variable {c c' c'' : Conn}

theorem of_eq (hc : c'.course = c.course) (ho : c'.order = c.order) : c.Forward c' := by
  simp only [Conn.course, Course.mk.injEq] at hc
  obtain ⟨hs, hg, hm⟩ := hc
  exact ⟨fun h => ⟨hs ▸ h, ho⟩, fun g h => ⟨g, hg.trans h, Nat.le_refl g⟩,
    fun m h => ⟨m, hm.trans h, Nat.le_refl m⟩⟩

@[refl] theorem refl (c : Conn) : c.Forward c := .of_eq rfl rfl

theorem trans (h : c.Forward c') (h' : c'.Forward c'') : c.Forward c'' where
  order := fun hs =>
    have h₁ := h.order hs
    have h₂ := h'.order h₁.1
    ⟨h₂.1, h₂.2.trans h₁.2⟩
  goaway := fun g hg => by
    obtain ⟨g₁, hg₁, hle₁⟩ := h.goaway g hg
    obtain ⟨g₂, hg₂, hle₂⟩ := h'.goaway g₁ hg₁
    exact ⟨g₂, hg₂, Nat.le_trans hle₂ hle₁⟩
  push := fun m hm => by
    obtain ⟨m₁, hm₁, hle₁⟩ := h.push m hm
    obtain ⟨m₂, hm₂, hle₂⟩ := h'.push m₁ hm₁
    exact ⟨m₂, hm₂, Nat.le_trans hle₁ hle₂⟩

/-- A request may be placed while the session is idle. -/
theorem of_idle (hs : c.sessState = .idle) (hc : c'.course = c.course) : c.Forward c' where
  order := fun hn => absurd hs hn
  goaway := fun g hg => ⟨g, (congrArg Course.goaway hc).trans hg, Nat.le_refl g⟩
  push := fun m hm => ⟨m, (congrArg Course.maxPushId hc).trans hm, Nat.le_refl m⟩

end Conn.Forward

/-- The parser state of a stream that has not read a byte. -/
def Estream.blank (e : Estream) : Prop :=
  { e with resident := false, generation := 0, kind := .free, ds := 0, id := 0,
           nativeIdPending := false, user := none } = {}

/-- No slot has a generation of the future, and none of the future has been heard. -/
structure World.Fresh (w : World σ) : Prop where
  gen : ∀ i, (w.es i).generation ≤ w.conn.streamGeneration
  rx : ∀ i g, w.conn.streamGeneration < g → w.rx i g = []

/-- The stream in slot `i` has not read a byte. -/
def World.Newborn (w : World σ) (i : Nat) : Prop :=
  (w.es i).blank ∧ w.rx i (w.es i).generation = []

/-- The accesses that ran out of their memory. -/
def World.memoryFaults (w : World σ) : List Fault := w.faults.filter Fault.isMemory

/-- What a function may touch: the HTTP streams in `slots`, and, when `top` holds, the
connection fields that belong to input processing. -/
structure Scope where
  slots : Nat → Prop
  top : Prop

/-- The scope of a call. -/
def Scope.call : Scope := ⟨fun _ => False, False⟩

/-- The scope of an input for slot `i`. -/
def Scope.input (i : Nat) : Scope := ⟨fun j => j = i, True⟩

/-- The scope of an input that may touch every slot. -/
def Scope.all : Scope := ⟨fun _ => True, True⟩

/-- A scope with one more slot. -/
def Scope.insert (S : Scope) (i : Nat) : Scope := ⟨fun j => S.slots j ∨ j = i, S.top⟩

/-- What a function of scope `S` leaves alone. -/
structure Frame (S : Scope) (w w' : World σ) : Prop where
  trace : w.trace <:+ w'.trace
  closed : w.conn.closed → w'.conn.closed
  latched : w'.conn.profileLatched = w.conn.profileLatched ∨
    (w'.conn.profileLatched ∧ .cb (.peerSettings true) ∈ w'.trace)
  gen : w.conn.streamGeneration ≤ w'.conn.streamGeneration
  nextDs : w.nextDs ≤ w'.nextDs
  config : w'.conn.config = w.conn.config
  forward : w.conn.Forward w'.conn
  http : ∀ i, ¬ S.slots i → (w.es i).kind.http → w'.es i = w.es i
  held : ∀ i, ¬ S.slots i → (w.es i).recvHeld →
    (w'.es i).recvHeld ∧ (w'.es i).generation = (w.es i).generation
  rx : ∀ i, ¬ S.slots i → w'.rx i = w.rx i
  fresh : w.Fresh → w'.Fresh
  born : w.Fresh → ∀ i, ¬ S.slots i → ¬ (w.es i).kind.http → (w'.es i).kind.http → w'.Newborn i
  calm : ¬ S.top → w'.conn.mask = w.conn.mask ∧ w'.memoryFaults = w.memoryFaults

namespace Frame

variable {S T : Scope} {w w' w'' : World σ}

@[refl] theorem refl (w : World σ) : Frame S w w where
  trace := List.suffix_refl _
  closed := id
  latched := .inl rfl
  gen := Nat.le_refl _
  nextDs := Nat.le_refl _
  config := rfl
  forward := .refl _
  http := fun _ _ _ => rfl
  held := fun _ _ h => ⟨h, rfl⟩
  rx := fun _ _ => rfl
  fresh := id
  born := fun _ _ _ hn h => absurd h hn
  calm := fun _ => ⟨rfl, rfl⟩

theorem trans (h : Frame S w w') (h' : Frame S w' w'') : Frame S w w'' where
  trace := h.trace.trans h'.trace
  closed := h'.closed ∘ h.closed
  latched := by
    rcases h'.latched with e' | h'l
    · exact h.latched.imp e'.trans fun hl => ⟨e' ▸ hl.1, h'.trace.subset hl.2⟩
    · exact .inr h'l
  gen := Nat.le_trans h.gen h'.gen
  nextDs := Nat.le_trans h.nextDs h'.nextDs
  config := h'.config.trans h.config
  forward := h.forward.trans h'.forward
  http := fun i hi hk => by
    have e := h.http i hi hk
    exact (h'.http i hi (e ▸ hk)).trans e
  held := fun i hi hh => by
    obtain ⟨h₁, g₁⟩ := h.held i hi hh
    obtain ⟨h₂, g₂⟩ := h'.held i hi h₁
    exact ⟨h₂, g₂.trans g₁⟩
  rx := fun i hi => (h'.rx i hi).trans (h.rx i hi)
  fresh := h'.fresh ∘ h.fresh
  born := fun hf i hi hn hk => by
    by_cases hm : (w'.es i).kind.http
    · have hb := h.born hf i hi hn hm
      rw [World.Newborn, h'.http i hi hm, h'.rx i hi]
      exact hb
    · exact h'.born (h.fresh hf) i hi hm hk
  calm := fun ht => ⟨(h'.calm ht).1.trans (h.calm ht).1, (h'.calm ht).2.trans (h.calm ht).2⟩

/-- A larger scope allows more. -/
theorem mono (h : Frame S w w') (hs : ∀ i, S.slots i → T.slots i) (ht : S.top → T.top) :
    Frame T w w' :=
  { h with
    http := fun i hi => h.http i (hi ∘ hs i)
    held := fun i hi => h.held i (hi ∘ hs i)
    rx := fun i hi => h.rx i (hi ∘ hs i)
    born := fun hf i hi => h.born hf i (hi ∘ hs i)
    calm := fun hn => h.calm (hn ∘ ht) }

/-- A latched profile stays. -/
theorem latched_mono (h : Frame S w w') (hl : w.conn.profileLatched) : w'.conn.profileLatched :=
  h.latched.elim (fun e => e ▸ hl) And.left

/-- A latched profile has been reported. -/
theorem reported (h : Frame S w w')
    (hw : w.conn.profileLatched → .cb (.peerSettings true) ∈ w.trace)
    (hl : w'.conn.profileLatched) : .cb (.peerSettings true) ∈ w'.trace :=
  h.latched.elim (fun e => h.trace.subset (hw (e ▸ hl))) And.right

theorem of_call (h : Frame .call w w') : Frame S w w' := h.mono (fun _ => False.elim) False.elim

theorem insert (h : Frame S w w') (i : Nat) : Frame (S.insert i) w w' :=
  h.mono (fun _ => Or.inl) id

/-- A slot that was free at the start, and heard nothing since, needs no place in the
scope. -/
theorem of_insert {i : Nat} (h : Frame (S.insert i) w w') (hi : (w.es i).kind = .free)
    (hrx : w'.rx i = w.rx i) (hb : w.Fresh → (w'.es i).kind.http → w'.Newborn i) :
    Frame S w w' :=
  { h with
    http := fun j hj hk =>
      h.http j (fun hs => hs.elim hj fun e => by subst e; simp [hi] at hk) hk
    held := fun j hj hk =>
      h.held j (fun hs => hs.elim hj fun e => by
        subst e; simp [Estream.recvHeld, hi] at hk) hk
    rx := fun j hj => by
      by_cases hji : j = i
      · exact hji ▸ hrx
      · exact h.rx j fun hs => hs.elim hj hji
    born := fun hf j hj hn hk => by
      by_cases hji : j = i
      · exact hji ▸ hb hf (hji ▸ hk)
      · exact h.born hf j (fun hs => hs.elim hj hji) hn hk }

/-- A step that changes neither slots nor any connection field. -/
theorem of_conn_eq (ht : w.trace <:+ w'.trace) (hd : w.nextDs ≤ w'.nextDs)
    (hc : w'.conn = w.conn) (hr : w'.rx = w.rx)
    (hm : ¬ S.top → w'.memoryFaults = w.memoryFaults) : Frame S w w' where
  trace := ht
  closed := by rw [hc]; exact id
  latched := .inl (by rw [hc])
  gen := Nat.le_of_eq (by rw [hc])
  nextDs := hd
  config := by rw [hc]
  forward := by rw [hc]
  http := fun i _ _ => by simp [World.es, hc]
  held := fun i _ h => by simpa [World.es, hc] using h
  rx := fun _ _ => by rw [hr]
  fresh := fun ⟨hg, hx⟩ => ⟨by simpa [World.es, hc] using hg, by rw [hc, hr]; exact hx⟩
  born := fun _ i _ hn hk => absurd hk (by simpa [World.es, hc] using hn)
  calm := fun hn => ⟨by rw [hc], hm hn⟩

theorem log (e : Out) (w : World σ) : Frame S w (w.log e) :=
  of_conn_eq (List.suffix_cons _ _) (Nat.le_refl _) rfl rfl fun _ => rfl

theorem op (E : Ctx σ) (o : DrvOp) (w : World σ) : Frame S w (w.op E o).2 := log _ _

theorem audit {f : Fault} (h : S.top ∨ f.isMemory = false) (b : Bool) (w : World σ) :
    Frame S w (w.audit b f) := by
  refine of_conn_eq (by simp) (by simp) (by simp) (by simp) fun hn => ?_
  cases b with
  | true => rfl
  | false => simp [World.memoryFaults, World.audit, h.resolve_left hn]

/-- The walk of a slot in the scope consumes bytes. -/
theorem hear {i : Nat} (hi : S.slots i) (bs : Bytes) (w : World σ) : Frame S w (w.hear i bs) where
  trace := List.suffix_refl _
  closed := id
  latched := .inl rfl
  gen := Nat.le_refl _
  nextDs := Nat.le_refl _
  config := rfl
  forward := .refl _
  http := fun _ _ _ => rfl
  held := fun _ _ h => ⟨h, rfl⟩
  rx := fun j hj => by
    have hji : j ≠ i := fun e => hj (e ▸ hi)
    simp [World.hear, hji]
  fresh := fun ⟨hg, hx⟩ => ⟨hg, fun j g hlt => by
    by_cases hji : j = i
    · subst hji
      have hne : g ≠ (w.es j).generation := Nat.ne_of_gt (Nat.lt_of_le_of_lt (hg j) hlt)
      simpa [World.hear, hne] using hx j g hlt
    · simpa [World.hear, hji] using hx j g hlt⟩
  born := fun _ _ _ hn hk => absurd hk hn
  calm := fun _ => ⟨rfl, rfl⟩

theorem newDetachedDs (w : World σ) : Frame S w w.newDetachedDs.2 :=
  of_conn_eq (List.suffix_refl _) (Nat.le_succ _) rfl rfl fun _ => rfl

theorem newDs (i : Nat) (w : World σ) : Frame S w (w.newDs i).2 :=
  of_conn_eq (List.suffix_cons _ _) (Nat.le_succ _) rfl rfl fun _ => rfl

/-- A connection write that leaves the slots alone. -/
theorem updConn {f : Conn → Conn} (hp : (f w.conn).peer = w.conn.peer)
    (hg : (f w.conn).streamGeneration = w.conn.streamGeneration)
    (hc : w.conn.closed → (f w.conn).closed)
    (hl : (f w.conn).profileLatched = w.conn.profileLatched)
    (hk : (f w.conn).config = w.conn.config) (hf : w.conn.Forward (f w.conn))
    (hm : ¬ S.top → (f w.conn).mask = w.conn.mask) : Frame S w (w.updConn f) where
  trace := List.suffix_refl _
  closed := hc
  latched := .inl hl
  gen := by simp [hg]
  nextDs := Nat.le_refl _
  config := hk
  forward := hf
  http := fun i _ _ => by simp [World.es, hp]
  held := fun i _ h => by simpa [World.es, hp] using h
  rx := fun _ _ => rfl
  fresh := fun ⟨hgen, hx⟩ =>
    ⟨by simpa [World.es, hp, hg] using hgen, by simpa [hg] using hx⟩
  born := fun _ i _ hn hk => absurd hk (by simpa [World.es, hp] using hn)
  calm := fun hn => ⟨hm hn, rfl⟩

theorem setSess {s : SessState} (hs : s ≠ .idle) (w : World σ) : Frame S w (w.setSess s) :=
  (Frame.updConn rfl rfl id rfl rfl
    ⟨fun _ => ⟨hs, rfl⟩, fun g h => ⟨g, h, Nat.le_refl g⟩, fun m h => ⟨m, h, Nat.le_refl m⟩⟩
    fun _ => rfl).trans (log _ _)

/-- A slot write: in the scope, or on a stream that neither is nor becomes an HTTP stream
and keeps what it holds. -/
theorem putEs {i : Nat} {e : Estream}
    (h : S.slots i ∨ ((w.es i).kind.http = false ∧ e.kind.http = false ∧
      ((w.es i).recvHeld → e.recvHeld)))
    (hg : e.generation = (w.es i).generation) : Frame S w (w.putEs i e) where
  trace := List.suffix_refl _
  closed := id
  latched := .inl rfl
  gen := Nat.le_refl _
  nextDs := Nat.le_refl _
  config := rfl
  forward := .of_eq rfl rfl
  http := fun j hj hk => by
    rw [World.es_putEs]
    split
    · next he =>
      subst he
      rcases h with h | h
      · exact absurd h hj
      · simp [h.1] at hk
    · rfl
  held := fun j hj hh => by
    rw [World.es_putEs]
    split
    · next he =>
      subst he
      rcases h with h | h
      · exact absurd h hj
      · exact ⟨h.2.2 hh, hg⟩
    · exact ⟨hh, rfl⟩
  rx := fun _ _ => rfl
  fresh := fun ⟨hgen, hx⟩ => by
    refine ⟨fun j => ?_, hx⟩
    rw [World.es_putEs]
    split
    · next he => exact hg ▸ he ▸ hgen j
    · exact hgen j
  born := fun _ j hj hn hk => by
    rw [World.es_putEs] at hk
    split at hk
    · next he =>
      subst he
      rcases h with h | h
      · exact absurd h hj
      · simp [h.2.1] at hk
    · exact absurd hk hn
  calm := fun _ => ⟨rfl, rfl⟩

theorem modEs {i : Nat} {f : Estream → Estream}
    (h : S.slots i ∨ ((w.es i).kind.http = false ∧ (f (w.es i)).kind.http = false ∧
      ((w.es i).recvHeld → (f (w.es i)).recvHeld)))
    (hg : (f (w.es i)).generation = (w.es i).generation) :
    Frame S w (w.modEs i f) :=
  (audit (.inr rfl) _ w).trans (putEs (by simpa using h) (by simpa using hg))

theorem modEs_scope {i : Nat} (h : S.slots i) (f : Estream → Estream) (w : World σ)
    (hg : (f (w.es i)).generation = (w.es i).generation) :
    Frame S w (w.modEs i f) :=
  modEs (.inl h) hg

/-- A free slot may be claimed for a stream that has not read a byte. -/
theorem claim {i : Nat} (hi : (w.es i).kind = .free) (e : Estream) (he : e.blank) :
    Frame S w (w.claim i e) where
  trace := List.suffix_refl _
  closed := id
  latched := .inl rfl
  gen := Nat.le_succ _
  nextDs := Nat.le_refl _
  config := rfl
  forward := .of_eq rfl rfl
  http := fun j _ hk => by
    have hji : j ≠ i := by rintro rfl; simp [hi] at hk
    exact World.es_putEs_of_ne hji _ _
  held := fun j _ hh => by
    have hji : j ≠ i := by rintro rfl; simp [Estream.recvHeld, hi] at hh
    rw [World.claim, World.es_putEs_of_ne hji]
    exact ⟨hh, rfl⟩
  rx := fun _ _ => rfl
  fresh := fun ⟨hg, hx⟩ => by
    refine ⟨fun j => ?_, fun j g hlt => hx j g (Nat.lt_of_succ_lt hlt)⟩
    rw [World.claim, World.es_putEs]
    split
    · exact Nat.le_refl _
    · exact Nat.le_succ_of_le (hg j)
  born := fun ⟨_, hx⟩ j _ hn hk => by
    have hji : j = i := by
      by_contra hji
      rw [World.claim, World.es_putEs_of_ne hji] at hk
      exact hn hk
    subst hji
    refine ⟨?_, ?_⟩
    · simpa [World.claim, Estream.blank] using he
    · simpa [World.claim] using hx j _ (Nat.lt_succ_self _)
  calm := fun _ => ⟨rfl, rfl⟩

end Frame

/-! ## Callback recipients -/

/-- Nothing happened but for the `user` fields, the transport-error record and the layer
above. -/
structure Still (w w' : World σ) : Prop where
  trace : w'.trace = w.trace
  nextDs : w'.nextDs = w.nextDs
  faults : w'.faults = w.faults
  rx : w'.rx = w.rx
  conn : ∃ (te : Option TransportError) (user : Nat → Option Nat), w'.conn = { w.conn with
    transportError := te
    peer := fun i => { w.conn.peer i with user := user i } }

namespace Still

variable {w w' w'' : World σ}

@[refl] theorem refl (w : World σ) : Still w w :=
  ⟨rfl, rfl, rfl, rfl, w.conn.transportError, fun i => (w.conn.peer i).user, rfl⟩

theorem trans (h : Still w w') (h' : Still w' w'') : Still w w'' := by
  obtain ⟨te, user, hc⟩ := h.conn
  obtain ⟨te', user', hc'⟩ := h'.conn
  refine ⟨h'.trace.trans h.trace, h'.nextDs.trans h.nextDs, h'.faults.trans h.faults,
    h'.rx.trans h.rx, te', user', ?_⟩
  rw [hc', hc]

theorem closed (h : Still w w') : w'.conn.closed = w.conn.closed := by
  obtain ⟨te, user, hc⟩ := h.conn
  rw [hc]

theorem es (h : Still w w') (i : Nat) : ∃ u, w'.es i = { w.es i with user := u } := by
  obtain ⟨te, user, hc⟩ := h.conn
  exact ⟨user i, by simp only [World.es, hc]⟩

end Still

/-- A callback recipient whose calls stay in the scope of a call. On a closed connection
a callback has no effect but to be called. -/
structure Ctx.Lawful (E : Ctx σ) : Prop where
  logs : ∀ c w, .cb c :: w.trace <:+ (E.notify c w).trace
  frame : ∀ c w, Frame .call w (E.notify c w)
  quiet : ∀ c w, w.conn.closed → Still ((w.log (.cb c)).log .ret) (E.notify c w)

end Wtquic.Engine
