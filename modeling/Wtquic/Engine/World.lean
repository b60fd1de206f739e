-- SUMMARY: The world an engine function runs in: connection, trace, history, audit, and its primitives.
import Mathlib.Logic.Function.Basic
import Wtquic.Engine.Types

namespace Wtquic.Engine

/-! # World

An engine function maps a world to a world. Next to the connection a world holds the
trace, the bytes each stream's frame walk has consumed, and an audit of the memory
accesses that C leaves undefined when they go wrong. The engine reads none of these
three. `ext` is the state of the layer above the engine. -/

/-- The fixed-size buffers whose fill depends on peer input. -/
inductive Buffer where
  | setBuf | parkedBuf | btypeBuf | qpackBuf | admissionPrefix | reason
  deriving DecidableEq, Repr

def Buffer.cap : Buffer → Nat
  | .setBuf => settingsCap
  | .parkedBuf => settingsCap
  | .btypeBuf => btypeCap
  | .qpackBuf => qpackCap
  | .admissionPrefix => prefixCap
  | .reason => Capsule.maxReason

/-- What the audit records. The first two are accesses that run out of their memory, the
others are uses of a slot that is free. -/
inductive Fault where
  /-- a copy that ran past the end of a buffer -/
  | overrun (buf : Buffer)
  /-- an unsigned length subtraction that went below zero -/
  | underflow
  /-- a write to a slot that had been released -/
  | stale (es : Nat)
  /-- a release of a slot that had been released -/
  | doubleRelease (es : Nat)
  deriving DecidableEq, Repr

def Fault.isMemory : Fault → Bool
  | .overrun _ | .underflow => true
  | .stale _ | .doubleRelease _ => false

structure World (σ : Type) where
  conn : Conn
  /-- newest entry first -/
  trace : List Out := []
  /-- the next driver stream to be named; `0` is the null pointer -/
  nextDs : Nat := 1
  /-- by slot and generation -/
  rx : Nat → Nat → Bytes := fun _ _ => []
  faults : List Fault := []
  ext : σ

/-- The surroundings of one engine call: the driver, which answers an operation from
everything that happened before, and the recipient of callbacks. -/
structure Ctx (σ : Type) where
  drv : List Out → DrvOp → DrvRes
  notify : Callback → World σ → World σ

namespace World

variable {σ : Type}

def log (e : Out) (w : World σ) : World σ := { w with trace := e :: w.trace }

/-- Record a fault unless the access is in order. -/
def audit (ok : Bool) (f : Fault) (w : World σ) : World σ :=
  if ok then w else { w with faults := f :: w.faults }

/-- Audit a copy of `n` bytes behind the first `fill` bytes of a buffer. -/
def auditCopy (buf : Buffer) (fill n : Nat) (w : World σ) : World σ :=
  w.audit (fill + n ≤ buf.cap) (.overrun buf)

/-- Audit the unsigned subtraction `a - b`. -/
def auditSub (a b : Nat) (w : World σ) : World σ := w.audit (b ≤ a) .underflow

def updConn (f : Conn → Conn) (w : World σ) : World σ := { w with conn := f w.conn }

/-- Assign `sess_state`. -/
def setSess (s : SessState) (w : World σ) : World σ :=
  (w.updConn fun c => { c with sessState := s }).log (.sess s)

/-! ## Slots -/

def es (w : World σ) (i : Nat) : Estream := w.conn.peer i

/-- Overwrite slot `i`. -/
def putEs (i : Nat) (e : Estream) (w : World σ) : World σ :=
  w.updConn fun c => { c with peer := Function.update c.peer i e }

/-- Write fields of the stream in slot `i`. -/
def modEs (i : Nat) (f : Estream → Estream) (w : World σ) : World σ :=
  (w.audit ((w.es i).kind ≠ .free) (.stale i)).putEs i (f (w.es i))

/-- `memset` of a free slot and the new generation, before its other fields are set. -/
def claim (i : Nat) (e : Estream) (w : World σ) : World σ :=
  let g := w.conn.streamGeneration + 1
  (w.updConn fun c => { c with streamGeneration := g }).putEs i { e with generation := g }

/-- The first free slot of `[first, stop)` that also satisfies `p`. -/
def findFree (first stop : Nat) (p : Estream → Bool) (w : World σ) : Option Nat :=
  (List.range' first (stop - first)).find? fun i => (w.es i).kind == .free && p (w.es i)

/-- The frame walk of slot `i` consumed `bs`. -/
def hear (i : Nat) (bs : Bytes) (w : World σ) : World σ :=
  let g := (w.es i).generation
  { w with rx := Function.update w.rx i (Function.update (w.rx i) g (w.rx i g ++ bs)) }

/-! ## Driver -/

/-- Run a driver operation. -/
def op (E : Ctx σ) (o : DrvOp) (w : World σ) : DrvRes × World σ :=
  let r := E.drv w.trace o
  (r, w.log (.op o r))

/-- A new driver stream comes into being, with slot `i` as its engine context. -/
def newDs (i : Nat) (w : World σ) : Nat × World σ :=
  (w.nextDs, { w with nextDs := w.nextDs + 1 }.log (.attach w.nextDs i))

/-- A new driver stream without an engine context. -/
def newDetachedDs (w : World σ) : Nat × World σ :=
  (w.nextDs, { w with nextDs := w.nextDs + 1 })

/-- `open_uni` or `open_bidi` for slot `i`: on success also the new driver stream. -/
def openFor (E : Ctx σ) (bidi : Bool) (i : Nat) (w : World σ) : DrvRes × Nat × World σ :=
  let (r, w) := w.op E (if bidi then .openBidi i else .openUni (some i))
  if r.rc = .ok then (r, w.newDs i) else (r, 0, w)

/-- `send`, as the condition `ops.send(..) == WTQ_OK`. -/
def send (E : Ctx σ) (ds : Nat) (data : Bytes) (fin : Bool) (w : World σ) : Bool × World σ :=
  let (r, w) := w.op E (.send ds data fin)
  (r.rc == .ok, w)

/-- Two sends of which the second is made only when the first succeeded. -/
def sendBoth (E : Ctx σ) (ds : Nat) (a b : Bytes) (fin : Bool) (w : World σ) : Bool × World σ :=
  let (ok, w) := w.send E ds a false
  if ok then w.send E ds b fin else (false, w)

/-! ## Projections of the primitives -/

@[simp] theorem conn_log (e : Out) (w : World σ) : (w.log e).conn = w.conn := rfl
@[simp] theorem trace_log (e : Out) (w : World σ) : (w.log e).trace = e :: w.trace := rfl
@[simp] theorem nextDs_log (e : Out) (w : World σ) : (w.log e).nextDs = w.nextDs := rfl
@[simp] theorem faults_log (e : Out) (w : World σ) : (w.log e).faults = w.faults := rfl
@[simp] theorem rx_log (e : Out) (w : World σ) : (w.log e).rx = w.rx := rfl
@[simp] theorem ext_log (e : Out) (w : World σ) : (w.log e).ext = w.ext := rfl
@[simp] theorem es_log (e : Out) (w : World σ) : (w.log e).es = w.es := rfl

@[simp] theorem audit_true (f : Fault) (w : World σ) : w.audit true f = w := rfl

@[simp] theorem conn_audit (b : Bool) (f : Fault) (w : World σ) : (w.audit b f).conn = w.conn := by
  cases b <;> rfl

@[simp] theorem trace_audit (b : Bool) (f : Fault) (w : World σ) :
    (w.audit b f).trace = w.trace := by
  cases b <;> rfl

@[simp] theorem nextDs_audit (b : Bool) (f : Fault) (w : World σ) :
    (w.audit b f).nextDs = w.nextDs := by
  cases b <;> rfl

@[simp] theorem rx_audit (b : Bool) (f : Fault) (w : World σ) : (w.audit b f).rx = w.rx := by
  cases b <;> rfl

@[simp] theorem ext_audit (b : Bool) (f : Fault) (w : World σ) : (w.audit b f).ext = w.ext := by
  cases b <;> rfl

@[simp] theorem es_audit (b : Bool) (f : Fault) (w : World σ) : (w.audit b f).es = w.es := by
  cases b <;> rfl

@[simp] theorem conn_updConn (f : Conn → Conn) (w : World σ) : (w.updConn f).conn = f w.conn := rfl
@[simp] theorem trace_updConn (f : Conn → Conn) (w : World σ) : (w.updConn f).trace = w.trace := rfl
@[simp] theorem nextDs_updConn (f : Conn → Conn) (w : World σ) :
    (w.updConn f).nextDs = w.nextDs := rfl
@[simp] theorem faults_updConn (f : Conn → Conn) (w : World σ) :
    (w.updConn f).faults = w.faults := rfl
@[simp] theorem rx_updConn (f : Conn → Conn) (w : World σ) : (w.updConn f).rx = w.rx := rfl
@[simp] theorem ext_updConn (f : Conn → Conn) (w : World σ) : (w.updConn f).ext = w.ext := rfl

theorem es_updConn (f : Conn → Conn) (w : World σ) : (w.updConn f).es = (f w.conn).peer := rfl

@[simp] theorem conn_setSess (s : SessState) (w : World σ) :
    (w.setSess s).conn = { w.conn with sessState := s } := rfl
@[simp] theorem trace_setSess (s : SessState) (w : World σ) :
    (w.setSess s).trace = .sess s :: w.trace := rfl
@[simp] theorem es_setSess (s : SessState) (w : World σ) : (w.setSess s).es = w.es := rfl
@[simp] theorem nextDs_setSess (s : SessState) (w : World σ) : (w.setSess s).nextDs = w.nextDs := rfl
@[simp] theorem faults_setSess (s : SessState) (w : World σ) : (w.setSess s).faults = w.faults := rfl
@[simp] theorem rx_setSess (s : SessState) (w : World σ) : (w.setSess s).rx = w.rx := rfl

@[simp] theorem conn_putEs (i : Nat) (e : Estream) (w : World σ) :
    (w.putEs i e).conn = { w.conn with peer := Function.update w.conn.peer i e } := rfl
@[simp] theorem trace_putEs (i : Nat) (e : Estream) (w : World σ) : (w.putEs i e).trace = w.trace := rfl
@[simp] theorem nextDs_putEs (i : Nat) (e : Estream) (w : World σ) :
    (w.putEs i e).nextDs = w.nextDs := rfl
@[simp] theorem faults_putEs (i : Nat) (e : Estream) (w : World σ) :
    (w.putEs i e).faults = w.faults := rfl
@[simp] theorem rx_putEs (i : Nat) (e : Estream) (w : World σ) : (w.putEs i e).rx = w.rx := rfl
@[simp] theorem ext_putEs (i : Nat) (e : Estream) (w : World σ) : (w.putEs i e).ext = w.ext := rfl

theorem es_putEs (i j : Nat) (e : Estream) (w : World σ) :
    (w.putEs i e).es j = if j = i then e else w.es j := by
  simp only [es, conn_putEs, Function.update_apply]

@[simp] theorem es_putEs_self (i : Nat) (e : Estream) (w : World σ) : (w.putEs i e).es i = e := by
  simp [es_putEs]

theorem es_putEs_of_ne {i j : Nat} (h : j ≠ i) (e : Estream) (w : World σ) :
    (w.putEs i e).es j = w.es j := by
  simp [es_putEs, h]

@[simp] theorem conn_modEs (i : Nat) (f : Estream → Estream) (w : World σ) :
    (w.modEs i f).conn
      = { w.conn with peer := Function.update w.conn.peer i (f (w.conn.peer i)) } := by
  simp [modEs, es]

@[simp] theorem trace_modEs (i : Nat) (f : Estream → Estream) (w : World σ) :
    (w.modEs i f).trace = w.trace := by
  simp [modEs]

@[simp] theorem nextDs_modEs (i : Nat) (f : Estream → Estream) (w : World σ) :
    (w.modEs i f).nextDs = w.nextDs := by
  simp [modEs]

@[simp] theorem rx_modEs (i : Nat) (f : Estream → Estream) (w : World σ) :
    (w.modEs i f).rx = w.rx := by
  simp [modEs]

@[simp] theorem ext_modEs (i : Nat) (f : Estream → Estream) (w : World σ) :
    (w.modEs i f).ext = w.ext := by
  simp [modEs]

theorem es_modEs (i j : Nat) (f : Estream → Estream) (w : World σ) :
    (w.modEs i f).es j = if j = i then f (w.es i) else w.es j := by
  simp [modEs, es_putEs]

@[simp] theorem es_modEs_self (i : Nat) (f : Estream → Estream) (w : World σ) :
    (w.modEs i f).es i = f (w.es i) := by
  simp [es_modEs]

theorem es_modEs_of_ne {i j : Nat} (h : j ≠ i) (f : Estream → Estream) (w : World σ) :
    (w.modEs i f).es j = w.es j := by
  simp [es_modEs, h]

/-- A write to an occupied slot passes the audit. -/
theorem modEs_of_occupied {i : Nat} {w : World σ} (h : (w.es i).kind ≠ .free)
    (f : Estream → Estream) : w.modEs i f = w.putEs i (f (w.es i)) := by
  simp [modEs, h]

@[simp] theorem conn_hear (i : Nat) (bs : Bytes) (w : World σ) : (w.hear i bs).conn = w.conn := rfl
@[simp] theorem trace_hear (i : Nat) (bs : Bytes) (w : World σ) : (w.hear i bs).trace = w.trace := rfl
@[simp] theorem nextDs_hear (i : Nat) (bs : Bytes) (w : World σ) :
    (w.hear i bs).nextDs = w.nextDs := rfl
@[simp] theorem faults_hear (i : Nat) (bs : Bytes) (w : World σ) :
    (w.hear i bs).faults = w.faults := rfl
@[simp] theorem ext_hear (i : Nat) (bs : Bytes) (w : World σ) : (w.hear i bs).ext = w.ext := rfl
@[simp] theorem es_hear (i : Nat) (bs : Bytes) (w : World σ) : (w.hear i bs).es = w.es := rfl

@[simp] theorem op_fst (E : Ctx σ) (o : DrvOp) (w : World σ) : (w.op E o).1 = E.drv w.trace o := rfl

theorem op_snd (E : Ctx σ) (o : DrvOp) (w : World σ) :
    (w.op E o).2 = w.log (.op o (E.drv w.trace o)) := rfl

theorem conn_openFor (E : Ctx σ) (bidi : Bool) (i : Nat) (w : World σ) :
    (w.openFor E bidi i).2.2.conn = w.conn := by
  unfold openFor
  generalize (if bidi then DrvOp.openBidi i else .openUni (some i)) = o
  dsimp only
  split <;> rfl

/-- The operation that opens a driver stream for slot `i`. -/
def openOp (bidi : Bool) (i : Nat) : DrvOp := if bidi then .openBidi i else .openUni (some i)

theorem openFor_fst (E : Ctx σ) (bidi : Bool) (i : Nat) (w : World σ) :
    (w.openFor E bidi i).1 = E.drv w.trace (openOp bidi i) := by
  unfold openFor openOp
  generalize (if bidi then DrvOp.openBidi i else .openUni (some i)) = o
  dsimp only
  split <;> rfl

/-- An open either fails, and nothing but the operation happened, or names a new stream. -/
theorem openFor_inv {E : Ctx σ} {bidi : Bool} {i ds : Nat} {r : DrvRes} {w w' : World σ}
    (h : w.openFor E bidi i = (r, ds, w')) :
    (r.rc ≠ .ok ∧ w' = (w.op E (openOp bidi i)).2) ∨
      (r.rc = .ok ∧ ds = w.nextDs ∧ w' = ((w.op E (openOp bidi i)).2.newDs i).2) := by
  unfold openFor at h
  rw [show (if bidi then DrvOp.openBidi i else .openUni (some i)) = openOp bidi i from rfl] at h
  dsimp only at h
  generalize openOp bidi i = o at h ⊢
  split at h
  · next hr =>
    cases h
    exact .inr ⟨hr, rfl, rfl⟩
  · next hr =>
    cases h
    exact .inl ⟨hr, rfl⟩

end World
end Wtquic.Engine
