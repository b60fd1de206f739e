-- SUMMARY: Early admission: peer streams whose classification prefix is buffered outside the pool.
import Wtquic.Engine.Stream

namespace Wtquic.Engine

/-! # Early admission

A provider record reads a peer stream's preamble before the stream gets a slot. The
records live in `admissionPeers`, by reservation. -/

variable {σ : Type} (E : Ctx σ)

/-- Write a provider record. -/
def World.setAdmission (r : Nat) (p : Option Admission) (w : World σ) : World σ :=
  w.updConn fun c => { c with admissionPeers := Function.update c.admissionPeers r p }

/-- Change a provider record that is still registered. -/
def World.modAdmission (r : Nat) (f : Admission → Admission) (w : World σ) : World σ :=
  w.setAdmission r ((w.conn.admissionPeers r).map f)

/-- Is reservation `r` one that a new record for a stream of this direction may take? -/
def reservationOk (c : Conn) (bidi : Bool) (r : Nat) : Bool :=
  c.admissionEnabled && (c.admissionPeers r).isNone
    && (if c.budgeted then
          r < c.peerCapacity && (if bidi then c.peerUni ≤ r else r < c.peerUni)
            && !(c.peer r).resident
        else r < 15 && (if bidi then 8 ≤ r else r < 8))

/-- `wtq_conn_peer_admission_init` and its successor for budgeted connections. -/
def admissionInit (r : Nat) (bidi : Bool) (id : Nat) (w : World σ) : Rc × World σ :=
  if !reservationOk w.conn bidi r then (.invalidArg, w)
  else if w.conn.closed then (.closed, w)
  else
    let (rc, w) := connOpenLocalsIfDeferred E w
    if rc ≠ .ok then (rc, w)
    else
      let (ds, w) := w.newDetachedDs
      let w := w.setAdmission r (some { bidi, id, ds })
      (.ok, if w.conn.budgeted then w.putEs r { w.es r with resident := true, ds } else w)

/-- `wtq_conn_peer_admission_forget` and its successor. -/
def admissionForget (r : Nat) (w : World σ) : World σ := w.setAdmission r none

/-- `admission_entry`: put the record's stream into slot `index`. -/
def admissionEntry (r index : Nat) (kind : EsKind) (w : World σ) : Option (World σ) :=
  match w.conn.admissionPeers r with
  | none => none
  | some p =>
    if (w.es index).kind ≠ .free then none
    else
      let w := w.claim index { kind, resident := w.conn.budgeted, ds := p.ds, id := p.id }
      let w := w.log (.attach p.ds index)
      some (w.setAdmission r (some { p with es := some index, state := .attached }))

/-- The slots `wtq_conn_peer_admit` may use for reservation `r`. -/
def admitSlots (c : Conn) (r : Nat) : Nat × Nat :=
  if c.budgeted then (r, r + 1)
  else (match c.persp with | .client => 4 | .server => 10, c.streamCapacity)

/-- `wtq_conn_peer_admit`. -/
def peerAdmit (r : Nat) (w : World σ) : Rc × World σ :=
  match w.conn.admissionPeers r with
  | none => (.invalidArg, w)
  | some p =>
    if p.state ≠ .waiting then (.invalidArg, w)
    else if w.conn.closed then (.closed, w)
    else if w.conn.budgeted ∧ r ≥ w.conn.peerCapacity then (.invalidArg, w)
    else
      match w.findFree (admitSlots w.conn r).1 (admitSlots w.conn r).2 fun _ => true with
      | none => (.wouldBlock, w)
      | some i =>
        match admissionEntry r i .wt w with
        | none => (.wouldBlock, w)
        | some w =>
          let (_, w) := wtAssociate E i p.sessionId p.bidi w
          (if w.conn.closed then .proto else .ok, w)

/-- The slot of an admitted HTTP stream: its own when budgeted, else one of the first. -/
def httpSlot (c : Conn) (r : Nat) (bidi : Bool) (type : Nat) : Nat :=
  if c.budgeted then r
  else if bidi then 3 + r - 8
  else if type = 0 then 0 else type - 1

/-- A complete WT preamble in a record. -/
def admissionWt (r : Nat) (p : Admission) (sid used len : Nat) (w : World σ) : Delivery σ :=
  if sid % 4 ≠ 0 then (.proto, used, connFatal E H3Err.idError w)
  else if !sessionMatches w.conn sid then
    let w := shutdownRaw E p.ds p.bidi true (rejectCode w.conn sid) w
    (.ok, len, w.modAdmission r fun p => { p with state := .drain })
  else (.wouldBlock, used, w.modAdmission r fun p => { p with sessionId := sid, state := .waiting })

/-- Hand a bidi stream that is not a WT stream to the request walk. -/
def admissionBidi (tbl : PathTable) (r : Nat) (w : World σ) : Rc × Option Nat × World σ :=
  match w.conn.persp with
  | .client => (.proto, none, connFatal E H3Err.streamCreationError w)
  | .server =>
    let i := httpSlot w.conn r true 0
    match admissionEntry r i .request w with
    | none => (.state, none, w)
    | some w =>
      let pfx := ((w.conn.admissionPeers r).map Admission.pfx).getD []
      (.ok, some i, requestStreamBytes E tbl i pfx w)

/-- Hand a uni stream that is not a WT stream to the control or QPACK parser. -/
def admissionUni (r type : Nat) (w : World σ) : Rc × Option Nat × World σ :=
  if type = 1 then
    (.proto, none, connFatal E
      (if w.conn.persp = .server then H3Err.streamCreationError else H3Err.idError) w)
  else if type ≠ 0 ∧ type ≠ 2 ∧ type ≠ 3 then
    (.ok, none, w.modAdmission r fun p => { p with state := .drain })
  else
    let seen :=
      if type = 0 then w.conn.peerControlSeen
      else if type = 2 then w.conn.qpackEncSeen else w.conn.qpackDecSeen
    if seen then (.proto, none, connFatal E H3Err.streamCreationError w)
    else
      let i := httpSlot w.conn r false type
      match admissionEntry r i .type w with
      | none => (.state, none, w)
      | some w =>
        let (live, w) := classifyUni E i type w
        (if live then .ok else .proto, some i, w)

/-- A FIN inside the prefix of a record. -/
def admissionFin (r : Nat) (p : Admission) (used : Nat) (w : World σ) : Delivery σ :=
  if p.bidi then (.proto, used, connFatal E (btypeFinError w.conn.persp p.decoder) w)
  else (.ok, used, w.modAdmission r fun p => { p with state := .drain })

/-- `peer_admission_bytes` behind the entry of a stream that is not a WT stream. -/
def admissionRest (tbl : PathTable) (r used : Nat) (data : Bytes) (fin : Bool) :
    Rc × Option Nat × World σ → Delivery σ
  | (rc, es, w) =>
    if rc ≠ .ok then (rc, used, w)
    else
      match es with
      | none => (.ok, data.length, w)
      | some i =>
        if w.conn.closed then (.proto, used, w)
        else if (w.conn.admissionPeers r).all (·.es.isNone) then (.ok, data.length, w)
        else
          let (rc, tail, w) := streamBytes E tbl true i (data.drop used) fin w
          (rc, used + tail, w)

/-- Store what the preamble decoder read. -/
def admissionFeed (r : Nat) (p : Admission) (decoder : Preamble.Dec) (used : Nat) (data : Bytes)
    (w : World σ) : World σ :=
  let w := w.auditSub data.length used
  let w := if used > 0 then w.auditCopy .admissionPrefix p.pfx.length used else w
  w.setAdmission r (some { p with decoder, pfx := p.pfx ++ data.take used })

/-- The prefix part of `peer_admission_bytes`. -/
def admissionPrefix (tbl : PathTable) (r : Nat) (p : Admission) (data : Bytes) (fin : Bool)
    (w : World σ) : Delivery σ :=
  let (res, decoder, used) := Preamble.decFeed p.decoder (if p.bidi then .bidi else .uni) data
  let w := admissionFeed r p decoder used data w
  let p := { p with decoder, pfx := p.pfx ++ data.take used }
  match res with
  | .needMore => if fin then admissionFin E r p used w else (.ok, used, w)
  | .ok sid _ _ => admissionWt E r p sid used data.length w
  | .unexpected type =>
    admissionRest E tbl r used data fin
      (if p.bidi then admissionBidi E tbl r w else admissionUni E r type w)

/-- `peer_admission_bytes`. -/
def peerAdmissionBytes (tbl : PathTable) (r : Nat) (data : Bytes) (fin : Bool) (w : World σ) :
    Delivery σ :=
  match w.conn.admissionPeers r with
  | none => (.invalidArg, 0, w)
  | some p =>
    if w.conn.closed then (.closed, 0, w)
    else
      match p.es with
      | some i => streamBytes E tbl true i data fin w
      | none =>
        match p.state with
        | .waiting => (.wouldBlock, 0, w)
        | .drain => (.ok, data.length, w)
        | .reading | .attached => admissionPrefix E tbl r p data fin w

/-- `wtq_conn_stream_retire_v2`. -/
def streamRetire (i ds : Nat) (w : World σ) : World σ :=
  if w.conn.budgeted ∧ i < w.conn.streamCapacity ∧ (w.es i).ds = ds ∧ (w.es i).kind = .free then
    w.putEs i { w.es i with resident := false, ds := 0 }
  else w

end Wtquic.Engine
