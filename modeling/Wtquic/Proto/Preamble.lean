-- SUMMARY: WebTransport stream preambles: codepoint varint plus session id varint.
import Wtquic.Proto.Varint

namespace Wtquic.Preamble

/-! # Stream preambles

The model of `preamble.c`. -/

inductive Kind where
  | bidi
  | uni
  deriving DecidableEq, Repr

/-- `WTQ_PREAMBLE_BIDI` and `WTQ_PREAMBLE_UNI`. -/
def kindCodepoint : Kind → Nat
  | .bidi => 0x41
  | .uni => 0x54

def encode (kind : Kind) (sessionId cap : Nat) : Except Varint.Error Bytes :=
  let type := kindCodepoint kind
  if sessionId > Varint.max then .error .range
  else if cap < Varint.len type + Varint.len sessionId then .error .buffer
  else do
    let t ← Varint.encode type cap
    let s ← Varint.encode sessionId (cap - t.length)
    return t ++ s

/-! ## Incremental decoder -/

inductive DecState where
  | type
  | session
  | poisoned
  deriving DecidableEq, Repr

/-- `wtq_preamble_dec_t`. -/
structure Dec where
  vi : Varint.Dec := {}
  state : DecState := .type
  wireType : Nat := 0
  hdrBytes : Nat := 0
  deriving DecidableEq, Repr

def decInit : Dec := {}

/-- The outcomes of a feed. `unexpected` carries the wire type to route on. -/
inductive Result where
  | needMore
  | ok (sessionId headerLen wireType : Nat)
  | unexpected (wireType : Nat)
  deriving DecidableEq, Repr

def decFeedSession (d : Dec) (src : Bytes) (eaten : Nat) : Result × Dec × Nat :=
  match Varint.decFeed d.vi src with
  | (none, vi, c) => (.needMore, { d with vi, hdrBytes := d.hdrBytes + c }, eaten + c)
  | (some sid, _, c) => (.ok sid (d.hdrBytes + c) d.wireType, decInit, eaten + c)

/-- `wtq_preamble_dec_feed`. -/
def decFeed (d : Dec) (expect : Kind) (src : Bytes) : Result × Dec × Nat :=
  match d.state with
  | .poisoned => (.unexpected d.wireType, d, 0)
  | .type =>
    match Varint.decFeed d.vi src with
    | (none, vi, c) => (.needMore, { d with vi, hdrBytes := d.hdrBytes + c }, c)
    | (some v, vi, c) =>
      if v ≠ kindCodepoint expect then
        (.unexpected v,
          { vi, state := .poisoned, wireType := v, hdrBytes := d.hdrBytes + c }, c)
      else
        decFeedSession { vi, state := .session, wireType := v, hdrBytes := d.hdrBytes + c }
          (src.drop c) c
  | .session => decFeedSession d src 0

/-- `wtq_preamble_decode`. -/
def decode (expect : Kind) (src : Bytes) : Result := (decFeed decInit expect src).1

/-! ## Feeding in pieces -/

/-- A session id that follows `n` bytes of the same feed. -/
theorem decFeedSession_add (d : Dec) (src : Bytes) (n : Nat) :
    decFeedSession d src n =
      ((decFeedSession d src 0).1, (decFeedSession d src 0).2.1,
        n + (decFeedSession d src 0).2.2) := by
  unfold decFeedSession
  generalize Varint.decFeed d.vi src = x
  obtain ⟨r, vi, c⟩ := x
  cases r <;> simp

theorem incremental_session :
    Incremental (fun d src => decFeedSession d src 0) (· = .needMore) where
  all d a h := by
    have hall := Varint.incremental.all d.vi a
    unfold decFeedSession at h ⊢
    generalize Varint.decFeed d.vi a = x at h hall ⊢
    obtain ⟨r, vi, c⟩ := x
    cases r with
    | none => simpa using hall rfl
    | some v => cases h
  resume d a b h := by
    have hres := Varint.incremental.resume d.vi a b
    have hall := Varint.incremental.all d.vi a
    unfold decFeedSession at h ⊢
    generalize Varint.decFeed d.vi a = x at h hres hall ⊢
    obtain ⟨r, vi, c⟩ := x
    cases r with
    | some v => cases h
    | none =>
      obtain rfl := hall rfl
      rw [hres rfl]
      dsimp only
      generalize Varint.decFeed vi b = y
      obtain ⟨r', vi', c'⟩ := y
      cases r' <;> simp [Nat.add_assoc]
  stop d a b h := by
    have hstop := Varint.incremental.stop d.vi a b
    unfold decFeedSession at h ⊢
    generalize Varint.decFeed d.vi a = x at h hstop ⊢
    obtain ⟨r, vi, c⟩ := x
    cases r with
    | none => exact absurd rfl h
    | some v => rw [hstop nofun]
  used d a := by
    have hused := Varint.incremental.used d.vi a
    unfold decFeedSession
    generalize Varint.decFeed d.vi a = x at hused ⊢
    obtain ⟨r, vi, c⟩ := x
    cases r <;> simp_all
  le d a := by
    have hle := Varint.incremental.le d.vi a
    unfold decFeedSession
    generalize Varint.decFeed d.vi a = x at hle ⊢
    obtain ⟨r, vi, c⟩ := x
    cases r <;> simpa using hle

/-- The state behind a type. -/
def Dec.typed (d : Dec) (vi : Varint.Dec) (wireType c : Nat) : Dec :=
  { vi, state := .session, wireType, hdrBytes := d.hdrBytes + c }

/-- What a feed makes of the type varint. -/
def Dec.afterType (d : Dec) (expect : Kind) (src : Bytes) :
    Option Nat → Varint.Dec → Nat → Result × Dec × Nat
  | none, vi, c => (.needMore, { d with vi, hdrBytes := d.hdrBytes + c }, c)
  | some v, vi, c =>
    if v ≠ kindCodepoint expect then (.unexpected v, { d.typed vi v c with state := .poisoned }, c)
    else
      ((decFeedSession (d.typed vi v c) (src.drop c) 0).1,
        (decFeedSession (d.typed vi v c) (src.drop c) 0).2.1,
        c + (decFeedSession (d.typed vi v c) (src.drop c) 0).2.2)

theorem decFeed_of_type {d : Dec} (hd : d.state = .type) (expect : Kind) {src : Bytes} {c : Nat}
    {r : Option Nat} {vi : Varint.Dec} (h : Varint.decFeed d.vi src = (r, vi, c)) :
    decFeed d expect src = d.afterType expect src r vi c := by
  rw [decFeed, hd]
  dsimp only
  rw [h]
  cases r with
  | none => rw [Dec.afterType, hd]
  | some v =>
    dsimp only [Dec.afterType]
    rw [decFeedSession_add]
    rfl

theorem decFeed_session {d : Dec} (h : d.state = .session) (expect : Kind) (src : Bytes) :
    decFeed d expect src = decFeedSession d src 0 := by
  rw [decFeed, h]

theorem decFeed_poisoned {d : Dec} (h : d.state = .poisoned) (expect : Kind) (src : Bytes) :
    decFeed d expect src = (.unexpected d.wireType, d, 0) := by
  rw [decFeed, h]

theorem decFeedSession_state {d : Dec} {src : Bytes} (hd : d.state = .session)
    (h : (decFeedSession d src 0).1 = .needMore) :
    (decFeedSession d src 0).2.1.state = .session := by
  unfold decFeedSession at h ⊢
  generalize Varint.decFeed d.vi src = x at h ⊢
  obtain ⟨r, vi, c⟩ := x
  cases r with
  | none => exact hd
  | some v => cases h

theorem incremental (expect : Kind) :
    Incremental (fun d src => decFeed d expect src) (· = .needMore) where
  all d a h := by
    cases hd : d.state with
    | poisoned => simp [decFeed_poisoned hd] at h
    | session =>
      simp only [decFeed_session hd] at h ⊢
      exact incremental_session.all d a h
    | type =>
      have hle := Varint.incremental.le d.vi a
      rcases hx : Varint.decFeed d.vi a with ⟨_ | v, vi, c⟩
      · simpa [decFeed_of_type hd expect hx, Dec.afterType, hx] using Varint.incremental.all d.vi a (by rw [hx])
      · simp only [hx] at hle
        simp only [decFeed_of_type hd expect hx, Dec.afterType] at h ⊢
        split at h
        · cases h
        · next hv =>
          rw [if_neg hv]
          have := incremental_session.all (d.typed vi v c) (a.drop c) h
          simp only [this, List.length_drop]
          omega
  resume d a b h := by
    cases hd : d.state with
    | poisoned => simp [decFeed_poisoned hd] at h
    | session =>
      simp only [decFeed_session hd] at h
      simp only [decFeed_session hd, decFeed_session (decFeedSession_state hd h)]
      exact incremental_session.resume d a b h
    | type =>
      have hle := Varint.incremental.le d.vi a
      rcases hx : Varint.decFeed d.vi a with ⟨_ | v, vi, c⟩
      · have hc := Varint.incremental.all d.vi a (by rw [hx])
        have hres := Varint.incremental.resume d.vi a b (by rw [hx])
        simp only [hx] at hc hres
        subst hc
        simp only [decFeed_of_type hd expect hx, Dec.afterType]
        rcases hy : Varint.decFeed vi b with ⟨r, vi', c'⟩
        simp only [hy] at hres
        rw [decFeed_of_type hd expect hres,
          decFeed_of_type (d := { d with vi, hdrBytes := _ }) hd expect hy]
        cases r with
        | none => simp [Dec.afterType, Nat.add_assoc]
        | some v' =>
          simp only [Dec.afterType]
          split
          · simp [Dec.typed, Nat.add_assoc]
          · simp only [Dec.typed, List.drop_length_add_append, Nat.add_assoc]
      · simp only [hx] at hle
        have hstop := Varint.incremental.stop d.vi a b (by simp [hx])
        simp only [decFeed_of_type hd expect hx, Dec.afterType] at h ⊢
        split at h
        · cases h
        next hv =>
        have hres := incremental_session.resume (d.typed vi v c) (a.drop c) b h
        have hstate := decFeedSession_state (d := d.typed vi v c) rfl h
        simp only [decFeed_of_type hd expect (hstop.trans hx), Dec.afterType, if_neg hv, decFeed_session hstate]
        rw [List.drop_append_of_le_length hle, hres, List.length_drop, ← Nat.add_assoc,
          Nat.add_sub_cancel' hle]
  stop d a b h := by
    cases hd : d.state with
    | poisoned => simp only [decFeed_poisoned hd]
    | session =>
      simp only [decFeed_session hd] at h ⊢
      exact incremental_session.stop d a b h
    | type =>
      have hle := Varint.incremental.le d.vi a
      rcases hx : Varint.decFeed d.vi a with ⟨_ | v, vi, c⟩
      · exact absurd (by simp only [decFeed_of_type hd expect hx, Dec.afterType]) h
      · simp only [hx] at hle
        have hstop := Varint.incremental.stop d.vi a b (by simp [hx])
        simp only [decFeed_of_type hd expect hx, decFeed_of_type hd expect (hstop.trans hx),
          Dec.afterType] at h ⊢
        split
        · rfl
        · next hv =>
          rw [if_neg hv] at h
          have := incremental_session.stop (d.typed vi v c) (a.drop c) b h
          rw [List.drop_append_of_le_length hle, this]
  used d a := by
    cases hd : d.state with
    | poisoned => simp only [decFeed_poisoned hd]
    | session =>
      simp only [decFeed_session hd]
      exact incremental_session.used d a
    | type =>
      have hle := Varint.incremental.le d.vi a
      have hused := Varint.incremental.used d.vi a
      rcases hx : Varint.decFeed d.vi a with ⟨_ | v, vi, c⟩
      · simp only [hx] at hused
        simp only [decFeed_of_type hd expect hx, decFeed_of_type hd expect hused, Dec.afterType]
      · simp only [hx] at hle hused
        simp only [decFeed_of_type hd expect hx, Dec.afterType]
        split
        · next hv => simp only [decFeed_of_type hd expect hused, Dec.afterType, if_pos hv]
        next hv =>
        generalize hn : (decFeedSession (d.typed vi v c) (a.drop c) 0).2.2 = n
        have hstop := Varint.incremental.stop d.vi (a.take c) ((a.drop c).take n) (by simp [hused])
        have hlen := incremental_session.used (d.typed vi v c) (a.drop c)
        simp only [hn] at hlen
        rw [List.take_add]
        simp only [decFeed_of_type hd expect (hstop.trans hused), Dec.afterType, if_neg hv]
        rw [List.drop_append_of_le_length (by simp [hle]), List.drop_take, Nat.sub_self, List.take_zero,
          List.nil_append, hlen, hn]
  le d a := by
    cases hd : d.state with
    | poisoned => simp [decFeed_poisoned hd]
    | session =>
      simp only [decFeed_session hd]
      exact incremental_session.le d a
    | type =>
      have hle := Varint.incremental.le d.vi a
      rcases hx : Varint.decFeed d.vi a with ⟨_ | v, vi, c⟩
      · simpa [decFeed_of_type hd expect hx, Dec.afterType, hx] using hle
      · simp only [hx] at hle
        simp only [decFeed_of_type hd expect hx, Dec.afterType]
        split
        · exact hle
        · have := incremental_session.le (d.typed vi v c) (a.drop c)
          simp only [List.length_drop] at this ⊢
          omega

/-- A complete preamble leaves a fresh decoder. -/
theorem decFeed_ok {d pre : Dec} {expect : Kind} {a : Bytes} {sid n t c : Nat}
    (h : decFeed d expect a = (.ok sid n t, pre, c)) : pre = decInit := by
  have hsession : ∀ (e : Dec) (src : Bytes),
      (decFeedSession e src 0).1 = .ok sid n t → (decFeedSession e src 0).2.1 = decInit := by
    intro e src
    unfold decFeedSession
    generalize Varint.decFeed e.vi src = x
    obtain ⟨_ | v, vi, k⟩ := x
    · exact fun h => nomatch h
    · exact fun _ => rfl
  cases hd : d.state with
  | poisoned =>
    rw [decFeed_poisoned hd] at h
    cases h
  | session =>
    rw [decFeed_session hd] at h
    simpa [h] using hsession d a
  | type =>
    rcases hx : Varint.decFeed d.vi a with ⟨_ | v, vi, k⟩
    · rw [decFeed_of_type hd expect hx] at h
      cases h
    · rw [decFeed_of_type hd expect hx] at h
      simp only [Dec.afterType] at h
      split at h
      · cases h
      · simp only [Prod.mk.injEq] at h
        rw [← h.2.1]
        exact hsession _ _ h.1

/-- Up to the type at most eight bytes are read. -/
theorem decFeed_init_le {expect : Kind} {a : Bytes} {res : Result} {pre : Dec} {c : Nat}
    (h : decFeed decInit expect a = (res, pre, c)) (hp : pre.state ≠ .session)
    (hres : ∀ sid n t, res ≠ .ok sid n t) : c ≤ 8 := by
  have hle := Varint.decFeed_init_le a
  rcases hx : Varint.decFeed decInit.vi a with ⟨_ | v, vi, n⟩
  · rw [decFeed_of_type rfl expect hx] at h
    have hx : Varint.decFeed Varint.decInit a = (none, vi, n) := hx
    rw [hx] at hle
    cases h
    exact hle
  · rw [decFeed_of_type rfl expect hx] at h
    have hx : Varint.decFeed Varint.decInit a = (some v, vi, n) := hx
    rw [hx] at hle
    simp only [Dec.afterType] at h
    split at h
    · cases h
      exact hle
    · -- a session id has been begun, or is complete
      unfold decFeedSession at h
      generalize Varint.decFeed (decInit.typed vi v n).vi (a.drop n) = y at h
      obtain ⟨_ | sid, vi', n'⟩ := y
      · cases h
        exact absurd rfl hp
      · cases h
        exact absurd rfl (hres _ _ _)

/-- The first feed asks for more, or its input is one varint with an unexpected type. -/
theorem decFeed_init_cases {expect : Kind} {a : Bytes} {res : Result} {pre : Dec} {c : Nat}
    (h : decFeed decInit expect a = (res, pre, c)) (hres : ∀ sid n t, res ≠ .ok sid n t) :
    (res = .needMore ∧ pre.state ≠ .poisoned) ∨
      (res = .unexpected pre.wireType ∧ pre.state = .poisoned ∧
        ∃ vi, Varint.decFeed Varint.decInit a = (some pre.wireType, vi, c)) := by
  rcases hx : Varint.decFeed decInit.vi a with ⟨_ | v, vi, n⟩
  · rw [decFeed_of_type rfl expect hx] at h
    cases h
    exact .inl ⟨rfl, nofun⟩
  · rw [decFeed_of_type rfl expect hx] at h
    simp only [Dec.afterType] at h
    split at h
    · cases h
      exact .inr ⟨rfl, rfl, vi, hx⟩
    · unfold decFeedSession at h
      generalize Varint.decFeed (decInit.typed vi v n).vi (a.drop n) = y at h
      obtain ⟨_ | sid, vi', n'⟩ := y
      · cases h
        exact .inl ⟨rfl, nofun⟩
      · cases h
        exact absurd rfl (hres _ _ _)

end Wtquic.Preamble
