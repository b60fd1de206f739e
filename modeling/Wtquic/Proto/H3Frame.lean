-- SUMMARY: HTTP/3 frame headers: two varints, one-shot and incremental.
import Wtquic.Proto.Varint

namespace Wtquic.H3Frame

/-! # HTTP/3 frame headers

The model of `h3_frame.c`. A frame header is a type varint followed by a length
varint; the payload is never consumed here. -/

def typeData : Nat := 0x00
def typeHeaders : Nat := 0x01
def typeCancelPush : Nat := 0x03
def typeSettings : Nat := 0x04
def typePushPromise : Nat := 0x05
def typeGoaway : Nat := 0x07
def typeMaxPushId : Nat := 0x0d

/-- `wtq_h3_frame_t`. -/
structure Header where
  type : Nat
  length : Nat
  headerLen : Nat
  deriving DecidableEq, Repr

/-- Encoded length of a header, `0` when a field is out of range. -/
def headerLen (type length : Nat) : Nat :=
  if Varint.len type = 0 ∨ Varint.len length = 0 then 0
  else Varint.len type + Varint.len length

def encodeHeader (type length cap : Nat) : Except Varint.Error Bytes :=
  let need := headerLen type length
  if need = 0 then .error .range
  else if cap < need then .error .buffer
  else do
    let t ← Varint.encode type cap
    let l ← Varint.encode length (cap - t.length)
    return t ++ l

def decodeHeader (src : Bytes) : Option Header := do
  let (type, tl) ← Varint.decode src
  let (length, ll) ← Varint.decode (src.drop tl)
  return { type, length, headerLen := tl + ll }

/-! ## Incremental decoder -/

/-- `wtq_h3_frame_dec_state_t`. -/
inductive DecState where
  | type
  | length
  deriving DecidableEq, Repr

/-- `wtq_h3_frame_dec_t`. -/
structure Dec where
  vi : Varint.Dec := {}
  type : Nat := 0
  hdrBytes : Nat := 0
  state : DecState := .type
  deriving DecidableEq, Repr

def decInit : Dec := {}

/-- The Length half of a feed, after `eaten` bytes of this feed were consumed. -/
def decFeedLength (d : Dec) (src : Bytes) (eaten : Nat) : Option Header × Dec × Nat :=
  match Varint.decFeed d.vi src with
  | (none, vi, c) => (none, { d with vi, hdrBytes := d.hdrBytes + c }, eaten + c)
  | (some length, _, c) =>
    (some { type := d.type, length, headerLen := d.hdrBytes + c }, decInit, eaten + c)

/-- `wtq_h3_frame_dec_feed`. -/
def decFeed (d : Dec) (src : Bytes) : Option Header × Dec × Nat :=
  match d.state with
  | .type =>
    match Varint.decFeed d.vi src with
    | (none, vi, c) => (none, { d with vi, hdrBytes := d.hdrBytes + c }, c)
    | (some v, vi, c) =>
      decFeedLength { vi, type := v, hdrBytes := d.hdrBytes + c, state := .length }
        (src.drop c) c
  | .length => decFeedLength d src 0

/-! ## Feeding in pieces -/

/-- A length that follows `n` bytes of the same feed. -/
theorem decFeedLength_add (d : Dec) (src : Bytes) (n : Nat) :
    decFeedLength d src n =
      ((decFeedLength d src 0).1, (decFeedLength d src 0).2.1, n + (decFeedLength d src 0).2.2) := by
  unfold decFeedLength
  generalize Varint.decFeed d.vi src = x
  obtain ⟨r, vi, c⟩ := x
  cases r <;> simp

theorem decFeed_length {d : Dec} (h : d.state = .length) (src : Bytes) :
    decFeed d src = decFeedLength d src 0 := by
  rw [decFeed, h]

theorem incremental_length :
    Incremental (fun d src => decFeedLength d src 0) (· = none) where
  all d a h := by
    have hall := Varint.incremental.all d.vi a
    unfold decFeedLength at h ⊢
    generalize Varint.decFeed d.vi a = x at h hall ⊢
    obtain ⟨r, vi, c⟩ := x
    cases r with
    | none => simpa using hall rfl
    | some v => cases h
  resume d a b h := by
    have hres := Varint.incremental.resume d.vi a b
    have hall := Varint.incremental.all d.vi a
    unfold decFeedLength at h ⊢
    generalize Varint.decFeed d.vi a = x at h hres hall ⊢
    obtain ⟨r, vi, c⟩ := x
    cases r with
    | some v => cases h
    | none =>
      obtain rfl := hall rfl
      rw [hres rfl]
      dsimp only
      generalize Varint.decFeed vi b = y
      obtain ⟨r', vi', c'⟩ := y
      cases r' <;> simp [Nat.add_assoc]
  stop d a b h := by
    have hstop := Varint.incremental.stop d.vi a b
    unfold decFeedLength at h ⊢
    generalize Varint.decFeed d.vi a = x at h hstop ⊢
    obtain ⟨r, vi, c⟩ := x
    cases r with
    | none => exact absurd rfl h
    | some v => rw [hstop nofun]
  used d a := by
    have hused := Varint.incremental.used d.vi a
    unfold decFeedLength
    generalize Varint.decFeed d.vi a = x at hused ⊢
    obtain ⟨r, vi, c⟩ := x
    cases r <;> simp_all
  le d a := by
    have hle := Varint.incremental.le d.vi a
    unfold decFeedLength
    generalize Varint.decFeed d.vi a = x at hle ⊢
    obtain ⟨r, vi, c⟩ := x
    cases r <;> simpa using hle

/-- The state behind a type. -/
def Dec.typed (d : Dec) (vi : Varint.Dec) (type c : Nat) : Dec :=
  { vi, type, hdrBytes := d.hdrBytes + c, state := .length }

/-- A type that is complete. -/
theorem decFeed_some {d : Dec} (hd : d.state = .type) {src : Bytes} {v c : Nat} {vi : Varint.Dec}
    (h : Varint.decFeed d.vi src = (some v, vi, c)) :
    decFeed d src =
      ((decFeedLength (d.typed vi v c) (src.drop c) 0).1,
        (decFeedLength (d.typed vi v c) (src.drop c) 0).2.1,
        c + (decFeedLength (d.typed vi v c) (src.drop c) 0).2.2) := by
  rw [decFeed, hd]
  dsimp only
  rw [h]
  exact decFeedLength_add _ _ c

/-- A type that is not. -/
theorem decFeed_none {d : Dec} (hd : d.state = .type) {src : Bytes} {c : Nat} {vi : Varint.Dec}
    (h : Varint.decFeed d.vi src = (none, vi, c)) :
    decFeed d src = (none, { d with vi, hdrBytes := d.hdrBytes + c }, c) := by
  rw [decFeed, hd]
  dsimp only
  rw [h]

theorem decFeedLength_state {d : Dec} {src : Bytes} (hd : d.state = .length)
    (h : (decFeedLength d src 0).1 = none) : (decFeedLength d src 0).2.1.state = .length := by
  unfold decFeedLength at h ⊢
  generalize Varint.decFeed d.vi src = x at h ⊢
  obtain ⟨r, vi, c⟩ := x
  cases r with
  | none => exact hd
  | some v => cases h

theorem incremental : Incremental decFeed (· = none) where
  all d a h := by
    cases hd : d.state with
    | length =>
      rw [decFeed_length hd] at h ⊢
      exact incremental_length.all d a h
    | type =>
      have hle := Varint.incremental.le d.vi a
      rcases hx : Varint.decFeed d.vi a with ⟨_ | v, vi, c⟩
      · rw [decFeed_none hd hx]
        simpa [hx] using Varint.incremental.all d.vi a (by rw [hx])
      · rw [decFeed_some hd hx] at h ⊢
        have := incremental_length.all (d.typed vi v c) (a.drop c) h
        simp only [hx] at hle
        simp only [this, List.length_drop]
        omega
  resume d a b h := by
    cases hd : d.state with
    | length =>
      rw [decFeed_length hd] at h
      rw [decFeed_length hd, decFeed_length hd, decFeed_length (decFeedLength_state hd h)]
      exact incremental_length.resume d a b h
    | type =>
      have hle := Varint.incremental.le d.vi a
      rcases hx : Varint.decFeed d.vi a with ⟨_ | v, vi, c⟩
      · have hc := Varint.incremental.all d.vi a (by rw [hx])
        have hres := Varint.incremental.resume d.vi a b (by rw [hx])
        simp only [hx] at hc hres
        subst hc
        rw [decFeed_none hd hx]
        rcases hy : Varint.decFeed vi b with ⟨_ | v', vi', c'⟩
        · rw [decFeed_none hd (by rw [hres, hy]), decFeed_none (d := { d with vi, hdrBytes := _ }) hd hy]
          simp [Nat.add_assoc]
        · rw [decFeed_some hd (by rw [hres, hy]), decFeed_some (d := { d with vi, hdrBytes := _ }) hd hy]
          simp only [Dec.typed, List.drop_length_add_append, Nat.add_assoc]
      · simp only [hx] at hle
        have hstop := Varint.incremental.stop d.vi a b (by simp [hx])
        rw [decFeed_some hd hx] at h ⊢
        have hres := incremental_length.resume (d.typed vi v c) (a.drop c) b h
        have hstate := decFeedLength_state (d := d.typed vi v c) rfl h
        rw [decFeed_some hd (hstop.trans hx), List.drop_append_of_le_length hle, hres,
          decFeed_length hstate, List.length_drop, ← Nat.add_assoc, Nat.add_sub_cancel' hle]
  stop d a b h := by
    cases hd : d.state with
    | length =>
      rw [decFeed_length hd] at h
      rw [decFeed_length hd, decFeed_length hd]
      exact incremental_length.stop d a b h
    | type =>
      have hle := Varint.incremental.le d.vi a
      rcases hx : Varint.decFeed d.vi a with ⟨_ | v, vi, c⟩
      · rw [decFeed_none hd hx] at h
        exact absurd rfl h
      · simp only [hx] at hle
        have hstop := Varint.incremental.stop d.vi a b (by simp [hx])
        rw [decFeed_some hd hx] at h ⊢
        have := incremental_length.stop (d.typed vi v c) (a.drop c) b h
        rw [decFeed_some hd (hstop.trans hx), List.drop_append_of_le_length hle, this]
  used d a := by
    cases hd : d.state with
    | length =>
      rw [decFeed_length hd, decFeed_length hd]
      exact incremental_length.used d a
    | type =>
      have hle := Varint.incremental.le d.vi a
      have hused := Varint.incremental.used d.vi a
      rcases hx : Varint.decFeed d.vi a with ⟨_ | v, vi, c⟩
      · simp only [hx] at hused
        rw [decFeed_none hd hx, decFeed_none hd hused]
      · simp only [hx] at hle hused
        rw [decFeed_some hd hx]
        generalize hn : (decFeedLength (d.typed vi v c) (a.drop c) 0).2.2 = n
        have hstop := Varint.incremental.stop d.vi (a.take c) ((a.drop c).take n) (by simp [hused])
        have hlen := incremental_length.used (d.typed vi v c) (a.drop c)
        simp only [hn] at hlen
        rw [List.take_add, decFeed_some hd (hstop.trans hused),
          List.drop_append_of_le_length (by simp [hle]), List.drop_take, Nat.sub_self, List.take_zero,
          List.nil_append, hlen, hn]
  le d a := by
    cases hd : d.state with
    | length =>
      rw [decFeed_length hd]
      exact incremental_length.le d a
    | type =>
      have hle := Varint.incremental.le d.vi a
      rcases hx : Varint.decFeed d.vi a with ⟨_ | v, vi, c⟩
      · rw [decFeed_none hd hx]
        simpa [hx] using hle
      · simp only [hx] at hle
        rw [decFeed_some hd hx]
        have := incremental_length.le (d.typed vi v c) (a.drop c)
        simp only [List.length_drop] at this ⊢
        omega

end Wtquic.H3Frame
