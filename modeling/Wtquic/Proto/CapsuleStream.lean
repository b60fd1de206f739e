-- SUMMARY: Capsules in pieces: the incremental decoder against a parse of the whole stream.
import Wtquic.Lib.Framing
import Wtquic.Proto.Capsule

/-! # A stream of capsules

What the incremental decoder reports does not depend on how the stream was cut. It is what one
reads off the whole stream, header by header. -/

namespace Wtquic

/-! ## Fresh and partial varints -/

namespace Varint

/-- A varint that is not complete. -/
def Dec.Partial (d : Dec) : Prop := d.need = 0 ∨ d.got < d.need

theorem decFeed_idle {d : Dec} (h : d.Partial) : decFeed d [] = (none, d, 0) := by
  by_cases hd : d.need = 0
  · exact decFeed_nil hd
  · have hlt : d.got < d.need := h.resolve_left hd
    rw [decFeed_of_need hd]
    simp [Dec.fill, Dec.finish, hlt]

theorem Dec.finish_partial (r : Dec × Nat) (n : Nat) : (Dec.finish r n).2.1.Partial := by
  unfold Dec.finish
  split
  · next h => exact .inr h
  · exact .inl rfl

theorem decFeed_partial (d : Dec) (src : Bytes) : (decFeed d src).2.1.Partial := by
  by_cases hd : d.need = 0
  · cases src with
    | nil =>
      rw [decFeed_nil hd]
      exact .inl hd
    | cons b rest =>
      rw [decFeed_cons hd]
      exact Dec.finish_partial _ _
  · rw [decFeed_of_need hd]
    exact Dec.finish_partial _ _

end Varint

namespace H3Frame

theorem decFeed_idle {d : Dec} (h : d.vi.Partial) : decFeed d [] = (none, d, 0) := by
  cases hd : d.state with
  | type =>
    rw [decFeed_none hd (Varint.decFeed_idle h)]
    rfl
  | length =>
    rw [decFeed_length hd, decFeedLength, Varint.decFeed_idle h]
    rfl

theorem decFeedLength_partial (d : Dec) (src : Bytes) :
    (decFeedLength d src 0).2.1.vi.Partial := by
  have hvi := Varint.decFeed_partial d.vi src
  unfold decFeedLength
  generalize Varint.decFeed d.vi src = x at hvi ⊢
  obtain ⟨r, vi, c⟩ := x
  cases r with
  | none => exact hvi
  | some v => exact .inl rfl

theorem decFeed_partial (d : Dec) (src : Bytes) : (decFeed d src).2.1.vi.Partial := by
  cases hd : d.state with
  | length =>
    rw [decFeed_length hd]
    exact decFeedLength_partial d src
  | type =>
    have hvi := Varint.decFeed_partial d.vi src
    rcases hx : Varint.decFeed d.vi src with ⟨_ | v, vi, c⟩
    · rw [decFeed_none hd hx]
      rwa [hx] at hvi
    · rw [decFeed_some hd hx]
      exact decFeedLength_partial _ _

/-- The incremental decoder reads the header the one-shot decoder reads. -/
theorem decFeed_of_decodeHeader {src : Bytes} {h : Header} (hh : decodeHeader src = some h) :
    decFeed decInit src = (some h, decInit, h.headerLen) := by
  unfold decodeHeader at hh
  cases ht : Varint.decode src with
  | none => simp [ht] at hh
  | some t =>
    obtain ⟨type, tl⟩ := t
    cases hl : Varint.decode (src.drop tl) with
    | none => simp [ht, hl] at hh
    | some l =>
      obtain ⟨length, ll⟩ := l
      simp only [ht, hl, Option.bind_eq_bind, Option.bind_some, pure, Option.some.injEq] at hh
      subst hh
      rw [decFeed_some rfl (Varint.decFeed_of_decode ht), decFeedLength]
      have hlen := Varint.decFeed_of_decode hl
      simp only [Dec.typed, hlen]
      simp [decInit]

theorem decFeed_of_decodeHeader_none {src : Bytes} (hh : decodeHeader src = none) :
    (decFeed decInit src).1 = none := by
  unfold decodeHeader at hh
  cases ht : Varint.decode src with
  | none =>
    have hvi := Varint.decFeed_of_decode_none ht
    rcases hx : Varint.decFeed Varint.decInit src with ⟨_ | v, vi, c⟩
    · rw [decFeed_none (d := decInit) rfl hx]
    · rw [hx] at hvi
      cases hvi
  | some t =>
    obtain ⟨type, tl⟩ := t
    cases hl : Varint.decode (src.drop tl) with
    | some l => simp [ht, hl] at hh
    | none =>
      have hvi := Varint.decFeed_of_decode_none hl
      rw [decFeed_some rfl (Varint.decFeed_of_decode ht), decFeedLength]
      simp only [Dec.typed]
      rcases hx : Varint.decFeed Varint.decInit (src.drop tl) with ⟨_ | v, vi, c⟩
      · rfl
      · rw [hx] at hvi
        cases hvi

theorem decodeHeader_append {src : Bytes} {h : Header} (hh : decodeHeader src = some h)
    (rest : Bytes) : decodeHeader (src ++ rest) = some h := by
  unfold decodeHeader at hh ⊢
  cases ht : Varint.decode src with
  | none => simp [ht] at hh
  | some t =>
    obtain ⟨type, tl⟩ := t
    have htl := (Varint.decode_le ht).2
    cases hl : Varint.decode (src.drop tl) with
    | none => simp [ht, hl] at hh
    | some l =>
      rw [Varint.decode_append ht]
      simp only [ht, hl, Option.bind_eq_bind, Option.bind_some] at hh ⊢
      rw [List.drop_append_of_le_length htl, Varint.decode_append hl]
      exact hh

theorem decodeHeader_encodeHeader {type length cap : Nat} {bs : Bytes}
    (h : encodeHeader type length cap = .ok bs) :
    decodeHeader bs = some { type, length, headerLen := bs.length } := by
  unfold encodeHeader at h
  dsimp only at h
  split at h
  · cases h
  split at h
  · cases h
  cases ht : Varint.encode type cap with
  | error e => simp [ht, bind, Except.bind] at h
  | ok t =>
    cases hl : Varint.encode length (cap - t.length) with
    | error e => simp [ht, hl, bind, Except.bind] at h
    | ok l =>
      simp only [ht, hl, bind, Except.bind, pure, Except.pure, Except.ok.injEq] at h
      subst h
      rw [decodeHeader, Varint.decode_append (Varint.decode_encode ht)]
      simp [Varint.decode_encode hl]

theorem encodeHeader_of_le {type length : Nat} (cap : Nat) (ht : type ≤ Varint.max)
    (hl : length ≤ Varint.max) (hcap : headerLen type length ≤ cap) :
    ∃ bs, encodeHeader type length cap = .ok bs ∧ bs.length = headerLen type length := by
  have ht0 := Varint.len_ne_zero ht
  have hl0 := Varint.len_ne_zero hl
  have hlen : headerLen type length = Varint.len type + Varint.len length := by
    rw [headerLen, if_neg (by simp [ht0, hl0])]
  rw [hlen] at hcap
  obtain ⟨t, hte⟩ := Varint.encode_of_le cap ht (by omega)
  have htlen := Varint.encode_length hte
  obtain ⟨l, hle⟩ := Varint.encode_of_le (cap - t.length) hl (by omega)
  have hllen := Varint.encode_length hle
  refine ⟨t ++ l, ?_, by rw [hlen, List.length_append, htlen, hllen]⟩
  rw [encodeHeader, hlen, if_neg (by omega), if_neg (by omega)]
  simp only [hte, hle, bind, Except.bind, pure, Except.pure]

end H3Frame

namespace Capsule

/-! ## The payload -/

@[simp] theorem Dec.kind_closeByte (d : Dec) (b : UInt8) : (d.closeByte b).kind = d.kind := by
  unfold Dec.closeByte
  split <;> rfl

theorem Dec.kind_foldl (d : Dec) (bs : Bytes) : (bs.foldl Dec.closeByte d).kind = d.kind := by
  induction bs generalizing d with
  | nil => rfl
  | cons b bs ih => rw [List.foldl_cons, ih, Dec.kind_closeByte]

@[simp] theorem Dec.kind_payload (d : Dec) (bs : Bytes) : (d.payload bs).kind = d.kind := by
  unfold Dec.payload
  split
  · exact Dec.kind_foldl d bs
  · rfl

@[simp] theorem Dec.state_payload (d : Dec) (bs : Bytes) : (d.payload bs).state = d.state := by
  have hbyte : ∀ (d : Dec) b, (d.closeByte b).state = d.state := by
    intro d b
    unfold Dec.closeByte
    split <;> rfl
  unfold Dec.payload
  split
  · show (bs.foldl Dec.closeByte d).state = d.state
    induction bs generalizing d with
    | nil => rfl
    | cons b bs ih => rw [List.foldl_cons, ih _ (by rwa [Dec.kind_closeByte]), hbyte]
  · rfl

@[simp] theorem Dec.remaining_payload (d : Dec) (bs : Bytes) :
    (d.payload bs).remaining = d.remaining - bs.length := rfl

theorem Dec.closeByte_frame (d : Dec) (b : UInt8) (n : Nat) :
    ({ d with remaining := n } : Dec).closeByte b = { d.closeByte b with remaining := n } := by
  unfold Dec.closeByte
  dsimp only
  split <;> rfl

theorem Dec.foldl_frame (d : Dec) (bs : Bytes) (n : Nat) :
    bs.foldl Dec.closeByte { d with remaining := n } =
      { bs.foldl Dec.closeByte d with remaining := n } := by
  induction bs generalizing d with
  | nil => rfl
  | cons b bs ih => rw [List.foldl_cons, Dec.closeByte_frame, ih, List.foldl_cons]

theorem Dec.payload_append (d : Dec) (a b : Bytes) :
    d.payload (a ++ b) = (d.payload a).payload b := by
  rw [Dec.payload, Dec.payload, Dec.kind_payload]
  by_cases h : d.kind = some .close
  · simp only [if_pos h, Dec.payload, List.foldl_append, Dec.foldl_frame, List.length_append,
      Nat.sub_sub]
  · simp only [if_neg h, Dec.payload, List.length_append, Nat.sub_sub]

@[simp] theorem Dec.payload_nil (d : Dec) : d.payload [] = d := by
  unfold Dec.payload
  split <;> rfl

theorem decFeedPayload_add (d : Dec) (src : Bytes) (n : Nat) :
    decFeedPayload d src n =
      ((decFeedPayload d src 0).1, (decFeedPayload d src 0).2.1, n + (decFeedPayload d src 0).2.2) := by
  unfold decFeedPayload
  dsimp only
  split <;> simp

/-- The payload is not complete. -/
theorem decFeedPayload_more {d : Dec} {src : Bytes} (h : src.length < d.remaining) :
    decFeedPayload d src 0 = (.needMore, d.payload src, src.length) := by
  have htake : src.take d.remaining = src := List.take_of_length_le (by omega)
  rw [decFeedPayload, htake, if_pos (by rw [Dec.remaining_payload]; omega), Nat.zero_add]

/-- The payload is complete. -/
theorem decFeedPayload_done {d : Dec} {src : Bytes} (h : d.remaining ≤ src.length) :
    decFeedPayload d src 0 =
      (.ok (emit (d.payload (src.take d.remaining))), decInit, d.remaining) := by
  have hlen : (src.take d.remaining).length = d.remaining := by
    rw [List.length_take]
    omega
  rw [decFeedPayload, if_neg (by rw [Dec.remaining_payload, hlen]; omega), Nat.zero_add, hlen]

theorem decFeedPayload_state {d : Dec} {src : Bytes}
    (h : (decFeedPayload d src 0).1 = .needMore) :
    (decFeedPayload d src 0).2.1.state = d.state ∧ src.length < d.remaining := by
  by_cases hlt : src.length < d.remaining
  · rw [decFeedPayload_more hlt]
    exact ⟨Dec.state_payload d src, hlt⟩
  · rw [decFeedPayload_done (Nat.le_of_not_lt hlt)] at h
    cases h

theorem incremental_payload :
    Incremental (fun d src => decFeedPayload d src 0) (· = .needMore) where
  all d a h := by
    by_cases hlt : a.length < d.remaining
    · rw [decFeedPayload_more hlt]
    · rw [decFeedPayload_done (Nat.le_of_not_lt hlt)] at h
      cases h
  resume d a b h := by
    by_cases hlt : a.length < d.remaining
    · rw [decFeedPayload_more hlt]
      dsimp only
      by_cases hlt' : (a ++ b).length < d.remaining
      · rw [decFeedPayload_more hlt', decFeedPayload_more, Dec.payload_append, List.length_append]
        rw [Dec.remaining_payload, List.length_append] at *
        omega
      · rw [List.length_append] at hlt'
        rw [decFeedPayload_done (by rw [List.length_append]; omega), decFeedPayload_done,
          Dec.remaining_payload, List.take_append, List.take_of_length_le (by omega),
          Dec.payload_append, Nat.add_sub_cancel' (by omega)]
        rw [Dec.remaining_payload]
        omega
    · rw [decFeedPayload_done (Nat.le_of_not_lt hlt)] at h
      cases h
  stop d a b h := by
    by_cases hlt : a.length < d.remaining
    · rw [decFeedPayload_more hlt] at h
      exact absurd rfl h
    · have hle := Nat.le_of_not_lt hlt
      rw [decFeedPayload_done hle, decFeedPayload_done (by rw [List.length_append]; omega),
        List.take_append_of_le_length hle]
  used d a := by
    by_cases hlt : a.length < d.remaining
    · rw [decFeedPayload_more hlt, List.take_length]
      exact decFeedPayload_more hlt
    · have hle := Nat.le_of_not_lt hlt
      rw [decFeedPayload_done hle]
      dsimp only
      rw [decFeedPayload_done (by rw [List.length_take]; omega), List.take_take, Nat.min_self]
  le d a := by
    by_cases hlt : a.length < d.remaining
    · simp only [decFeedPayload_more hlt, Nat.le_refl]
    · simpa only [decFeedPayload_done (Nat.le_of_not_lt hlt)] using Nat.le_of_not_lt hlt

/-! ## The feed -/

/-- The state behind a header. -/
def Dec.opened (d : Dec) (hdr : H3Frame.Dec) (h : H3Frame.Header) : Dec :=
  { d with
    hdr, type := h.type, payloadLen := h.length, remaining := h.length,
    headerLen := h.headerLen, codeHave := 0, codeAcc := 0, reason := [] }

/-- What a complete header leads to, before any of its payload is looked at. -/
def Dec.accept (d : Dec) (hdr : H3Frame.Dec) (h : H3Frame.Header) (kind : Kind) : Dec :=
  { d.opened hdr h with kind := some kind, state := .payload }

theorem decFeed_poisoned {d : Dec} (hd : d.state = .poisoned) (src : Bytes) :
    decFeed d src = (.malformed, d, 0) := by
  rw [decFeed, hd]

theorem decFeed_payload {d : Dec} (hd : d.state = .payload) (src : Bytes) :
    decFeed d src = decFeedPayload d src 0 := by
  rw [decFeed, hd]

theorem decFeed_none {d : Dec} (hd : d.state = .header) {src : Bytes} {hdr : H3Frame.Dec} {c : Nat}
    (h : H3Frame.decFeed d.hdr src = (none, hdr, c)) :
    decFeed d src = (.needMore, { d with hdr }, c) := by
  rw [decFeed, hd]
  dsimp only
  rw [h]

theorem decFeed_malformed {d : Dec} (hd : d.state = .header) {src : Bytes} {hdr : H3Frame.Dec}
    {c : Nat} {hh : H3Frame.Header} (h : H3Frame.decFeed d.hdr src = (some hh, hdr, c))
    (hk : classify hh.type hh.length = none) :
    decFeed d src = (.malformed, { d.opened hdr hh with state := .poisoned }, c) := by
  rw [decFeed, hd]
  dsimp only
  rw [h]
  dsimp only
  rw [hk]
  rfl

/-- An empty payload is complete at once, so the two branches of the source agree. -/
theorem decFeed_accept {d : Dec} (hd : d.state = .header) {src : Bytes} {hdr : H3Frame.Dec}
    {c : Nat} {hh : H3Frame.Header} {kind : Kind}
    (h : H3Frame.decFeed d.hdr src = (some hh, hdr, c))
    (hk : classify hh.type hh.length = some kind) :
    decFeed d src =
      ((decFeedPayload (d.accept hdr hh kind) (src.drop c) 0).1,
        (decFeedPayload (d.accept hdr hh kind) (src.drop c) 0).2.1,
        c + (decFeedPayload (d.accept hdr hh kind) (src.drop c) 0).2.2) := by
  rw [decFeed, hd]
  dsimp only
  rw [h]
  dsimp only
  rw [hk]
  dsimp only
  by_cases hz : hh.length = 0
  · rw [if_pos hz, decFeedPayload_done (by simp [Dec.accept, Dec.opened, hz])]
    simp [Dec.accept, Dec.opened, hz, emit]
  · rw [if_neg hz]
    exact decFeedPayload_add _ _ c

theorem incremental : Incremental decFeed (· = .needMore) where
  all d a h := by
    cases hd : d.state with
    | poisoned =>
      rw [decFeed_poisoned hd] at h
      cases h
    | payload =>
      rw [decFeed_payload hd] at h ⊢
      exact incremental_payload.all d a h
    | header =>
      have hle := H3Frame.incremental.le d.hdr a
      rcases hx : H3Frame.decFeed d.hdr a with ⟨_ | hh, hdr, c⟩
      · rw [decFeed_none hd hx]
        simpa [hx] using H3Frame.incremental.all d.hdr a (by rw [hx])
      · simp only [hx] at hle
        cases hk : classify hh.type hh.length with
        | none =>
          rw [decFeed_malformed hd hx hk] at h
          cases h
        | some kind =>
          rw [decFeed_accept hd hx hk] at h ⊢
          have hall := incremental_payload.all (d.accept hdr hh kind) (a.drop c) h
          rw [hall, List.length_drop]
          exact Nat.add_sub_cancel' (by simpa [hx] using hle)
  resume d a b h := by
    cases hd : d.state with
    | poisoned =>
      rw [decFeed_poisoned hd] at h
      cases h
    | payload =>
      rw [decFeed_payload hd] at h
      have hstate := (decFeedPayload_state h).1.trans hd
      rw [decFeed_payload hd, decFeed_payload hd, decFeed_payload hstate]
      exact incremental_payload.resume d a b h
    | header =>
      have hle := H3Frame.incremental.le d.hdr a
      rcases hx : H3Frame.decFeed d.hdr a with ⟨_ | hh, hdr, c⟩
      · have hc := H3Frame.incremental.all d.hdr a (by rw [hx])
        have hres := H3Frame.incremental.resume d.hdr a b (by rw [hx])
        simp only [hx] at hc hres
        subst hc
        rw [decFeed_none hd hx]
        dsimp only
        have hd' : ({ d with hdr } : Dec).state = .header := hd
        rcases hy : H3Frame.decFeed hdr b with ⟨_ | hh, hdr', c'⟩
        · rw [decFeed_none hd (by rw [hres, hy]), decFeed_none hd' hy]
        · have hfeed : H3Frame.decFeed d.hdr (a ++ b) = (some hh, hdr', a.length + c') := by
            rw [hres, hy]
          cases hk : classify hh.type hh.length with
          | none =>
            rw [decFeed_malformed hd hfeed hk, decFeed_malformed hd' hy hk]
            rfl
          | some kind =>
            rw [decFeed_accept hd hfeed hk, decFeed_accept hd' hy hk,
              List.drop_length_add_append, Nat.add_assoc]
            rfl
      · simp only [hx] at hle
        have hstop := (H3Frame.incremental.stop d.hdr a b (by simp [hx])).trans hx
        cases hk : classify hh.type hh.length with
        | none =>
          rw [decFeed_malformed hd hx hk] at h
          cases h
        | some kind =>
          rw [decFeed_accept hd hx hk] at h ⊢
          have hres := incremental_payload.resume (d.accept hdr hh kind) (a.drop c) b h
          have hstate := (decFeedPayload_state h).1
          dsimp only at hres ⊢
          rw [decFeed_accept hd hstop hk, List.drop_append_of_le_length hle, hres,
            decFeed_payload hstate, List.length_drop, ← Nat.add_assoc, Nat.add_sub_cancel' hle]
  stop d a b h := by
    cases hd : d.state with
    | poisoned => rw [decFeed_poisoned hd, decFeed_poisoned hd]
    | payload =>
      rw [decFeed_payload hd] at h
      rw [decFeed_payload hd, decFeed_payload hd]
      exact incremental_payload.stop d a b h
    | header =>
      have hle := H3Frame.incremental.le d.hdr a
      rcases hx : H3Frame.decFeed d.hdr a with ⟨_ | hh, hdr, c⟩
      · rw [decFeed_none hd hx] at h
        exact absurd rfl h
      · simp only [hx] at hle
        have hstop := (H3Frame.incremental.stop d.hdr a b (by simp [hx])).trans hx
        cases hk : classify hh.type hh.length with
        | none => rw [decFeed_malformed hd hx hk, decFeed_malformed hd hstop hk]
        | some kind =>
          rw [decFeed_accept hd hx hk] at h ⊢
          have := incremental_payload.stop (d.accept hdr hh kind) (a.drop c) b h
          rw [decFeed_accept hd hstop hk, List.drop_append_of_le_length hle, this]
  used d a := by
    cases hd : d.state with
    | poisoned => rw [decFeed_poisoned hd, decFeed_poisoned hd]
    | payload =>
      rw [decFeed_payload hd, decFeed_payload hd]
      exact incremental_payload.used d a
    | header =>
      have hle := H3Frame.incremental.le d.hdr a
      have hused := H3Frame.incremental.used d.hdr a
      rcases hx : H3Frame.decFeed d.hdr a with ⟨_ | hh, hdr, c⟩
      · rw [hx] at hused
        rw [decFeed_none hd hx, decFeed_none hd hused]
      · simp only [hx] at hle hused
        have hhead : ∀ n, H3Frame.decFeed d.hdr (a.take (c + n)) = (some hh, hdr, c) := by
          intro n
          rw [List.take_add]
          exact (H3Frame.incremental.stop d.hdr _ _ (by rw [hused]; simp)).trans hused
        cases hk : classify hh.type hh.length with
        | none =>
          rw [decFeed_malformed hd hx hk]
          exact decFeed_malformed hd (hhead 0) hk
        | some kind =>
          have hpay := incremental_payload.used (d.accept hdr hh kind) (a.drop c)
          rw [decFeed_accept hd hx hk]
          dsimp only
          rw [decFeed_accept hd (hhead _) hk, List.drop_take, Nat.add_sub_cancel_left, hpay]
  le d a := by
    cases hd : d.state with
    | poisoned =>
      rw [decFeed_poisoned hd]
      exact Nat.zero_le _
    | payload =>
      rw [decFeed_payload hd]
      exact incremental_payload.le d a
    | header =>
      have hle := H3Frame.incremental.le d.hdr a
      rcases hx : H3Frame.decFeed d.hdr a with ⟨_ | hh, hdr, c⟩
      · rw [decFeed_none hd hx]
        rwa [hx] at hle
      · simp only [hx] at hle
        cases hk : classify hh.type hh.length with
        | none =>
          rw [decFeed_malformed hd hx hk]
          exact hle
        | some kind =>
          have hpay := incremental_payload.le (d.accept hdr hh kind) (a.drop c)
          rw [List.length_drop] at hpay
          rw [decFeed_accept hd hx hk]
          dsimp only at hpay ⊢
          omega

/-! ## Capsule after capsule -/

/-- The capsule a feed reported. -/
def Result.item : Result → Option Decoded
  | .ok cap => some cap
  | _ => none

/-- A decoder between two feeds. -/
structure Good (d : Dec) : Prop where
  header : d.hdr.vi.Partial
  payload : d.state = .payload → 0 < d.remaining

theorem good_init : Good decInit := ⟨.inl rfl, nofun⟩

theorem Dec.hdr_payload (d : Dec) (bs : Bytes) : (d.payload bs).hdr = d.hdr := by
  have hbyte : ∀ (d : Dec) b, (d.closeByte b).hdr = d.hdr := by
    intro d b
    unfold Dec.closeByte
    split <;> rfl
  unfold Dec.payload
  split
  · show (bs.foldl Dec.closeByte d).hdr = d.hdr
    induction bs generalizing d with
    | nil => rfl
    | cons b bs ih => rw [List.foldl_cons, ih _ (by rwa [Dec.kind_closeByte]), hbyte]
  · rfl

theorem good_decFeedPayload {d : Dec} (h : d.hdr.vi.Partial) (src : Bytes) :
    Good (decFeedPayload d src 0).2.1 := by
  by_cases hlt : src.length < d.remaining
  · rw [decFeedPayload_more hlt]
    refine ⟨?_, fun _ => ?_⟩
    · rwa [Dec.hdr_payload]
    · rw [Dec.remaining_payload]
      omega
  · rw [decFeedPayload_done (Nat.le_of_not_lt hlt)]
    exact good_init

theorem good_decFeed {d : Dec} (h : Good d) (src : Bytes) : Good (decFeed d src).2.1 := by
  cases hd : d.state with
  | poisoned =>
    rw [decFeed_poisoned hd]
    exact h
  | payload =>
    rw [decFeed_payload hd]
    exact good_decFeedPayload h.header src
  | header =>
    have hpart := H3Frame.decFeed_partial d.hdr src
    rcases hx : H3Frame.decFeed d.hdr src with ⟨_ | hh, hdr, c⟩
    · rw [hx] at hpart
      rw [decFeed_none hd hx]
      exact ⟨hpart, fun hs => by rw [show _ = d.state from rfl, hd] at hs; cases hs⟩
    · rw [hx] at hpart
      cases hk : classify hh.type hh.length with
      | none =>
        rw [decFeed_malformed hd hx hk]
        exact ⟨hpart, nofun⟩
      | some kind =>
        rw [decFeed_accept hd hx hk]
        exact good_decFeedPayload hpart _

theorem decFeed_idle {d : Dec} (h : Good d) :
    (decFeed d []).1.item = none ∧ (decFeed d []).2 = (d, 0) := by
  cases hd : d.state with
  | poisoned =>
    rw [decFeed_poisoned hd]
    exact ⟨rfl, rfl⟩
  | payload =>
    rw [decFeed_payload hd, decFeedPayload_more (show ([] : Bytes).length < _ from h.payload hd), Dec.payload_nil]
    exact ⟨rfl, rfl⟩
  | header =>
    rw [decFeed_none hd (H3Frame.decFeed_idle h.header)]
    exact ⟨rfl, rfl⟩

theorem decFeed_rejected {d : Dec} {src : Bytes} (h : (decFeed d src).1 = .malformed) :
    (decFeed d src).2.1.state = .poisoned := by
  have hpayload : ∀ (d : Dec) src, (decFeedPayload d src 0).1 ≠ .malformed := by
    intro d src h
    by_cases hlt : src.length < d.remaining
    · rw [decFeedPayload_more hlt] at h
      cases h
    · rw [decFeedPayload_done (Nat.le_of_not_lt hlt)] at h
      cases h
  cases hd : d.state with
  | poisoned =>
    rw [decFeed_poisoned hd]
    exact hd
  | payload =>
    rw [decFeed_payload hd] at h
    exact absurd h (hpayload d src)
  | header =>
    rcases hx : H3Frame.decFeed d.hdr src with ⟨_ | hh, hdr, c⟩
    · rw [decFeed_none hd hx] at h
      cases h
    · cases hk : classify hh.type hh.length with
      | none => rw [decFeed_malformed hd hx hk]
      | some kind =>
        rw [decFeed_accept hd hx hk] at h
        exact absurd h (hpayload _ _)

theorem framing : Framing decFeed (· = .needMore) Result.item Good where
  incremental := incremental
  more_item h := by rw [h]; rfl
  halted {d a} hd hmore hitem b := by
    have hmal : (decFeed d a).1 = .malformed := by
      cases hr : (decFeed d a).1 with
      | needMore => exact absurd hr hmore
      | ok cap => rw [hr] at hitem; cases hitem
      | malformed => rfl
    rw [decFeed_poisoned (decFeed_rejected hmal) b]
    exact ⟨rfl, rfl⟩
  keeps h := good_decFeed h _
  idle h := decFeed_idle h

/-! ## The whole stream at once -/

/-- A capsule read off its header and its whole payload. -/
def whole (kind : Kind) (h : H3Frame.Header) (payload : Bytes) : Decoded where
  kind := kind
  type := h.type
  length := h.length
  headerLen := h.headerLen
  closeCode := if kind = .close then UInt32.ofNat (Varint.accumulate 0 (payload.take 4)) else 0
  reason := if kind = .close then payload.drop 4 else []

/-- The capsule at the front of `src`, and the bytes it takes. -/
def parseOne (src : Bytes) : Result × Nat :=
  match H3Frame.decodeHeader src with
  | none => (.needMore, src.length)
  | some h =>
    match classify h.type h.length with
    | none => (.malformed, h.headerLen)
    | some kind =>
      if (src.drop h.headerLen).length < h.length then (.needMore, src.length)
      else (.ok (whole kind h ((src.drop h.headerLen).take h.length)), h.headerLen + h.length)

def parseFuel : Nat → Bytes → List Decoded × Result × Nat
  | 0, _ => ([], .needMore, 0)
  | fuel + 1, src =>
    match parseOne src with
    | (.ok cap, n) =>
      let r := parseFuel fuel (src.drop n)
      (cap :: r.1, r.2.1, n + r.2.2)
    | (r, n) => ([], r, n)

/-- The capsules of a stream, the verdict behind the last one, and the bytes they take. -/
def parse (src : Bytes) : List Decoded × Result × Nat := parseFuel (src.length + 1) src

/-- The payload bytes of a CLOSE behind `k` of its four code bytes. -/
theorem foldl_closeByte {d : Dec} (h : d.codeHave ≤ 4) (bs : Bytes) :
    (bs.foldl Dec.closeByte d).codeAcc =
        (bs.take (4 - d.codeHave)).foldl (fun v b => v * 256 + b.toUInt32) d.codeAcc ∧
      (bs.foldl Dec.closeByte d).reason = d.reason ++ bs.drop (4 - d.codeHave) := by
  induction bs generalizing d with
  | nil => simp
  | cons b bs ih =>
    rw [List.foldl_cons]
    by_cases hlt : d.codeHave < 4
    · obtain ⟨k, hk⟩ : ∃ k, 4 - d.codeHave = k + 1 := ⟨3 - d.codeHave, by omega⟩
      have hstep : d.closeByte b =
          { d with codeAcc := d.codeAcc * 256 + b.toUInt32, codeHave := d.codeHave + 1 } := by
        rw [Dec.closeByte, if_pos hlt]
      have hrec := ih (d := d.closeByte b) (by rw [hstep]; exact hlt)
      rw [hstep] at hrec ⊢
      rw [hk, List.take_succ_cons, List.drop_succ_cons, List.foldl_cons]
      have hsub : 4 - (d.codeHave + 1) = k := by omega
      rwa [hsub] at hrec
    · have hfour : d.codeHave = 4 := by omega
      have hstep : d.closeByte b = { d with reason := d.reason ++ [b] } := by
        rw [Dec.closeByte, if_neg hlt]
      have hrec := ih (d := d.closeByte b) (by rw [hstep]; exact h)
      rw [hstep] at hrec ⊢
      simpa [hfour] using hrec

theorem foldl_code (n : Nat) (bs : Bytes) :
    bs.foldl (fun v b => v * 256 + b.toUInt32) (UInt32.ofNat n) =
      UInt32.ofNat (Varint.accumulate n bs) := by
  induction bs generalizing n with
  | nil => rfl
  | cons b bs ih =>
    have hstep : UInt32.ofNat n * 256 + b.toUInt32 = UInt32.ofNat (n * 256 + b.toNat) := by
      apply UInt32.toNat_inj.mp
      simp [UInt32.toNat_add, UInt32.toNat_mul]
    rw [List.foldl_cons, hstep, ih]
    rfl

/-- What the decoder reports of a payload is what one reads off it at once. -/
theorem emit_payload (hdr : H3Frame.Dec) (h : H3Frame.Header) (kind : Kind) (bs : Bytes) :
    emit ((decInit.accept hdr h kind).payload bs) = whole kind h bs := by
  cases kind with
  | close =>
    have hfold := foldl_closeByte (d := decInit.accept hdr h .close) (Nat.zero_le 4) bs
    have hcode := hfold.1.trans (foldl_code 0 (bs.take 4))
    have hlen : ∀ (d : Dec), (bs.foldl Dec.closeByte d).type = d.type ∧
        (bs.foldl Dec.closeByte d).payloadLen = d.payloadLen ∧
        (bs.foldl Dec.closeByte d).headerLen = d.headerLen := by
      clear hfold hcode
      induction bs with
      | nil => exact fun d => ⟨rfl, rfl, rfl⟩
      | cons b bs ih =>
        intro d
        rw [List.foldl_cons]
        obtain ⟨h1, h2, h3⟩ := ih (d.closeByte b)
        rw [h1, h2, h3]
        unfold Dec.closeByte
        split <;> exact ⟨rfl, rfl, rfl⟩
    obtain ⟨h1, h2, h3⟩ := hlen (decInit.accept hdr h .close)
    have hreason := hfold.2
    have hkind := Dec.kind_foldl (decInit.accept hdr h .close) bs
    have hclose : (decInit.accept hdr h .close).kind = some .close := rfl
    simp only [Dec.payload, if_pos hclose, emit, whole, hcode, hreason, h1, h2, h3, hkind]
    simp [Dec.accept, Dec.opened]
  | drain => rfl
  | unknown => rfl

/-- A fresh decoder reads the capsule at the front of its input. -/
theorem decFeed_parseOne (src : Bytes) :
    (decFeed decInit src).1 = (parseOne src).1 ∧ (decFeed decInit src).2.2 = (parseOne src).2 ∧
      ∀ cap, (parseOne src).1 = .ok cap → (decFeed decInit src).2.1 = decInit := by
  unfold parseOne
  cases hh : H3Frame.decodeHeader src with
  | none =>
    have hnone := H3Frame.decFeed_of_decodeHeader_none hh
    have hall := H3Frame.incremental.all H3Frame.decInit src hnone
    rcases hx : H3Frame.decFeed H3Frame.decInit src with ⟨_ | h, hdr, c⟩
    · rw [hx] at hall
      rw [decFeed_none (d := decInit) rfl hx]
      exact ⟨rfl, hall, nofun⟩
    · rw [hx] at hnone
      cases hnone
  | some h =>
    have hx := H3Frame.decFeed_of_decodeHeader hh
    dsimp only
    cases hk : classify h.type h.length with
    | none =>
      rw [decFeed_malformed (d := decInit) rfl hx hk]
      exact ⟨rfl, rfl, nofun⟩
    | some kind =>
      have hle := H3Frame.incremental.le H3Frame.decInit src
      rw [hx] at hle
      rw [decFeed_accept (d := decInit) rfl hx hk]
      dsimp only
      have hrem : (decInit.accept H3Frame.decInit h kind).remaining = h.length := rfl
      by_cases hlt : (src.drop h.headerLen).length < h.length
      · rw [if_pos hlt, decFeedPayload_more (by rwa [hrem])]
        refine ⟨rfl, ?_, nofun⟩
        rw [List.length_drop]
        exact Nat.add_sub_cancel' hle
      · rw [if_neg hlt, decFeedPayload_done (by rw [hrem]; exact Nat.le_of_not_lt hlt), hrem,
          emit_payload]
        exact ⟨rfl, rfl, fun _ _ => rfl⟩

/-- The verdict of a decoder is its answer to an empty feed. -/
def verdict (d : Dec) : Result := (decFeed d []).1

theorem verdict_decFeed {d : Dec} {src : Bytes} (h : (decFeed d src).1.item = none) :
    verdict (decFeed d src).2.1 = (decFeed d src).1 := by
  cases hr : (decFeed d src).1 with
  | ok cap => rw [hr] at h; cases h
  | needMore =>
    have hres := incremental.resume d src [] hr
    rw [List.append_nil] at hres
    have hfst := congrArg Prod.fst hres
    rw [hr] at hfst
    exact hfst.symm
  | malformed => rw [verdict, decFeed_poisoned (decFeed_rejected hr)]

theorem feedPiece_parse {fuel : Nat} {src : Bytes} (hfuel : src.length < fuel) :
    parseFuel fuel src =
      ((feedPiece decFeed Result.item decInit src).1,
        verdict (feedPiece decFeed Result.item decInit src).2.1,
        (feedPiece decFeed Result.item decInit src).2.2) := by
  induction fuel generalizing src with
  | zero => omega
  | succ fuel ih =>
    obtain ⟨hres, hused, hinit⟩ := decFeed_parseOne src
    rw [parseFuel]
    rcases hp : parseOne src with ⟨r, n⟩
    rw [hp] at hres hused hinit
    cases r with
    | ok cap =>
      have hitem : (decFeed decInit src).1.item = some cap := by rw [hres]; rfl
      have hpos := framing.progress good_init hitem
      have hle := incremental.le decInit src
      rw [hused] at hpos hle
      dsimp only at hpos hle ⊢
      rw [framing.feedPiece_some good_init hitem, hinit cap rfl, hused,
        ih (by rw [List.length_drop]; omega)]
    | needMore =>
      have hitem : (decFeed decInit src).1.item = none := by rw [hres]; rfl
      rw [Framing.feedPiece_none hitem, verdict_decFeed hitem, hres, hused]
    | malformed =>
      have hitem : (decFeed decInit src).1.item = none := by rw [hres]; rfl
      rw [Framing.feedPiece_none hitem, verdict_decFeed hitem, hres, hused]

/-! ## What the encoders write -/

/-- A capsule and its bytes: a CLOSE or a DRAIN of the encoders, or a capsule of another type
under any encoding of its header. -/
inductive Written : Decoded → Bytes → Prop where
  | close {code : UInt32} {reason bs : Bytes} {cap : Nat}
      (h : encodeClose code reason cap = .ok bs) :
      Written { kind := .close
                type := typeCloseSession
                length := 4 + reason.length
                headerLen := bs.length - (4 + reason.length)
                closeCode := code
                reason := reason } bs
  | drain {bs : Bytes} {cap : Nat} (h : encodeDrain cap = .ok bs) :
      Written { kind := .drain
                type := typeDrainSession
                length := 0
                headerLen := bs.length
                closeCode := 0
                reason := [] } bs
  | unknown {type : Nat} {header payload : Bytes} (hclose : type ≠ typeCloseSession)
      (hdrain : type ≠ typeDrainSession)
      (h : H3Frame.decodeHeader header =
        some { type := type, length := payload.length, headerLen := header.length }) :
      Written { kind := .unknown
                type := type
                length := payload.length
                headerLen := header.length
                closeCode := 0
                reason := [] } (header ++ payload)

/-- A header, and the whole payload it announces. -/
theorem parseOne_whole {header : Bytes} {type : Nat} (payload : Bytes) (kind : Kind)
    (hh : H3Frame.decodeHeader header =
      some { type := type, length := payload.length, headerLen := header.length })
    (hk : classify type payload.length = some kind) :
    parseOne (header ++ payload) =
      (.ok (whole kind { type := type, length := payload.length, headerLen := header.length } payload),
        (header ++ payload).length) := by
  rw [parseOne, H3Frame.decodeHeader_append hh]
  dsimp only
  rw [hk]
  dsimp only
  rw [List.drop_left, if_neg (Nat.lt_irrefl _), List.take_length, List.length_append]

theorem encodeClose_eq {code : UInt32} {reason bs : Bytes} {cap : Nat}
    (h : encodeClose code reason cap = .ok bs) :
    reason.length ≤ maxReason ∧ ∃ header,
      H3Frame.encodeHeader typeCloseSession (4 + reason.length) cap = .ok header ∧
      bs = header ++ (codeBytes code ++ reason) := by
  unfold encodeClose at h
  split at h
  · cases h
  · next hlen =>
    dsimp only at h
    split at h
    · cases h
    · cases he : H3Frame.encodeHeader typeCloseSession (4 + reason.length) cap with
      | error e => simp [he, bind, Except.bind] at h
      | ok header =>
        simp only [he, bind, Except.bind, pure, Except.pure, Except.ok.injEq] at h
        exact ⟨Nat.le_of_not_lt hlen, header, rfl, by rw [← h, List.append_assoc]⟩

theorem length_codeBytes (code : UInt32) : (codeBytes code).length = 4 :=
  Varint.length_bigEndian 4 code.toNat

theorem accumulate_codeBytes (code : UInt32) :
    UInt32.ofNat (Varint.accumulate 0 (codeBytes code)) = code := by
  have hlt := code.toNat_lt
  rw [codeBytes, Varint.accumulate_bigEndian, Nat.zero_mul, Nat.zero_add,
    Nat.mod_eq_of_lt (by omega), UInt32.ofNat_toNat]

theorem parseOne_written {cap : Decoded} {bs : Bytes} (h : Written cap bs) :
    parseOne bs = (.ok cap, bs.length) := by
  cases h with
  | close h =>
    rename_i code reason cap
    obtain ⟨hlen, header, hhdr, rfl⟩ := encodeClose_eq h
    have hcode := length_codeBytes code
    have hpay : (codeBytes code ++ reason).length = 4 + reason.length := by
      rw [List.length_append, hcode]
    have hclass : classify typeCloseSession (codeBytes code ++ reason).length = some .close := by
      rw [hpay, classify, if_pos rfl, if_neg (by omega)]
    have hdec := H3Frame.decodeHeader_encodeHeader hhdr
    rw [← hpay] at hdec
    rw [parseOne_whole _ _ hdec hclass, whole]
    have htake : (codeBytes code ++ reason).take 4 = codeBytes code := by
      rw [← hcode, List.take_left]
    have hdrop : (codeBytes code ++ reason).drop 4 = reason := by
      rw [← hcode, List.drop_left]
    simp only [htake, hdrop, accumulate_codeBytes, if_true, hpay, List.length_append,
      Nat.add_sub_cancel]
  | drain h =>
    have hdec := H3Frame.decodeHeader_encodeHeader h
    have hone := parseOne_whole [] .drain hdec rfl
    rwa [List.append_nil] at hone
  | unknown hclose hdrain h =>
    rw [parseOne_whole _ .unknown h (by rw [classify, if_neg hclose, if_neg hdrain])]
    rfl

/-- Bytes of one capsule, however they are followed. -/
theorem feedPiece_written {cap : Decoded} {bs : Bytes} (h : Written cap bs) :
    feedPiece decFeed Result.item decInit bs = ([cap], decInit, bs.length) := by
  have hone := parseOne_written h
  obtain ⟨hres, hused, hinit⟩ := decFeed_parseOne bs
  rw [hone] at hres hused hinit
  have hitem : (decFeed decInit bs).1.item = some cap := by rw [hres]; rfl
  have hrest := framing.idle good_init
  rw [framing.feedPiece_some good_init hitem, hinit cap rfl, hused, List.drop_length,
    Framing.feedPiece_none hrest.1, hrest.2]
  rfl

theorem feedPiece_writtens {l : List (Decoded × Bytes)} (h : ∀ p ∈ l, Written p.1 p.2) :
    feedPiece decFeed Result.item decInit (l.flatMap Prod.snd) =
      (l.map Prod.fst, decInit, (l.flatMap Prod.snd).length) := by
  induction l with
  | nil =>
    have hidle := framing.idle good_init
    rw [List.flatMap_nil, Framing.feedPiece_none hidle.1, hidle.2]
    rfl
  | cons p l ih =>
    rw [List.flatMap_cons, framing.feedPiece_append good_init,
      feedPiece_written (h p (List.mem_cons_self ..))]
    dsimp only
    rw [ih fun q hq => h q (List.mem_cons_of_mem _ hq), List.length_append]
    rfl

theorem encodeClose_of_le {code : UInt32} {reason : Bytes} {cap : Nat}
    (hlen : reason.length ≤ maxReason)
    (hcap : H3Frame.headerLen typeCloseSession (4 + reason.length) + (4 + reason.length) ≤ cap) :
    ∃ bs, encodeClose code reason cap = .ok bs := by
  have hmax : 4 + reason.length ≤ Varint.max := by
    unfold maxReason at hlen
    unfold Varint.max
    omega
  have htype : typeCloseSession ≤ Varint.max := by decide
  obtain ⟨header, hhdr, -⟩ := H3Frame.encodeHeader_of_le cap htype hmax (by omega)
  refine ⟨header ++ codeBytes code ++ reason, ?_⟩
  rw [encodeClose, if_neg (by omega)]
  dsimp only
  rw [if_neg (by omega), hhdr]
  rfl

/-! ## Rejection -/

/-- A header that no capsule of its type can have. -/
def Misshapen (h : H3Frame.Header) : Prop :=
  (h.type = typeCloseSession ∧ (h.length < 4 ∨ 4 + maxReason < h.length)) ∨
    (h.type = typeDrainSession ∧ h.length ≠ 0)

theorem classify_misshapen {h : H3Frame.Header} (hm : Misshapen h) :
    classify h.type h.length = none := by
  cases hm with
  | inl hclose => rw [classify, if_pos hclose.1, if_pos hclose.2]
  | inr hdrain =>
    have hne : h.type ≠ typeCloseSession := by
      rw [hdrain.1]
      decide
    rw [classify, if_neg hne, if_pos hdrain.1, if_pos hdrain.2]

theorem feedPiece_misshapen {header : Bytes} {h : H3Frame.Header}
    (hh : H3Frame.decodeHeader header = some h) (hm : Misshapen h) (rest : Bytes) :
    ∃ d, feedPiece decFeed Result.item decInit (header ++ rest) = ([], d, h.headerLen) ∧
      d.state = .poisoned := by
  have hx := H3Frame.decFeed_of_decodeHeader (H3Frame.decodeHeader_append hh rest)
  have hfeed := decFeed_malformed (d := decInit) rfl hx (classify_misshapen hm)
  rw [Framing.feedPiece_none (by rw [hfeed]; rfl), hfeed]
  exact ⟨_, rfl, rfl⟩

/-- However a stream of capsules is cut, the decoder reports what one reads off the whole of it.
It reports exactly the capsules that were written. The header of a misshapen capsule is the last
thing it takes. -/
theorem capsule_stream :
    (∀ chunks : List Bytes,
      ((feedPieces decFeed Result.item decInit chunks).1,
        verdict (feedPieces decFeed Result.item decInit chunks).2.1,
        (feedPieces decFeed Result.item decInit chunks).2.2) = parse chunks.flatten) ∧
    (∀ l : List (Decoded × Bytes), (∀ p ∈ l, Written p.1 p.2) →
      ∀ chunks : List Bytes, chunks.flatten = l.flatMap Prod.snd →
        feedPieces decFeed Result.item decInit chunks =
          (l.map Prod.fst, decInit, chunks.flatten.length)) ∧
    (∀ (code : UInt32) (reason : Bytes) (cap : Nat), reason.length ≤ maxReason →
      H3Frame.headerLen typeCloseSession (4 + reason.length) + (4 + reason.length) ≤ cap →
      ∃ bs, encodeClose code reason cap = .ok bs) ∧
    (∀ cap, H3Frame.headerLen typeDrainSession 0 ≤ cap → ∃ bs, encodeDrain cap = .ok bs) ∧
    ∀ (l : List (Decoded × Bytes)) (header : Bytes) (h : H3Frame.Header),
      (∀ p ∈ l, Written p.1 p.2) → H3Frame.decodeHeader header = some h →
      h.headerLen = header.length → Misshapen h →
      ∀ (rest : Bytes) (chunks : List Bytes),
        chunks.flatten = l.flatMap Prod.snd ++ (header ++ rest) →
        ∃ d, feedPieces decFeed Result.item decInit chunks =
            (l.map Prod.fst, d, (l.flatMap Prod.snd ++ header).length) ∧
          ∀ src, decFeed d src = (.malformed, d, 0) := by
  refine ⟨fun chunks => ?_, fun l hl chunks hflat => ?_, fun code reason cap => encodeClose_of_le,
    fun cap hcap => ?_, fun l header h hl hh hlen hm rest chunks hflat => ?_⟩
  · rw [framing.feedPieces_eq good_init, parse, feedPiece_parse (Nat.lt_succ_self _)]
  · rw [framing.feedPieces_eq good_init, hflat, feedPiece_writtens hl]
  · obtain ⟨bs, hbs, -⟩ := H3Frame.encodeHeader_of_le cap (by decide) (by decide) hcap
    exact ⟨bs, hbs⟩
  · obtain ⟨d, hd, hpoison⟩ := feedPiece_misshapen hh hm rest
    refine ⟨d, ?_, decFeed_poisoned hpoison⟩
    rw [framing.feedPieces_eq good_init, hflat, framing.feedPiece_append good_init,
      feedPiece_writtens hl]
    dsimp only
    rw [hd, List.length_append, hlen, List.append_nil]

end Capsule
end Wtquic
