-- SUMMARY: The varint, frame-header and preamble decoders fed in pieces, against their one-shot decoders.
import Wtquic.Proto.CapsuleStream
import Wtquic.Proto.Preamble

/-! # Feeding in pieces

Each decoder reports what the one-shot decoder reads off the concatenation, and stops behind it. -/

namespace Wtquic

/-! ## Varints -/

namespace Varint

/-- The report on the first varint of the input, and its length. -/
def item (a : Bytes) : Option (Option Nat × Nat) := (decode a).map fun r => (some r.1, r.2)

theorem item_some {a : Bytes} {r : Option Nat} {n : Nat} (h : item a = some (r, n)) :
    ∃ v, r = some v ∧ decode a = some (v, n) := by
  obtain ⟨⟨v, m⟩, hd, hr⟩ := Option.map_eq_some_iff.mp h
  cases hr
  exact ⟨v, rfl, hd⟩

/-- What is missing of a varint can be added. -/
theorem decode_extend {a : Bytes} (h : decode a = none) :
    ∃ b v, b ≠ [] ∧ decode (a ++ b) = some (v, (a ++ b).length) := by
  cases a with
  | nil => exact ⟨[0], 0, by simp, by decide⟩
  | cons c rest =>
    unfold decode at h
    dsimp only at h
    split at h
    · next hlt =>
      have hlen : (rest ++ List.replicate (lenFromFirst c - (rest.length + 1)) 0).length + 1
          = lenFromFirst c := by
        rw [List.length_append, List.length_replicate]
        omega
      refine ⟨List.replicate (lenFromFirst c - (rest.length + 1)) 0,
        accumulate (c.toNat % 64)
          ((rest ++ List.replicate (lenFromFirst c - (rest.length + 1)) 0).take
            (lenFromFirst c - 1)), ?_, ?_⟩
      · intro hnil
        have hzero := congrArg List.length hnil
        rw [List.length_replicate, List.length_nil] at hzero
        omega
      · rw [List.cons_append, decode, hlen, if_neg (Nat.lt_irrefl _), List.length_cons, hlen]
    · cases h

theorem agrees : Agrees decFeed (· = none) decInit item := by
  refine .of_whole incremental ?_ ?_ ?_
  · intro a r n h
    obtain ⟨v, rfl, hd⟩ := item_some h
    rw [decFeed_of_decode hd]
    exact ⟨rfl, rfl, nofun⟩
  · intro a h
    exact decFeed_of_decode_none (Option.map_eq_none_iff.mp h)
  · intro a h
    obtain ⟨b, v, hb, hd⟩ := decode_extend (Option.map_eq_none_iff.mp h)
    exact ⟨b, some v, hb, by rw [item, hd]; rfl⟩

/-- A complete varint leaves a fresh decoder, wherever the input was cut. -/
theorem feedUntil_fresh {a : Bytes} {rest : List Bytes} {v : Nat}
    (h : (feedUntil decFeed (· = none) decInit a rest).1 = some v) :
    (feedUntil decFeed (· = none) decInit a rest).2.1 = decInit := by
  rw [incremental.feedUntil_eq] at h ⊢
  exact decFeed_some (c := (decFeed decInit (a ++ rest.flatten)).2.2) (Prod.ext h rfl)

theorem item_encode {value cap : Nat} {bs : Bytes} (h : encode value cap = .ok bs) (b : Bytes) :
    item (bs ++ b) = some (some value, bs.length) := by
  rw [item, decode_append (decode_encode h)]
  rfl

end Varint

/-! ## Frame headers -/

namespace H3Frame

/-- The report on the first frame header of the input, and its length. -/
def item (a : Bytes) : Option (Option Header × Nat) :=
  (decodeHeader a).map fun h => (some h, h.headerLen)

theorem decodeHeader_eq {a : Bytes} {type tl : Nat} (ht : Varint.decode a = some (type, tl)) :
    decodeHeader a = (Varint.decode (a.drop tl)).map fun l =>
      { type, length := l.1, headerLen := tl + l.2 } := by
  unfold decodeHeader
  rw [ht]
  dsimp only [Option.bind_eq_bind, Option.bind_some]
  cases Varint.decode (a.drop tl) <;> rfl

/-- What is missing of a frame header can be added. -/
theorem decodeHeader_extend {a : Bytes} (h : decodeHeader a = none) :
    ∃ b hd, b ≠ [] ∧ decodeHeader (a ++ b) = some hd ∧ hd.headerLen = (a ++ b).length := by
  cases ht : Varint.decode a with
  | none =>
    -- the type is not complete, and an empty payload does for the length
    obtain ⟨b, v, hb, hd⟩ := Varint.decode_extend ht
    have hzero : Varint.decode [0] = some (0, 1) := by decide
    refine ⟨b ++ [0], { type := v, length := 0, headerLen := (a ++ b).length + 1 }, by simp, ?_, ?_⟩
    · rw [← List.append_assoc, decodeHeader_eq (Varint.decode_append hd [0]),
        List.drop_left, hzero]
      rfl
    · rw [← List.append_assoc]
      exact (List.length_append : (a ++ b ++ [0]).length = _).symm
  | some t =>
    obtain ⟨type, tl⟩ := t
    have htl := (Varint.decode_le ht).2
    rw [decodeHeader_eq ht, Option.map_eq_none_iff] at h
    obtain ⟨b, v, hb, hd⟩ := Varint.decode_extend h
    refine ⟨b, { type, length := v, headerLen := tl + (a.drop tl ++ b).length }, hb, ?_, ?_⟩
    · rw [decodeHeader_eq (Varint.decode_append ht b), List.drop_append_of_le_length htl, hd]
      rfl
    · simp only [List.length_append, List.length_drop]
      omega

theorem agrees : Agrees decFeed (· = none) decInit item := by
  refine .of_whole incremental ?_ ?_ ?_
  · intro a r n h
    obtain ⟨hd, hh, hr⟩ := Option.map_eq_some_iff.mp h
    cases hr
    rw [decFeed_of_decodeHeader hh]
    exact ⟨rfl, rfl, nofun⟩
  · intro a h
    exact decFeed_of_decodeHeader_none (Option.map_eq_none_iff.mp h)
  · intro a h
    obtain ⟨b, hd, hb, hh, hlen⟩ := decodeHeader_extend (Option.map_eq_none_iff.mp h)
    exact ⟨b, some hd, hb, by rw [item, hh, Option.map_some, hlen]⟩

/-- A complete header leaves a fresh decoder, wherever the input was cut. -/
theorem feedUntil_fresh {a : Bytes} {rest : List Bytes} {h : Header}
    (hr : (feedUntil decFeed (· = none) decInit a rest).1 = some h) :
    (feedUntil decFeed (· = none) decInit a rest).2.1 = decInit := by
  rw [incremental.feedUntil_eq] at hr ⊢
  cases hh : decodeHeader (a ++ rest.flatten) with
  | none =>
    rw [decFeed_of_decodeHeader_none hh] at hr
    cases hr
  | some hd => rw [decFeed_of_decodeHeader hh]

theorem item_encode {type length cap : Nat} {bs : Bytes}
    (h : encodeHeader type length cap = .ok bs) (b : Bytes) :
    item (bs ++ b) = some (some { type, length, headerLen := bs.length }, bs.length) := by
  rw [item, decodeHeader_append (decodeHeader_encodeHeader h)]
  rfl

end H3Frame

/-! ## Preambles -/

namespace Preamble

/-- The report on the first preamble of the input, and how far it reads: to the end of the session
id, or of a type that is not expected. -/
def item (expect : Kind) (a : Bytes) : Option (Result × Nat) :=
  match decode expect a with
  | .needMore => none
  | .ok sid n t => some (.ok sid n t, n)
  | .unexpected t => (Varint.decode a).map fun r => (.unexpected t, r.2)

theorem decFeed_of_decode_none (expect : Kind) {a : Bytes} (h : Varint.decode a = none) :
    (decFeed decInit expect a).1 = .needMore := by
  have hvi := Varint.decFeed_of_decode_none h
  rcases hx : Varint.decFeed Varint.decInit a with ⟨_ | v, vi, c⟩
  · rw [decFeed_of_type (d := decInit) rfl expect hx]
    rfl
  · rw [hx] at hvi
    cases hvi

/-- A type that is not expected. -/
theorem decFeed_unexpected {expect : Kind} {a : Bytes} {v n : Nat}
    (h : Varint.decode a = some (v, n)) (hv : v ≠ kindCodepoint expect) :
    decFeed decInit expect a =
      (.unexpected v, { vi := Varint.decInit, state := .poisoned, wireType := v, hdrBytes := n }, n) := by
  rw [decFeed_of_type (d := decInit) rfl expect (Varint.decFeed_of_decode h), Dec.afterType,
    if_pos hv]
  simp [Dec.typed, decInit]

/-- An expected type, and what follows it. -/
theorem decFeed_expected {expect : Kind} {a : Bytes} {n : Nat}
    (h : Varint.decode a = some (kindCodepoint expect, n)) :
    (decFeed decInit expect a).1 = (match Varint.decode (a.drop n) with
      | none => .needMore
      | some (sid, m) => .ok sid (n + m) (kindCodepoint expect)) ∧
    ∀ sid m, Varint.decode (a.drop n) = some (sid, m) →
      (decFeed decInit expect a).2 = (decInit, n + m) := by
  rw [decFeed_of_type (d := decInit) rfl expect (Varint.decFeed_of_decode h), Dec.afterType,
    if_neg (not_not.mpr rfl)]
  unfold decFeedSession
  simp only [Dec.typed]
  cases hs : Varint.decode (a.drop n) with
  | none =>
    have hvi := Varint.decFeed_of_decode_none hs
    rcases hx : Varint.decFeed Varint.decInit (a.drop n) with ⟨_ | v, vi, c⟩
    · exact ⟨rfl, fun _ _ h => by cases h⟩
    · rw [hx] at hvi
      cases hvi
  | some r =>
    obtain ⟨sid, m⟩ := r
    simp only [Varint.decFeed_of_decode hs]
    refine ⟨by simp [decInit], ?_⟩
    rintro sid' m' ⟨⟩
    simp

/-- The one-shot decoder, varint by varint. -/
theorem item_eq (expect : Kind) (a : Bytes) : item expect a =
    (Varint.decode a).bind fun t =>
      if t.1 ≠ kindCodepoint expect then some (.unexpected t.1, t.2)
      else (Varint.decode (a.drop t.2)).map fun s =>
        (.ok s.1 (t.2 + s.2) (kindCodepoint expect), t.2 + s.2) := by
  unfold item decode
  cases ht : Varint.decode a with
  | none => rw [decFeed_of_decode_none expect ht]; rfl
  | some t =>
    obtain ⟨v, n⟩ := t
    rw [Option.bind_some]
    by_cases hv : v = kindCodepoint expect
    · subst hv
      rw [(decFeed_expected ht).1, if_neg (not_not.mpr rfl)]
      cases Varint.decode (a.drop n) <;> rfl
    · rw [decFeed_unexpected ht hv, if_pos hv]
      rfl

/-- What is missing of a preamble can be added. -/
theorem item_extend {expect : Kind} {a : Bytes} (h : item expect a = none) :
    ∃ b r, b ≠ [] ∧ item expect (a ++ b) = some (r, (a ++ b).length) := by
  rw [item_eq] at h
  cases ht : Varint.decode a with
  | none =>
    obtain ⟨b, v, hb, hd⟩ := Varint.decode_extend ht
    by_cases hv : v = kindCodepoint expect
    · -- the type turns out to be the expected one, and session 0 follows it
      have hzero : Varint.decode [0] = some (0, 1) := by decide
      refine ⟨b ++ [0], .ok 0 ((a ++ b).length + 1) v, by simp, ?_⟩
      have hlen : (a ++ b ++ [0]).length = (a ++ b).length + 1 := List.length_append
      rw [← List.append_assoc, item_eq, Varint.decode_append hd [0], Option.bind_some,
        if_neg (not_not.mpr hv), List.drop_left, hzero, hv, hlen]
      rfl
    · exact ⟨b, .unexpected v, hb, by rw [item_eq, hd, Option.bind_some, if_pos hv]⟩
  | some t =>
    obtain ⟨v, n⟩ := t
    have hn := (Varint.decode_le ht).2
    rw [ht, Option.bind_some] at h
    dsimp only at h
    split at h
    · cases h
    · next hv =>
      obtain ⟨b, sid, hb, hd⟩ := Varint.decode_extend (Option.map_eq_none_iff.mp h)
      refine ⟨b, .ok sid (n + (a.drop n ++ b).length) (kindCodepoint expect), hb, ?_⟩
      rw [item_eq, Varint.decode_append ht b, Option.bind_some, if_neg hv,
        List.drop_append_of_le_length hn, hd, Option.map_some]
      simp only [List.length_append, List.length_drop, Option.some.injEq, Prod.mk.injEq, true_and]
      omega

theorem agrees (expect : Kind) :
    Agrees (fun d src => decFeed d expect src) (· = .needMore) decInit (item expect) := by
  refine .of_whole (incremental expect) ?_ ?_ fun a => item_extend
  · intro a r n h
    rw [item_eq] at h
    cases ht : Varint.decode a with
    | none => simp [ht] at h
    | some t =>
      obtain ⟨v, m⟩ := t
      rw [ht, Option.bind_some] at h
      dsimp only at h
      split at h
      · next hv =>
        cases h
        simp only [decFeed_unexpected ht hv]
        exact ⟨trivial, trivial, nofun⟩
      · next hv =>
        obtain rfl := not_not.mp hv
        obtain ⟨⟨sid, k⟩, hs, hr⟩ := Option.map_eq_some_iff.mp h
        cases hr
        obtain ⟨hfst, hsnd⟩ := decFeed_expected ht
        simp only [hfst, hsnd sid k hs, hs]
        exact ⟨trivial, trivial, nofun⟩
  · intro a h
    rw [item_eq] at h
    cases ht : Varint.decode a with
    | none => exact decFeed_of_decode_none expect ht
    | some t =>
      obtain ⟨v, m⟩ := t
      rw [ht, Option.bind_some] at h
      dsimp only at h
      split at h
      · cases h
      · next hv =>
        obtain rfl := not_not.mp hv
        simp only [(decFeed_expected ht).1, Option.map_eq_none_iff.mp h]

/-- A complete preamble leaves a fresh decoder, and an unexpected type one that reports it for ever
and takes nothing. -/
theorem feedUntil_state (expect : Kind) (a : Bytes) (rest : List Bytes) :
    (∀ sid n t, (feedUntil (fun d src => decFeed d expect src) (· = .needMore) decInit a rest).1
        = .ok sid n t →
      (feedUntil (fun d src => decFeed d expect src) (· = .needMore) decInit a rest).2.1
        = decInit) ∧
    ∀ t, (feedUntil (fun d src => decFeed d expect src) (· = .needMore) decInit a rest).1
        = .unexpected t →
      ∀ expect' src, decFeed
          (feedUntil (fun d src => decFeed d expect src) (· = .needMore) decInit a rest).2.1
          expect' src
        = (.unexpected t,
          (feedUntil (fun d src => decFeed d expect src) (· = .needMore) decInit a rest).2.1, 0) := by
  rw [(incremental expect).feedUntil_eq]
  generalize a ++ rest.flatten = b
  refine ⟨fun sid n t h => decFeed_ok (c := (decFeed decInit expect b).2.2) (Prod.ext h rfl), ?_⟩
  intro t h expect' src
  obtain ⟨hmore, -⟩ | ⟨hres, hstate, -⟩ :=
    decFeed_init_cases (show decFeed decInit expect b = ((decFeed decInit expect b).1,
      (decFeed decInit expect b).2.1, (decFeed decInit expect b).2.2) from rfl)
      (by rw [h]; exact nofun)
  · rw [h] at hmore
    cases hmore
  · rw [decFeed_poisoned hstate]
    rw [h] at hres
    cases hres
    rfl

theorem item_encode {kind : Kind} {sid cap : Nat} {bs : Bytes} (h : encode kind sid cap = .ok bs)
    (b : Bytes) : item kind (bs ++ b)
      = some (.ok sid bs.length (kindCodepoint kind), bs.length) := by
  unfold encode at h
  dsimp only at h
  split at h
  · cases h
  split at h
  · cases h
  cases ht : Varint.encode (kindCodepoint kind) cap with
  | error e => simp [ht, bind, Except.bind] at h
  | ok t =>
    cases hs : Varint.encode sid (cap - t.length) with
    | error e => simp [ht, hs, bind, Except.bind] at h
    | ok s =>
      simp only [ht, hs, bind, Except.bind, pure, Except.pure, Except.ok.injEq] at h
      subst h
      rw [item_eq, List.append_assoc, Varint.decode_append (Varint.decode_encode ht),
        Option.bind_some, if_neg (not_not.mpr rfl), List.drop_left,
        Varint.decode_append (Varint.decode_encode hs), Option.map_some, List.length_append]

end Preamble

/-! ## All three -/

/-- Every incremental decoder agrees with its one-shot decoder on every input, however it is cut;
it is then ready for the next item, or for ever stuck at an unexpected type; and it undoes its
encoder. -/
theorem incremental_decoders :
    (Agrees Varint.decFeed (· = none) Varint.decInit Varint.item ∧
      Agrees H3Frame.decFeed (· = none) H3Frame.decInit H3Frame.item ∧
      ∀ expect, Agrees (fun d src => Preamble.decFeed d expect src) (· = .needMore)
        Preamble.decInit (Preamble.item expect)) ∧
    ((∀ a rest v, (feedUntil Varint.decFeed (· = none) Varint.decInit a rest).1 = some v →
        (feedUntil Varint.decFeed (· = none) Varint.decInit a rest).2.1 = Varint.decInit) ∧
      (∀ a rest h, (feedUntil H3Frame.decFeed (· = none) H3Frame.decInit a rest).1 = some h →
        (feedUntil H3Frame.decFeed (· = none) H3Frame.decInit a rest).2.1 = H3Frame.decInit) ∧
      ∀ expect a rest,
        let r := feedUntil (fun d src => Preamble.decFeed d expect src) (· = .needMore)
          Preamble.decInit a rest
        (∀ sid n t, r.1 = .ok sid n t → r.2.1 = Preamble.decInit) ∧
        ∀ t, r.1 = .unexpected t → ∀ expect' src,
          Preamble.decFeed r.2.1 expect' src = (.unexpected t, r.2.1, 0)) ∧
    (∀ value cap bs b, Varint.encode value cap = .ok bs →
      Varint.item (bs ++ b) = some (some value, bs.length)) ∧
    (∀ type length cap bs b, H3Frame.encodeHeader type length cap = .ok bs →
      H3Frame.item (bs ++ b) = some (some { type, length, headerLen := bs.length }, bs.length)) ∧
    ∀ kind sid cap bs b, Preamble.encode kind sid cap = .ok bs →
      Preamble.item kind (bs ++ b)
        = some (.ok sid bs.length (Preamble.kindCodepoint kind), bs.length) := by
  refine ⟨⟨Varint.agrees, H3Frame.agrees, Preamble.agrees⟩, ⟨?_, ?_, ?_⟩, ?_, ?_, ?_⟩
  · exact fun a rest v => Varint.feedUntil_fresh
  · exact fun a rest h => H3Frame.feedUntil_fresh
  · exact Preamble.feedUntil_state
  · exact fun value cap bs b h => Varint.item_encode h b
  · exact fun type length cap bs b h => H3Frame.item_encode h b
  · exact fun kind sid cap bs b h => Preamble.item_encode h b

end Wtquic
