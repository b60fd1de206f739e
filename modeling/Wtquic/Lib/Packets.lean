-- SUMMARY: Sequences of packets with a header and a counted body, read in pieces.
import Wtquic.Lib.Incremental

/-! # Packets

A packet is a header and a body whose length the header gives. A reader takes them from input
that comes in pieces: it feeds the header to an incremental decoder and counts the body. Where it
stands is a matter of what it has read, and not of where the input was cut. -/

/-- A packet, with the symbols its header was read from. -/
structure Packet (η α : Type) where
  hdr : η
  head : List α
  body : List α

def Packet.symbols {η α : Type} (q : Packet η α) : List α := q.head ++ q.body

/-- Where a reader stands: in front of a header that it has read in part, or in a body. -/
inductive Pending (δ η α : Type) where
  | between (dec : δ)
  | inside (hdr : η) (got : List α)

section
variable {δ η α : Type} (feed : δ → List α → Option η × δ × Nat) (init : δ) (size : η → Nat)

/-- The symbols `head` are a header, up to the last one. -/
def IsHeader (head : List α) (hdr : η) : Prop :=
  (feed init head).1 = some hdr ∧ (feed init head).2.2 = head.length

/-- A packet that is complete. -/
structure Packet.Whole (q : Packet η α) : Prop where
  head : IsHeader feed init q.head q.hdr
  body : q.body.length = size q.hdr

/-- The symbols behind the last complete packet. -/
def Pending.Holds (tail : List α) : Pending δ η α → Prop
  | .between dec => feed init tail = (none, dec, tail.length)
  | .inside hdr got => ∃ head, IsHeader feed init head hdr ∧ tail = head ++ got ∧
      got.length ≤ size hdr

/-- A reader that was given `input` has completed the packets `qs`, and stands at `p`. -/
structure Reads (input : List α) (qs : List (Packet η α)) (p : Pending δ η α) : Prop where
  whole : ∀ q ∈ qs, q.Whole feed init size
  rest : ∃ tail, input = qs.flatMap Packet.symbols ++ tail ∧ p.Holds feed init size tail

/-- The input begins with the packets `qs`. -/
structure Begins (input : List α) (qs : List (Packet η α)) : Prop where
  whole : ∀ q ∈ qs, q.Whole feed init size
  front : qs.flatMap Packet.symbols <+: input

variable {feed init size} {input : List α} {qs : List (Packet η α)} {p : Pending δ η α}

/-- What the input begins with stays as it goes on. -/
theorem Begins.extend {longer : List α} (h : Begins feed init size input qs)
    (hlong : input <+: longer) : Begins feed init size longer qs :=
  ⟨h.whole, h.front.trans hlong⟩

namespace Reads

theorem begins (h : Reads feed init size input qs p) : Begins feed init size input qs := by
  obtain ⟨tail, hinput, -⟩ := h.rest
  exact ⟨h.whole, ⟨tail, hinput.symm⟩⟩

/-- Nothing has been read. -/
theorem nil (hidle : feed init [] = (none, init, 0)) :
    Reads feed init size ([] : List α) [] (.between init) :=
  ⟨by simp, [], rfl, hidle⟩

/-- The header goes on behind this piece. -/
theorem more (F : Incremental feed (· = none)) {dec dec' : δ} {src : List α} {c : Nat}
    (h : Reads feed init size input qs (.between dec)) (hfeed : feed dec src = (none, dec', c)) :
    Reads feed init size (input ++ src.take c) qs (.between dec') := by
  obtain ⟨tail, hinput, htail⟩ := h.rest
  have htail : feed init tail = (none, dec, tail.length) := htail
  have hall := F.all dec src (by rw [hfeed])
  have hresume := F.resume init tail src (by rw [htail])
  rw [htail] at hresume
  rw [hfeed] at hall hresume
  obtain rfl : c = src.length := hall
  refine ⟨h.whole, tail ++ src, ?_, ?_⟩
  · rw [hinput, List.take_length, List.append_assoc]
  · change feed init (tail ++ src) = _
    rw [hresume, List.length_append]

/-- The header ends in this piece. -/
theorem head (F : Incremental feed (· = none)) {dec dec' : δ} {src : List α} {c : Nat} {hdr : η}
    (h : Reads feed init size input qs (.between dec))
    (hfeed : feed dec src = (some hdr, dec', c)) :
    Reads feed init size (input ++ src.take c) qs (.inside hdr []) := by
  obtain ⟨tail, hinput, htail⟩ := h.rest
  have htail : feed init tail = (none, dec, tail.length) := htail
  have hle := F.le dec src
  have hused := F.used dec src
  rw [hfeed] at hle hused
  have hresume := F.resume init tail (src.take c) (by rw [htail])
  rw [htail, hused] at hresume
  refine ⟨h.whole, tail ++ src.take c, ?_, tail ++ src.take c, ?_, ?_, Nat.zero_le _⟩
  · rw [hinput, List.append_assoc]
  · rw [IsHeader, hresume, List.length_append, List.length_take, Nat.min_eq_left hle]
    exact ⟨rfl, rfl⟩
  · rw [List.append_nil]

/-- A part of the body. -/
theorem take {hdr : η} {got : List α} (h : Reads feed init size input qs (.inside hdr got))
    (bs : List α) (hle : got.length + bs.length ≤ size hdr) :
    Reads feed init size (input ++ bs) qs (.inside hdr (got ++ bs)) := by
  obtain ⟨tail, hinput, head, hhead, htail, -⟩ := h.rest
  refine ⟨h.whole, tail ++ bs, ?_, head, hhead, ?_, ?_⟩
  · rw [hinput, List.append_assoc]
  · rw [htail, List.append_assoc]
  · rw [List.length_append]
    exact hle

/-- The body is complete. -/
theorem finish (hidle : feed init [] = (none, init, 0)) {hdr : η} {got : List α}
    (h : Reads feed init size input qs (.inside hdr got)) (hlen : got.length = size hdr) :
    ∃ q : Packet η α, q.hdr = hdr ∧ q.body = got ∧
      Reads feed init size input (qs ++ [q]) (.between init) := by
  obtain ⟨tail, hinput, head, hhead, htail, -⟩ := h.rest
  refine ⟨⟨hdr, head, got⟩, rfl, rfl, ?_, [], ?_, hidle⟩
  · intro q hq
    rcases List.mem_append.mp hq with hq | hq
    · exact h.whole q hq
    · obtain rfl := List.mem_singleton.mp hq
      exact ⟨hhead, hlen⟩
  · rw [hinput, htail, List.flatMap_append]
    simp [Packet.symbols]

end Reads
end
