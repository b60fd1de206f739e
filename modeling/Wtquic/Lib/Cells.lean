-- SUMMARY: Fixed arrays with checked writes, and strings packed into them back to back.
import Mathlib.Algebra.GroupWithZero.Nat
import Mathlib.Data.List.Basic

/-! # Fixed arrays

An array of `n` cells whose writes are refused when they leave it. Strings are packed into such
an array one after the other; a second array remembers the span of each. -/

structure Cells (α : Type) (n : Nat) where
  cells : List α
  size : cells.length = n

namespace Cells

variable {α : Type} {n m : Nat}

def read (b : Cells α n) (off len : Nat) : List α := (b.cells.drop off).take len

/-- Overwrite the cells from `off` on; `none` when that would leave the array. -/
def write (b : Cells α n) (off : Nat) (xs : List α) : Option (Cells α n) :=
  if h : off + xs.length ≤ n then
    some {
      cells := b.cells.take off ++ (xs ++ b.cells.drop (off + xs.length))
      size := by
        have hsize := b.size
        simp only [List.length_append, List.length_take, List.length_drop]
        omega }
  else none

@[simp] theorem read_zero (b : Cells α n) (off : Nat) : b.read off 0 = [] := by
  simp [read]

theorem length_read (b : Cells α n) {off len : Nat} (h : off + len ≤ n) :
    (b.read off len).length = len := by
  have hsize := b.size
  simp only [read, List.length_take, List.length_drop]
  omega

theorem read_append (b : Cells α n) (off k l : Nat) :
    b.read off (k + l) = b.read off k ++ b.read (off + k) l := by
  simp only [read, List.take_add, List.drop_drop]

theorem write_ok (b : Cells α n) {off : Nat} {xs : List α} (h : off + xs.length ≤ n) :
    ∃ b', b.write off xs = some b' ∧ b'.read off xs.length = xs ∧
      ∀ o l, o + l ≤ off → b'.read o l = b.read o l := by
  have hsize := b.size
  have hfront : (b.cells.take off).length = off := by
    rw [List.length_take]
    omega
  refine ⟨_, dif_pos h, ?_, ?_⟩
  · unfold read
    dsimp only
    rw [List.drop_left' hfront, List.take_left]
  · intro o l hol
    unfold read
    dsimp only
    rw [List.drop_append_of_le_length (by omega), List.take_append_of_le_length
      (by rw [List.length_drop]; omega), List.drop_take, List.take_take]
    congr 1
    omega

/-! ## Packed strings -/

/-- Where a string starts, and its length. -/
structure Span where
  off : Nat
  len : Nat
  deriving DecidableEq, Repr

def span (b : Cells α n) (s : Span) : List α := b.read s.off s.len

/-- Two spans have no cell in common. -/
def Span.Apart (s t : Span) : Prop := s.off + s.len ≤ t.off ∨ t.off + t.len ≤ s.off

/-- The cells that strings take, each with `pad` cells after it. -/
def room (pad : Nat) (ss : List (List α)) : Nat := (ss.map fun s => s.length + pad).sum

/-- The spans of strings packed from `off` on. -/
def layout (pad : Nat) : Nat → List (List α) → List Span
  | _, [] => []
  | off, s :: ss => ⟨off, s.length⟩ :: layout pad (off + (s.length + pad)) ss

/-- Write each string and the padding after it, and remember its span at `j`, `j + 1`, …; `none`
when a write leaves an array. The last number is where the next string would start. -/
def packStrings (pad : List α) (buf : Cells α n) (spans : Cells Span m) :
    Nat → Nat → List (List α) → Option (Cells α n × Cells Span m × Nat)
  | off, _, [] => some (buf, spans, off)
  | off, j, s :: ss =>
    match buf.write off (s ++ pad) with
    | none => none
    | some buf =>
      match spans.write j [⟨off, s.length⟩] with
      | none => none
      | some spans => packStrings pad buf spans (off + (s.length + pad.length)) (j + 1) ss

theorem room_cons (pad : Nat) (s : List α) (ss : List (List α)) :
    room pad (s :: ss) = s.length + pad + room pad ss := rfl

theorem room_append (pad : Nat) (ss ts : List (List α)) :
    room pad (ss ++ ts) = room pad ss + room pad ts := by
  simp only [room, List.map_append, List.sum_append]

theorem layout_append (pad off : Nat) (ss ts : List (List α)) :
    layout pad off (ss ++ ts) = layout pad off ss ++ layout pad (off + room pad ss) ts := by
  induction ss generalizing off with
  | nil => rfl
  | cons s ss ih =>
    simp only [List.cons_append, layout, ih, room_cons]
    rw [Nat.add_assoc off]

@[simp] theorem length_layout (pad off : Nat) (ss : List (List α)) :
    (layout pad off ss).length = ss.length := by
  induction ss generalizing off with
  | nil => rfl
  | cons s ss ih => simp only [layout, List.length_cons, ih]

/-- Packed strings stay between their start and the next one's. -/
theorem layout_within {pad off : Nat} {ss : List (List α)} :
    ∀ s ∈ layout pad off ss, off ≤ s.off ∧ s.off + s.len ≤ off + room pad ss := by
  induction ss generalizing off with
  | nil => exact fun s hs => nomatch hs
  | cons x ss ih =>
    intro s hs
    rw [room_cons]
    rcases List.mem_cons.mp hs with rfl | hs
    · dsimp only
      omega
    · obtain ⟨hlo, hhi⟩ := ih s hs
      omega

theorem layout_apart (pad off : Nat) (ss : List (List α)) :
    (layout pad off ss).Pairwise Span.Apart := by
  induction ss generalizing off with
  | nil => exact .nil
  | cons x ss ih =>
    refine .cons ?_ (ih _)
    intro s hs
    obtain ⟨hlo, -⟩ := layout_within s hs
    refine .inl ?_
    dsimp only
    omega

/-- Packing strings that fit succeeds, keeps what lies before, and reads back. -/
theorem packStrings_ok (pad : List α) {ss : List (List α)} (buf : Cells α n) (spans : Cells Span m)
    {off j : Nat} (hroom : off + room pad.length ss ≤ n) (hj : j + ss.length ≤ m) :
    ∃ buf' spans', packStrings pad buf spans off j ss =
        some (buf', spans', off + room pad.length ss) ∧
      spans'.read 0 j = spans.read 0 j ∧
      spans'.read j ss.length = layout pad.length off ss ∧
      (∀ o l, o + l ≤ off → buf'.read o l = buf.read o l) ∧
      (layout pad.length off ss).map buf'.span = ss := by
  induction ss generalizing buf spans off j with
  | nil => exact ⟨buf, spans, rfl, rfl, by simp [layout], fun _ _ _ => rfl, rfl⟩
  | cons s ss ih =>
    rw [room_cons] at hroom ⊢
    rw [List.length_cons] at hj ⊢
    have hlen : (s ++ pad).length = s.length + pad.length := List.length_append
    obtain ⟨buf₁, hbuf, hself, hkeep⟩ :=
      buf.write_ok (show off + (s ++ pad).length ≤ n by omega)
    obtain ⟨spans₁, hspans, hspan, hspanKeep⟩ :=
      spans.write_ok (show j + [Span.mk off s.length].length ≤ m by simp; omega)
    obtain ⟨buf', spans', hpack, hbefore, hafter, hframe, hread⟩ := ih buf₁ spans₁
      (show off + (s.length + pad.length) + room pad.length ss ≤ n by omega)
      (show j + 1 + ss.length ≤ m by omega)
    -- the span just written is still there after the rest
    rw [read_append, read_append, Nat.zero_add] at hbefore
    obtain ⟨hfirst, hjth⟩ := List.append_inj hbefore
      (by rw [length_read _ (by omega), length_read _ (by omega)])
    rw [List.length_singleton] at hspan
    -- and so is the string
    have hstring : buf'.read off s.length = s := by
      rw [hlen, read_append] at hself
      rw [hframe off s.length (by omega)]
      exact (List.append_inj hself (length_read _ (by omega))).1
    refine ⟨buf', spans', ?_, ?_, ?_, ?_, ?_⟩
    · rw [packStrings, hbuf]
      dsimp only
      rw [hspans]
      dsimp only
      rw [hpack, Nat.add_assoc off]
    · rw [hfirst]
      exact hspanKeep 0 j (by omega)
    · rw [Nat.add_comm ss.length, read_append, hjth, hspan, hafter]
      rfl
    · intro o l hol
      rw [hframe o l (by omega), hkeep o l hol]
    · rw [layout, List.map_cons, hread]
      exact congrArg (· :: ss) hstring

end Cells
