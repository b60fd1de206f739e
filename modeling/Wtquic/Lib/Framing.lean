-- SUMMARY: Reading items one after the other from input that comes in pieces.
import Wtquic.Lib.Incremental

/-! # Framing

A reader feeds each piece of its input until the feed reports no further item. What it reads
does not depend on where the input was cut. -/

/-- A feed whose results are items, a wish for more input, or a halt. -/
structure Framing {δ α ρ β : Type} (feed : δ → List α → ρ × δ × Nat) (more : ρ → Prop)
    (item : ρ → Option β) (good : δ → Prop) : Prop where
  incremental : Incremental feed more
  more_item : ∀ {r}, more r → item r = none
  /-- A feed that has halted takes nothing more. -/
  halted : ∀ {d a}, good d → ¬ more (feed d a).1 → item (feed d a).1 = none → ∀ b,
    item (feed (feed d a).2.1 b).1 = none ∧ (feed (feed d a).2.1 b).2 = ((feed d a).2.1, 0)
  keeps : ∀ {d a}, good d → good (feed d a).2.1
  /-- A feed of nothing finds nothing and changes nothing. -/
  idle : ∀ {d}, good d → item (feed d []).1 = none ∧ (feed d []).2 = (d, 0)

section
variable {δ α ρ β : Type} (feed : δ → List α → ρ × δ × Nat) (item : ρ → Option β)

/-- The items of one piece, the state behind it, and the symbols taken. -/
def feedFuel : Nat → δ → List α → List β × δ × Nat
  | 0, d, src => ([], (feed d src).2)
  | fuel + 1, d, src =>
    match item (feed d src).1 with
    | none => ([], (feed d src).2)
    | some b =>
      let r := feedFuel fuel (feed d src).2.1 (src.drop (feed d src).2.2)
      (b :: r.1, r.2.1, (feed d src).2.2 + r.2.2)

/-- Every item takes a symbol, so a piece has at most as many items as symbols. -/
def feedPiece (d : δ) (src : List α) : List β × δ × Nat := feedFuel feed item src.length d src

/-- The items of all the pieces. -/
def feedPieces : δ → List (List α) → List β × δ × Nat
  | d, [] => ([], d, 0)
  | d, src :: rest =>
    let r := feedPiece feed item d src
    let rs := feedPieces r.2.1 rest
    (r.1 ++ rs.1, rs.2.1, r.2.2 + rs.2.2)

variable {feed item} {more : ρ → Prop} {good : δ → Prop}

theorem feedFuel_none {fuel : Nat} {d : δ} {src : List α} (h : item (feed d src).1 = none) :
    feedFuel feed item fuel d src = ([], (feed d src).2) := by
  cases fuel with
  | zero => rfl
  | succ fuel => rw [feedFuel, h]

theorem feedFuel_some {fuel : Nat} {d : δ} {src : List α} {b : β}
    (h : item (feed d src).1 = some b) :
    feedFuel feed item (fuel + 1) d src =
      let r := feedFuel feed item fuel (feed d src).2.1 (src.drop (feed d src).2.2)
      (b :: r.1, r.2.1, (feed d src).2.2 + r.2.2) := by
  rw [feedFuel, h]

namespace Framing

/-- An item takes at least one symbol. -/
theorem progress (F : Framing feed more item good) {d : δ} {a : List α} {b : β} (hd : good d)
    (h : item (feed d a).1 = some b) : 0 < (feed d a).2.2 := by
  apply Nat.pos_of_ne_zero
  intro hzero
  have hused := F.incremental.used d a
  rw [hzero, List.take_zero] at hused
  rw [← hused, (F.idle hd).1] at h
  cases h

/-- Fuel for each symbol is enough. -/
theorem feedFuel_eq (F : Framing feed more item good) {fuel : Nat} {d : δ} {src : List α}
    (hd : good d) (hfuel : src.length ≤ fuel) :
    feedFuel feed item fuel d src = feedPiece feed item d src := by
  suffices ∀ n k (d : δ) (src : List α), good d → src.length ≤ n → src.length ≤ k →
      feedFuel feed item n d src = feedFuel feed item k d src from
    this _ _ d src hd hfuel (Nat.le_refl _)
  intro n
  induction n with
  | zero =>
    intro k d src hd hn _
    obtain rfl : src = [] := List.eq_nil_of_length_eq_zero (Nat.le_zero.mp hn)
    rw [feedFuel_none (F.idle hd).1, feedFuel_none (F.idle hd).1]
  | succ n ih =>
    intro k d src hd hn hk
    cases h : item (feed d src).1 with
    | none => rw [feedFuel_none h, feedFuel_none h]
    | some b =>
      have hpos := F.progress hd h
      have hle := F.incremental.le d src
      obtain ⟨k, rfl⟩ : ∃ m, k = m + 1 := ⟨k - 1, by omega⟩
      rw [feedFuel_some h, feedFuel_some h]
      have hrest := ih k (feed d src).2.1 (src.drop (feed d src).2.2) (F.keeps hd)
        (by rw [List.length_drop]; omega) (by rw [List.length_drop]; omega)
      rw [hrest]

theorem feedPiece_none {d : δ} {src : List α} (h : item (feed d src).1 = none) :
    feedPiece feed item d src = ([], (feed d src).2) :=
  feedFuel_none h

theorem feedPiece_some (F : Framing feed more item good) {d : δ} {src : List α} {b : β}
    (hd : good d) (h : item (feed d src).1 = some b) :
    feedPiece feed item d src =
      let r := feedPiece feed item (feed d src).2.1 (src.drop (feed d src).2.2)
      (b :: r.1, r.2.1, (feed d src).2.2 + r.2.2) := by
  have hpos := F.progress hd h
  have hle := F.incremental.le d src
  obtain ⟨n, hn⟩ : ∃ n, src.length = n + 1 := ⟨src.length - 1, by omega⟩
  rw [feedPiece, hn, feedFuel_some h]
  have hrest : feedFuel feed item n (feed d src).2.1 (src.drop (feed d src).2.2) =
      feedPiece feed item (feed d src).2.1 (src.drop (feed d src).2.2) :=
    F.feedFuel_eq (F.keeps hd) (by rw [List.length_drop]; omega)
  rw [hrest]

theorem good_feedPiece (F : Framing feed more item good) {d : δ} (hd : good d) (src : List α) :
    good (feedPiece feed item d src).2.1 := by
  unfold feedPiece
  generalize src.length = n
  induction n generalizing d src with
  | zero => exact F.keeps hd
  | succ n ih =>
    cases h : item (feed d src).1 with
    | none =>
      rw [feedFuel_none h]
      exact F.keeps hd
    | some b =>
      rw [feedFuel_some h]
      exact ih (F.keeps hd) _

/-- Where a piece is cut does not matter. -/
theorem feedPiece_append (F : Framing feed more item good) {d : δ} (hd : good d) (a b : List α) :
    feedPiece feed item d (a ++ b) =
      let r := feedPiece feed item d a
      let rs := feedPiece feed item r.2.1 b
      (r.1 ++ rs.1, rs.2.1, r.2.2 + rs.2.2) := by
  induction hn : a.length using Nat.strongRecOn generalizing d a with
  | _ n ih =>
    subst hn
    by_cases hmore : more (feed d a).1
    · -- The first part ends inside an item: the second one goes on with it.
      have hall := F.incremental.all d a hmore
      have hresume := F.incremental.resume d a b hmore
      have hd' : good (feed d a).2.1 := F.keeps hd
      rw [feedPiece_none (F.more_item hmore)]
      dsimp only
      cases hi : item (feed d (a ++ b)).1 with
      | none =>
        have hi' : item (feed (feed d a).2.1 b).1 = none := by rw [hresume] at hi; exact hi
        rw [feedPiece_none hi, feedPiece_none hi', hresume]
        simp [hall]
      | some x =>
        have hi' : item (feed (feed d a).2.1 b).1 = some x := by rw [hresume] at hi; exact hi
        rw [F.feedPiece_some hd hi, F.feedPiece_some hd' hi', hresume]
        simp [hall, List.drop_length_add_append, Nat.add_assoc]
    · have hstop := F.incremental.stop d a b hmore
      have hle := F.incremental.le d a
      cases hi : item (feed d a).1 with
      | none =>
        -- The feed has halted, and takes nothing of the second part.
        have ⟨hdead, hstay⟩ := F.halted hd hmore hi b
        rw [feedPiece_none (by rw [hstop]; exact hi), feedPiece_none hi]
        dsimp only
        rw [feedPiece_none hdead, hstop, hstay]
        rfl
      | some x =>
        have hpos := F.progress hd hi
        have hrec := ih (a.drop (feed d a).2.2).length (by rw [List.length_drop]; omega)
          (F.keeps hd (a := a)) (a.drop (feed d a).2.2) rfl
        rw [F.feedPiece_some hd (by rw [hstop]; exact hi), F.feedPiece_some hd hi, hstop,
          List.drop_append_of_le_length hle, hrec]
        simp [Nat.add_assoc]

/-- The items of the pieces are the items of the whole. -/
theorem feedPieces_eq (F : Framing feed more item good) {d : δ} (hd : good d)
    (pieces : List (List α)) :
    feedPieces feed item d pieces = feedPiece feed item d pieces.flatten := by
  induction pieces generalizing d with
  | nil => rw [feedPieces, List.flatten_nil, feedPiece_none (F.idle hd).1, (F.idle hd).2]
  | cons a rest ih =>
    have hd' := F.good_feedPiece hd a
    rw [List.flatten_cons, F.feedPiece_append hd, feedPieces]
    dsimp only
    rw [ih hd']

end Framing
end
