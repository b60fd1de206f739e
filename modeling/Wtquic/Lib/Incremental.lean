-- SUMMARY: Decoders that are fed in pieces.
import Mathlib.Algebra.GroupWithZero.Nat
import Mathlib.Data.List.Basic

/-! # Incremental decoders

A feed maps a decoder state and some input to a result, the new state, and the number of
symbols it consumed. -/

/-- A feed that asks for more consumes all it was given and goes on where it stopped. One
that is done does not look at what follows. -/
structure Incremental {δ α ρ : Type} (feed : δ → List α → ρ × δ × Nat) (more : ρ → Prop) :
    Prop where
  all : ∀ d a, more (feed d a).1 → (feed d a).2.2 = a.length
  resume : ∀ d a b, more (feed d a).1 →
    feed d (a ++ b) = ((feed (feed d a).2.1 b).1, (feed (feed d a).2.1 b).2.1,
      a.length + (feed (feed d a).2.1 b).2.2)
  stop : ∀ d a b, ¬ more (feed d a).1 → feed d (a ++ b) = feed d a
  used : ∀ d a, feed d (a.take (feed d a).2.2) = feed d a
  le : ∀ d a, (feed d a).2.2 ≤ a.length

/-! ## Pieces -/

section
variable {δ α ρ : Type} (feed : δ → List α → ρ × δ × Nat) (more : ρ → Prop) [DecidablePred more]

/-- Feed the pieces one after the other, until one of them is not answered by a wish for more. -/
def feedUntil : δ → List α → List (List α) → ρ × δ × Nat
  | d, a, [] => feed d a
  | d, a, b :: rest =>
    let r := feed d a
    if more r.1 then
      let s := feedUntil r.2.1 b rest
      (s.1, s.2.1, r.2.2 + s.2.2)
    else r

variable {feed more}

/-- Where the input is cut does not matter. -/
theorem Incremental.feedUntil_eq (F : Incremental feed more) (d : δ) (a : List α)
    (rest : List (List α)) : feedUntil feed more d a rest = feed d (a ++ rest.flatten) := by
  induction rest generalizing d a with
  | nil => rw [feedUntil, List.flatten_nil, List.append_nil]
  | cons b rest ih =>
    rw [feedUntil, List.flatten_cons]
    dsimp only
    split
    · next h => rw [ih, F.resume d a _ h, F.all d a h]
    · next h => rw [F.stop d a _ h]

variable (feed more) in
/-- A decoder that is fed in pieces against one that is given the whole input: `oneShot` is the
report on the first item of the input, and its length. -/
structure Agrees (fresh : δ) (oneShot : List α → Option (ρ × Nat)) : Prop where
  /-- A complete item is reported at its end. -/
  complete : ∀ a rest r n, oneShot (a ++ rest.flatten) = some (r, n) →
    (feedUntil feed more fresh a rest).1 = r ∧ (feedUntil feed more fresh a rest).2.2 = n ∧ ¬ more r
  /-- An incomplete one is taken whole. -/
  incomplete : ∀ a rest, oneShot (a ++ rest.flatten) = none →
    more (feedUntil feed more fresh a rest).1 ∧
      (feedUntil feed more fresh a rest).2.2 = (a ++ rest.flatten).length
  /-- More is needed exactly of what is strictly shorter than an item. -/
  strict : ∀ a, oneShot a = none ↔
    ∃ b r, b ≠ [] ∧ oneShot (a ++ b) = some (r, (a ++ b).length)
  /-- Nothing behind the item matters. -/
  nothingPast : ∀ a r n, oneShot a = some (r, n) →
    n ≤ a.length ∧ ∀ b, oneShot (a.take n ++ b) = some (r, n)

/-- It is enough to compare the two on input in one piece. -/
theorem Agrees.of_whole {fresh : δ} {oneShot : List α → Option (ρ × Nat)}
    (F : Incremental feed more)
    (hsome : ∀ a r n, oneShot a = some (r, n) →
      (feed fresh a).1 = r ∧ (feed fresh a).2.2 = n ∧ ¬ more r)
    (hnone : ∀ a, oneShot a = none → more (feed fresh a).1)
    (hextend : ∀ a, oneShot a = none → ∃ b r, b ≠ [] ∧ oneShot (a ++ b) = some (r, (a ++ b).length)) :
    Agrees feed more fresh oneShot := by
  have hlocal : ∀ a b r n, oneShot a = some (r, n) → feed fresh b = feed fresh a →
      oneShot b = some (r, n) := by
    intro a b r n ha hb
    obtain ⟨hr, hn, hmore⟩ := hsome a r n ha
    cases h : oneShot b with
    | none =>
      have hm := hnone b h
      rw [hb, hr] at hm
      exact absurd hm hmore
    | some x =>
      obtain ⟨r', n'⟩ := x
      obtain ⟨hr', hn', -⟩ := hsome b r' n' h
      rw [← hr', ← hn', hb, hr, hn]
  have hstop : ∀ a b r n, oneShot a = some (r, n) → oneShot (a ++ b) = some (r, n) := by
    intro a b r n ha
    obtain ⟨hr, -, hmore⟩ := hsome a r n ha
    exact hlocal a _ r n ha (F.stop fresh a b (hr ▸ hmore))
  have hle : ∀ a r n, oneShot a = some (r, n) → n ≤ a.length := by
    intro a r n ha
    rw [← (hsome a r n ha).2.1]
    exact F.le fresh a
  exact
    { complete := fun a rest r n h => by
        rw [F.feedUntil_eq]
        exact hsome _ r n h
      incomplete := fun a rest h => by
        rw [F.feedUntil_eq]
        exact ⟨hnone _ h, F.all fresh _ (hnone _ h)⟩
      strict := fun a => by
        refine ⟨hextend a, ?_⟩
        rintro ⟨b, r, hb, h⟩
        cases ha : oneShot a with
        | none => rfl
        | some x =>
          obtain ⟨r', n'⟩ := x
          have hsame := (hstop a b r' n' ha).symm.trans h
          have hlt := hle a r' n' ha
          have hlen : n' = (a ++ b).length := congrArg Prod.snd (Option.some.inj hsame)
          have hpos := List.length_pos_of_ne_nil hb
          rw [List.length_append] at hlen
          omega
      nothingPast := fun a r n h => by
        refine ⟨hle a r n h, fun b => hstop _ b r n (hlocal a _ r n h ?_)⟩
        rw [← (hsome a r n h).2.1]
        exact F.used fresh a }

end
