-- SUMMARY: Words over binary digits and codes none of whose words starts another.
import Mathlib.Algebra.GroupWithZero.Nat
import Mathlib.Data.List.Basic

/-! # Prefix codes

A code maps every symbol to a word. Where no code word starts another one, a text has at most
one reading as code words followed by a rest that starts with none. -/

namespace PrefixCode

/-! ## Binary words -/

/-- The last `n` binary digits of `v`, most significant first. -/
def bitsOf : Nat → Nat → List Nat
  | 0, _ => []
  | n + 1, v => bitsOf n (v / 2) ++ [v % 2]

/-- The number that a binary word spells. -/
def valueOf (w : List Nat) : Nat := w.foldl (fun v b => 2 * v + b) 0

@[simp] theorem length_bitsOf (n v : Nat) : (bitsOf n v).length = n := by
  induction n generalizing v with
  | zero => rfl
  | succ n ih => simp only [bitsOf, List.length_append, ih, List.length_singleton]

theorem bitsOf_snoc {b : Nat} (hb : b < 2) (n v : Nat) :
    bitsOf (n + 1) (2 * v + b) = bitsOf n v ++ [b] := by
  have hdiv : (2 * v + b) / 2 = v := by omega
  have hmod : (2 * v + b) % 2 = b := by omega
  rw [bitsOf, hdiv, hmod]

theorem valueOf_bitsOf {n v : Nat} (hv : v < 2 ^ n) : valueOf (bitsOf n v) = v := by
  induction n generalizing v with
  | zero =>
    have hzero : v = 0 := by simpa using hv
    rw [hzero]
    rfl
  | succ n ih =>
    have hhalf : v / 2 < 2 ^ n := by
      rw [Nat.pow_succ] at hv
      omega
    have hval := ih hhalf
    unfold valueOf at hval ⊢
    rw [bitsOf, List.foldl_append, hval]
    simp only [List.foldl_cons, List.foldl_nil]
    omega

theorem bitsOf_inj {n v w : Nat} (hv : v < 2 ^ n) (hw : w < 2 ^ n)
    (h : bitsOf n v = bitsOf n w) : v = w := by
  rw [← valueOf_bitsOf hv, h, valueOf_bitsOf hw]

theorem prefix_bitsOf (m k v : Nat) : bitsOf m (v / 2 ^ k) <+: bitsOf (m + k) v := by
  induction k generalizing v with
  | zero =>
    rw [Nat.pow_zero, Nat.div_one]
    exact List.prefix_refl _
  | succ k ih =>
    have hdiv : v / 2 ^ (k + 1) = v / 2 / 2 ^ k := by
      rw [Nat.pow_succ, Nat.mul_comm, Nat.div_div_eq_div_mul]
    rw [hdiv]
    exact (ih (v / 2)).trans (List.prefix_append _ _)

/-- A binary word that starts another one spells its leading digits. -/
theorem prefix_div {m n v w : Nat} (hv : v < 2 ^ m) (hw : w < 2 ^ n)
    (h : bitsOf m v <+: bitsOf n w) : m ≤ n ∧ v = w / 2 ^ (n - m) := by
  have hle : m ≤ n := by simpa using h.length_le
  refine ⟨hle, ?_⟩
  have hlead : bitsOf m (w / 2 ^ (n - m)) <+: bitsOf n w := by
    simpa [Nat.add_sub_cancel' hle] using prefix_bitsOf m (n - m) w
  have hsame : bitsOf m v = bitsOf m (w / 2 ^ (n - m)) :=
    List.IsPrefix.eq_of_length (List.prefix_of_prefix_length_le h hlead (by simp)) (by simp)
  refine bitsOf_inj hv ?_ hsame
  rw [Nat.div_lt_iff_lt_mul (Nat.two_pow_pos _), ← Nat.pow_add, Nat.add_sub_cancel' hle]
  exact hw

theorem bitsOf_ones (n : Nat) : bitsOf n (2 ^ n - 1) = List.replicate n 1 := by
  induction n with
  | zero => rfl
  | succ n ih =>
    have hpos := Nat.two_pow_pos n
    have hval : 2 ^ (n + 1) - 1 = 2 * (2 ^ n - 1) + 1 := by
      rw [Nat.pow_succ]
      omega
    rw [hval, bitsOf_snoc (by decide), ih, List.replicate_succ']

/-! ## Readings -/

variable {α β : Type}

/-- No code word starts the word of another symbol. -/
def PrefixFree (c : α → List β) : Prop := ∀ a b, c a <+: c b → a = b

/-- No code word starts the text. -/
def Stuck (c : α → List β) (w : List β) : Prop := ∀ a, ¬ c a <+: w

theorem Stuck.not_append {c : α → List β} {a : α} {w : List β} : ¬ Stuck c (c a ++ w) :=
  fun h => h a (List.prefix_append _ _)

/-- The first code word of a text is determined by the text. -/
theorem PrefixFree.head {c : α → List β} (hc : PrefixFree c) {a b : α} {v w : List β}
    (h : c a ++ v = c b ++ w) : a = b ∧ v = w := by
  have ha : c a <+: c b ++ w := h ▸ List.prefix_append _ _
  have hab : a = b := by
    rcases List.prefix_or_prefix_of_prefix ha (List.prefix_append _ _) with hpre | hpre
    · exact hc a b hpre
    · exact (hc b a hpre).symm
  subst hab
  exact ⟨rfl, List.append_cancel_left h⟩

/-- Two readings of one text agree as far as the one goes whose rest is not stuck. -/
theorem PrefixFree.reading_le {c : α → List β} (hc : PrefixFree c) {s t : List α} {v w : List β}
    (h : s.flatMap c ++ v = t.flatMap c ++ w) (hw : Stuck c w) : s <+: t := by
  induction s generalizing t with
  | nil => exact List.nil_prefix
  | cons a s ih =>
    cases t with
    | nil =>
      simp only [List.flatMap_cons, List.append_assoc, List.flatMap_nil, List.nil_append] at h
      exact absurd (h ▸ hw) Stuck.not_append
    | cons b t =>
      simp only [List.flatMap_cons, List.append_assoc] at h
      obtain ⟨rfl, hrest⟩ := hc.head h
      exact List.cons_prefix_cons.mpr ⟨rfl, ih hrest⟩

/-- A text has one reading whose rest is stuck. -/
theorem PrefixFree.unique {c : α → List β} (hc : PrefixFree c) {s t : List α} {v w : List β}
    (h : s.flatMap c ++ v = t.flatMap c ++ w) (hv : Stuck c v) (hw : Stuck c w) :
    s = t ∧ v = w := by
  have hst : s = t := by
    have hpre := hc.reading_le h hw
    exact hpre.eq_of_length (Nat.le_antisymm hpre.length_le (hc.reading_le h.symm hv).length_le)
  subst hst
  exact ⟨rfl, List.append_cancel_left h⟩

end PrefixCode
