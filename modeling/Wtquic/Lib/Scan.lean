-- SUMMARY: Words of a class at the front of the input.
import Mathlib.Data.List.Basic

/-! # Runs of a class

A scanner takes the longest word of a class of symbols off its input. -/

namespace Wtquic

variable {α : Type}

/-- The input does not start with a symbol of the class. -/
def Clear (p : α → Bool) (rest : List α) : Prop := ∀ c ∈ rest.head?, p c = false

theorem Clear.dropWhile {p : α → Bool} {rest : List α} (h : Clear p rest) :
    rest.dropWhile p = rest := by
  cases rest with
  | nil => rfl
  | cons c rest =>
    have hc : p c = false := h c rfl
    rw [List.dropWhile_cons_of_neg (by simp [hc])]

theorem Clear.takeWhile {p : α → Bool} {rest : List α} (h : Clear p rest) :
    rest.takeWhile p = [] := by
  cases rest with
  | nil => rfl
  | cons c rest =>
    have hc : p c = false := h c rfl
    rw [List.takeWhile_cons_of_neg (by simp [hc])]

theorem dropWhile_word {p : α → Bool} {w rest : List α} (hw : ∀ c ∈ w, p c = true)
    (h : Clear p rest) : (w ++ rest).dropWhile p = rest := by
  rw [List.dropWhile_append_of_pos hw, h.dropWhile]

theorem takeWhile_word {p : α → Bool} {w rest : List α} (hw : ∀ c ∈ w, p c = true)
    (h : Clear p rest) : (w ++ rest).takeWhile p = w := by
  rw [List.takeWhile_append_of_pos hw, h.takeWhile, List.append_nil]

theorem dropWhile_all {p : α → Bool} {w : List α} (hw : ∀ c ∈ w, p c = true) :
    w.dropWhile p = [] := by
  have h := @List.dropWhile_append_of_pos _ p w [] hw
  rwa [List.append_nil] at h

/-- What `dropWhile` takes off is a word of the class. -/
theorem word_dropWhile (p : α → Bool) (inp : List α) :
    ∃ w, inp = w ++ inp.dropWhile p ∧ ∀ c ∈ w, p c = true :=
  ⟨inp.takeWhile p, List.takeWhile_append_dropWhile.symm,
    List.all_eq_true.mp List.all_takeWhile⟩

theorem clear_dropWhile (p : α → Bool) (inp : List α) : Clear p (inp.dropWhile p) := by
  intro c hc
  induction inp with
  | nil => cases hc
  | cons b inp ih =>
    rw [List.dropWhile_cons] at hc
    split at hc
    · exact ih hc
    · next hb =>
      obtain rfl : b = c := Option.some.inj hc
      simpa using hb

theorem drop_takeWhile (p : α → Bool) (inp : List α) :
    inp.drop (inp.takeWhile p).length = inp.dropWhile p := by
  have h := @List.drop_left _ (inp.takeWhile p) (inp.dropWhile p)
  rwa [List.takeWhile_append_dropWhile] at h

end Wtquic
