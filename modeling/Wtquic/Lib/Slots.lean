-- SUMMARY: Filing items into slots that may be filled once.
import Mathlib.Data.List.Basic
import Mathlib.Logic.Function.Basic

/-! # Slots

Items are filed one after the other. An item may have a slot, or be passed over, or be refused,
and a slot takes one item only. What comes out does not depend on the order of the items. -/

namespace Wtquic

variable {α β κ σ : Type}

/-- A fold that may fail, over steps that commute. -/
theorem foldlM_perm {f : σ → α → Option σ}
    (hcomm : ∀ s a b, (f s a).bind (f · b) = (f s b).bind (f · a)) {l l' : List α}
    (h : l.Perm l') (s : σ) : l.foldlM f s = l'.foldlM f s := by
  induction h generalizing s with
  | nil => rfl
  | cons a h ih =>
    rw [List.foldlM_cons, List.foldlM_cons]
    exact congrArg _ (funext fun s => ih s)
  | swap a b l =>
    simp only [List.foldlM_cons, Option.bind_eq_bind, ← Option.bind_assoc]
    rw [hcomm]
  | trans h h' ih ih' => rw [ih, ih']

/-- A fold seen through an observation of its state. -/
theorem foldlM_map_some {τ : Type} {f : σ → α → Option σ} {g : τ → α → Option τ} {get : σ → τ}
    (h : ∀ s a, (f s a).map get = g (get s) a) (l : List α) (s : σ) :
    (l.foldlM f s).map get = l.foldlM g (get s) := by
  induction l generalizing s with
  | nil => rfl
  | cons a l ih =>
    rw [List.foldlM_cons, List.foldlM_cons, ← h]
    cases f s a with
    | none => rfl
    | some s => exact ih s

variable [DecidableEq κ] (key : α → Option (Option κ)) (val : α → β)

/-- File one item. -/
def fileItem (s : κ → Option β) (a : α) : Option (κ → Option β) :=
  match key a with
  | none => none
  | some none => some s
  | some (some k) => if (s k).isSome then none else some (Function.update s k (some (val a)))

variable {key val}

theorem fileItem_refused {s : κ → Option β} {a : α} (h : key a = none) :
    fileItem key val s a = none := by
  rw [fileItem, h]

theorem fileItem_passed {s : κ → Option β} {a : α} (h : key a = some none) :
    fileItem key val s a = some s := by
  rw [fileItem, h]

theorem fileItem_slot {s : κ → Option β} {a : α} {k : κ} (h : key a = some (some k)) :
    fileItem key val s a =
      if (s k).isSome then none else some (Function.update s k (some (val a))) := by
  rw [fileItem, h]

theorem fileItem_comm (s : κ → Option β) (a b : α) :
    (fileItem key val s a).bind (fileItem key val · b) =
      (fileItem key val s b).bind (fileItem key val · a) := by
  cases ha : key a with
  | none =>
    have hrefused : ∀ s : κ → Option β, fileItem key val s a = none :=
      fun s => fileItem_refused ha
    simp [hrefused]
  | some ka =>
    cases hb : key b with
    | none =>
      have hrefused : ∀ s : κ → Option β, fileItem key val s b = none :=
        fun s => fileItem_refused hb
      simp [hrefused]
    | some kb =>
      cases ka with
      | none =>
        have hpassed : ∀ s : κ → Option β, fileItem key val s a = some s :=
          fun s => fileItem_passed ha
        simp [hpassed]
      | some i =>
        cases kb with
        | none =>
          have hpassed : ∀ s : κ → Option β, fileItem key val s b = some s :=
            fun s => fileItem_passed hb
          simp [hpassed]
        | some j =>
          by_cases hij : i = j
          · -- The second item finds the slot taken, whichever it is.
            subst hij
            by_cases hi : (s i).isSome <;> simp [fileItem_slot ha, fileItem_slot hb, hi]
          · by_cases hi : (s i).isSome <;> by_cases hj : (s j).isSome <;>
              simp [fileItem_slot ha, fileItem_slot hb, hi, hj, hij, Ne.symm hij,
                Function.update_comm hij]

/-- What a successful filing says about its items and its slots. -/
theorem fileItems_some {l : List α} {s s' : κ → Option β}
    (h : l.foldlM (fileItem key val) s = some s') :
    (∀ a ∈ l, key a ≠ none) ∧ (l.filterMap fun a => (key a).join).Nodup ∧
      (∀ a ∈ l, ∀ k, key a = some (some k) → s k = none ∧ s' k = some (val a)) ∧
      ∀ k, s k ≠ none → s' k = s k := by
  induction l generalizing s with
  | nil =>
    obtain rfl : s = s' := by simpa using h
    exact ⟨nofun, List.nodup_nil, nofun, fun _ _ => rfl⟩
  | cons a l ih =>
    rw [List.foldlM_cons] at h
    cases ha : key a with
    | none => simp [fileItem_refused ha] at h
    | some ka =>
      cases ka with
      | none =>
        simp only [fileItem_passed ha, Option.bind_eq_bind, Option.bind_some] at h
        obtain ⟨hkey, hnodup, hslot, hkeep⟩ := ih h
        refine ⟨?_, by simpa [ha] using hnodup, ?_, hkeep⟩
        · simpa [ha] using hkey
        · simpa [ha] using hslot
      | some i =>
        rw [fileItem_slot ha] at h
        by_cases hi : (s i).isSome
        · simp [hi] at h
        · have hfree : s i = none := by simpa using hi
          simp only [hfree, Option.isSome_none, Bool.false_eq_true, if_false,
            Option.bind_eq_bind, Option.bind_some] at h
          obtain ⟨hkey, hnodup, hslot, hkeep⟩ := ih h
          have hother : ∀ b ∈ l, ∀ k, key b = some (some k) → k ≠ i := by
            rintro b hb k hk rfl
            have htaken := (hslot b hb k hk).1
            simp at htaken
          refine ⟨?_, ?_, ?_, ?_⟩
          · simpa [ha] using hkey
          · have hout : i ∉ l.filterMap fun a => (key a).join := by
              intro hmem
              obtain ⟨b, hb, hk⟩ := List.mem_filterMap.mp hmem
              exact hother b hb i (Option.join_eq_some_iff.mp hk) rfl
            simpa [ha] using ⟨by simpa using hout, hnodup⟩
          · intro b hb k hk
            cases hb with
            | head =>
              obtain rfl : i = k := by simpa [ha] using hk
              exact ⟨hfree, by rw [hkeep i (by simp), Function.update_self]⟩
            | tail _ hb =>
              have hne := hother b hb k hk
              have hb' := hslot b hb k hk
              rw [Function.update_of_ne hne] at hb'
              exact hb'
          · intro k hk
            have hne : k ≠ i := by
              rintro rfl
              exact hk hfree
            rw [hkeep k (by rwa [Function.update_of_ne hne]), Function.update_of_ne hne]

end Wtquic
