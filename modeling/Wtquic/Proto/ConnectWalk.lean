-- SUMMARY: The rules of the shared field walk, apart from its order.
import Wtquic.Proto.Connect
import Wtquic.Proto.QpackSection
import Mathlib.Data.List.Pairwise

namespace Wtquic.Connect

open Qpack (Field)

/-! # The field walk

A walk succeeds when every field is in order by itself, and no pseudo-header stands behind a
regular field. -/

/-- What the walk asks of a field, wherever it stands. -/
def FieldOk (requestHeaders : Bool) (f : Field) : Prop :=
  nameIsValid f.name = true ∧ valueIsValid f.value = true ∧
    (isPseudo f = false → isForbidden f.name = false ∧
      (f.name = ascii "te" → requestHeaders = true ∧ teIsTrailers f.value = true))

/-- No pseudo-header stands behind a regular field. -/
def PseudoFirst (fs : List Field) : Prop :=
  fs.Pairwise fun f g => isPseudo g = true → isPseudo f = true

theorem pseudoFirst_iff {fs : List Field} : PseudoFirst fs ↔
    (fs.map isPseudo).Pairwise fun a b => b = true → a = true := by
  rw [PseudoFirst, List.pairwise_map]

theorem FieldOk.pseudo {requestHeaders : Bool} {f : Field} (hp : isPseudo f = true)
    (hname : nameIsValid f.name = true) (hvalue : valueIsValid f.value = true) :
    FieldOk requestHeaders f := by
  refine ⟨hname, hvalue, ?_⟩
  intro hregular
  rw [hp] at hregular
  cases hregular

theorem FieldOk.regular {requestHeaders : Bool} {f : Field} (hname : nameIsValid f.name = true)
    (hvalue : valueIsValid f.value = true) (hforbidden : isForbidden f.name = false)
    (hte : f.name ≠ ascii "te") : FieldOk requestHeaders f :=
  ⟨hname, hvalue, fun _ => ⟨hforbidden, fun h => absurd h hte⟩⟩

theorem walkFields_iff {requestHeaders seenRegular : Bool} {fs : List Field} :
    walkFields requestHeaders seenRegular fs = true ↔
      (∀ f ∈ fs, FieldOk requestHeaders f) ∧ PseudoFirst fs ∧
        (seenRegular = true → ∀ f ∈ fs, isPseudo f = false) := by
  induction fs generalizing seenRegular with
  | nil => simp [walkFields, PseudoFirst]
  | cons f fs ih =>
    rw [walkFields, PseudoFirst, List.pairwise_cons, List.forall_mem_cons]
    cases hp : isPseudo f with
    | true =>
      -- A pseudo-header in front constrains nothing behind it.
      have hok : FieldOk requestHeaders f ↔
          nameIsValid f.name = true ∧ valueIsValid f.value = true := by
        simp [FieldOk, hp]
      simp only [if_true, Bool.and_eq_true, Bool.not_eq_true', ih, hok, List.forall_mem_cons, hp]
      constructor
      · rintro ⟨⟨hname, hvalue⟩, hseen, hrest, hfirst, -⟩
        exact ⟨⟨⟨hname, hvalue⟩, hrest⟩, ⟨fun _ _ _ => trivial, hfirst⟩, by simp [hseen]⟩
      · rintro ⟨⟨⟨hname, hvalue⟩, hrest⟩, ⟨-, hfirst⟩, hseen⟩
        have hfresh : seenRegular = false := by
          cases seenRegular with
          | false => rfl
          | true => cases (hseen rfl).1
        exact ⟨⟨hname, hvalue⟩, hfresh, hrest, hfirst, by simp [hfresh]⟩
    | false =>
      have hok : FieldOk requestHeaders f ↔
          (nameIsValid f.name = true ∧ valueIsValid f.value = true) ∧
            isForbidden f.name = false ∧
              (f.name = ascii "te" → requestHeaders = true ∧ teIsTrailers f.value = true) := by
        simp [FieldOk, hp, and_assoc]
      have hte : (f.name != ascii "te" || (requestHeaders && teIsTrailers f.value)) = true ↔
          (f.name = ascii "te" → requestHeaders = true ∧ teIsTrailers f.value = true) := by
        by_cases hname : f.name = ascii "te" <;> simp [hname]
      simp only [Bool.false_eq_true, if_false, Bool.and_eq_true, Bool.not_eq_true', ih, hok, hte,
        List.forall_mem_cons, hp]
      constructor
      · rintro ⟨hwell, ⟨hforbidden, hte⟩, hrest, hfirst, hregular⟩
        exact ⟨⟨⟨hwell, hforbidden, hte⟩, hrest⟩,
          ⟨fun g hg hgp => by simp [hregular trivial g hg] at hgp, hfirst⟩,
          fun _ => ⟨trivial, hregular trivial⟩⟩
      · rintro ⟨⟨⟨hwell, hforbidden, hte⟩, hrest⟩, ⟨hhead, hfirst⟩, -⟩
        refine ⟨hwell, ⟨hforbidden, hte⟩, hrest, hfirst, fun _ g hg => ?_⟩
        simpa using hhead g hg

/-- The walk reads names and values only. -/
theorem walkFields_bytes {fs gs : List Field} (h : fs.map Field.bytes = gs.map Field.bytes)
    (requestHeaders seenRegular : Bool) :
    walkFields requestHeaders seenRegular fs = walkFields requestHeaders seenRegular gs := by
  induction fs generalizing gs seenRegular with
  | nil =>
    cases gs with
    | nil => rfl
    | cons g gs => cases h
  | cons f fs ih =>
    cases gs with
    | nil => cases h
    | cons g gs =>
      simp only [List.map_cons, List.cons.injEq] at h
      obtain ⟨hbytes, htail⟩ := h
      cases f
      cases g
      cases hbytes
      simp only [walkFields, ih htail]
      rfl

end Wtquic.Connect
