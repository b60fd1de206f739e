-- SUMMARY: The Structured Field parsers accept exactly the grammar of RFC 8941.
import Wtquic.Lib.Scan
import Wtquic.Proto.SfString

namespace Wtquic.Sf

/-! # Structured Fields against their grammar

The grammar of RFC 8941 as predicates on words, one for each rule. A String and what is built
from it also carry the bytes they stand for. Each parser is compared with its rule twice: what it
takes off the input is a word of the rule, and it takes off any word that is followed by nothing
that could go on with it. -/

/-! ## Grammar -/

/-- `*chr`: the bytes between the quotes and the bytes they stand for. -/
inductive Chars : Bytes → Bytes → Prop where
  | nil : Chars [] []
  | unescaped {c : UInt8} {w s : Bytes}
      (hc : (0x20 ≤ c ∧ c ≤ 0x21) ∨ (0x23 ≤ c ∧ c ≤ 0x5b) ∨ (0x5d ≤ c ∧ c ≤ 0x7e))
      (h : Chars w s) : Chars (c :: w) (c :: s)
  | escaped {c : UInt8} {w s : Bytes} (hc : c = 34 ∨ c = 92) (h : Chars w s) :
      Chars (92 :: c :: w) (c :: s)

/-- `sf-string = DQUOTE *chr DQUOTE`. -/
inductive SfString : Bytes → Bytes → Prop where
  | mk {w s : Bytes} (h : Chars w s) : SfString (34 :: (w ++ [34])) s

/-- Between `lo` and `hi` digits. -/
def Digits (lo hi : Nat) (w : Bytes) : Prop :=
  (∀ c ∈ w, isDigit c) ∧ lo ≤ w.length ∧ w.length ≤ hi

/-- `1*15DIGIT` or `1*12DIGIT "." 1*3DIGIT`: a number without its sign. -/
inductive Number : Bytes → Prop where
  | integer {w : Bytes} (h : Digits 1 15 w) : Number w
  | decimal {w f : Bytes} (hw : Digits 1 12 w) (hf : Digits 1 3 f) : Number (w ++ 46 :: f)

/-- `bare-item`. -/
inductive BareItem : Bytes → Prop where
  | string {w s : Bytes} (h : SfString w s) : BareItem w
  | binary {w : Bytes} (h : ∀ c ∈ w, isBase64Char c) : BareItem (58 :: (w ++ [58]))
  | boolean {b : UInt8} (h : b = 48 ∨ b = 49) : BareItem [63, b]
  | number {w : Bytes} (h : Number w) : BareItem w
  | negative {w : Bytes} (h : Number w) : BareItem (45 :: w)
  | token {c : UInt8} {w : Bytes} (hc : isAlpha c ∨ c = 42) (h : ∀ b ∈ w, isTokenChar b) :
      BareItem (c :: w)

/-- `*SP`. -/
def Sp (w : Bytes) : Prop := ∀ c ∈ w, c = 32

/-- `OWS`. -/
def Ows (w : Bytes) : Prop := ∀ c ∈ w, c = 32 ∨ c = 9

/-- `key`. -/
inductive Key : Bytes → Prop where
  | mk {c : UInt8} {w : Bytes} (hc : isLcalpha c ∨ c = 42) (h : ∀ b ∈ w, isKeyChar b) :
      Key (c :: w)

/-- `parameters = *( ";" *SP key [ "=" bare-item ] )`. -/
inductive Params : Bytes → Prop where
  | nil : Params []
  | flag {sp k w : Bytes} (hsp : Sp sp) (hk : Key k) (h : Params w) :
      Params (59 :: (sp ++ (k ++ w)))
  | value {sp k v w : Bytes} (hsp : Sp sp) (hk : Key k) (hv : BareItem v) (h : Params w) :
      Params (59 :: (sp ++ (k ++ 61 :: (v ++ w))))

/-- A list member that is a String. -/
inductive Member : Bytes → Bytes → Prop where
  | mk {w s p : Bytes} (hw : SfString w s) (hp : Params p) : Member (w ++ p) s

/-- `list-member *( OWS "," OWS list-member )`. -/
inductive Members : Bytes → List Bytes → Prop where
  | one {w s : Bytes} (h : Member w s) : Members w [s]
  | cons {w s o o' ws : Bytes} {ss : List Bytes} (h : Member w s) (ho : Ows o) (ho' : Ows o')
      (hs : Members ws ss) : Members (w ++ (o ++ 44 :: (o' ++ ws))) (s :: ss)

/-- A field that is a List of Strings. -/
inductive SfList : Bytes → List Bytes → Prop where
  | empty {sp : Bytes} (hsp : Sp sp) : SfList sp []
  | members {sp w o : Bytes} {ss : List Bytes} (hsp : Sp sp) (hw : Members w ss) (ho : Ows o) :
      SfList (sp ++ (w ++ o)) ss

/-- A field that is a String item. -/
inductive SfItem : Bytes → Bytes → Prop where
  | mk {sp w sp' : Bytes} {s : Bytes} (hsp : Sp sp) (hw : Member w s) (hsp' : Sp sp') :
      SfItem (sp ++ (w ++ sp')) s

/-! ## What may follow -/

/-- What may follow a bare item or a key without a value: parameters, white space or a comma. -/
def Follow (rest : Bytes) : Prop := ∀ c ∈ rest.head?, c = 59 ∨ c = 32 ∨ c = 9 ∨ c = 44

/-- What may follow a member. -/
def Ends (rest : Bytes) : Prop := ∀ c ∈ rest.head?, c = 32 ∨ c = 9 ∨ c = 44

theorem Ends.follow {rest : Bytes} (h : Ends rest) : Follow rest :=
  fun c hc => .inr (h c hc)

theorem Follow.clear {p : UInt8 → Bool} {rest : Bytes} (h : Follow rest)
    (hp : p 59 = false ∧ p 32 = false ∧ p 9 = false ∧ p 44 = false) : Clear p rest := by
  intro c hc
  rcases h c hc with rfl | rfl | rfl | rfl
  · exact hp.1
  · exact hp.2.1
  · exact hp.2.2.1
  · exact hp.2.2.2

theorem Params.follow {w rest : Bytes} (h : Params w) (hrest : Ends rest) :
    Follow (w ++ rest) := by
  intro c hc
  cases h with
  | nil => exact hrest.follow c hc
  | flag => exact .inl (Option.some.inj hc).symm
  | value => exact .inl (Option.some.inj hc).symm

/-! ## Strings -/

theorem stringByte_iff {c : UInt8} (hq : c ≠ 34) (hb : c ≠ 92) : isStringByte c = true ↔
    (0x20 ≤ c ∧ c ≤ 0x21) ∨ (0x23 ≤ c ∧ c ≤ 0x5b) ∨ (0x5d ≤ c ∧ c ≤ 0x7e) := by
  simp only [isStringByte, Bool.and_eq_true, decide_eq_true_eq, ne_eq, ← UInt8.toNat_inj,
    UInt8.le_iff_toNat_le] at *
  simp at *
  omega

theorem unescaped_ne {c : UInt8}
    (hc : (0x20 ≤ c ∧ c ≤ 0x21) ∨ (0x23 ≤ c ∧ c ≤ 0x5b) ∨ (0x5d ≤ c ∧ c ≤ 0x7e)) :
    c ≠ 34 ∧ c ≠ 92 := by
  constructor
  · rintro rfl
    revert hc
    decide
  · rintro rfl
    revert hc
    decide

theorem Chars.skip {w s rest : Bytes} (h : Chars w s) :
    skipStringBody (w ++ 34 :: rest) = .ok rest := by
  induction h with
  | nil =>
    rw [List.nil_append, skipStringBody.eq_def]
    simp
  | @unescaped c w s hc h ih =>
    obtain ⟨hq, hb⟩ := unescaped_ne hc
    rw [List.cons_append, skipStringBody.eq_def]
    simp only [if_neg hb, if_neg hq, if_pos ((stringByte_iff hq hb).mpr hc), ih]
  | @escaped c w s hc h ih =>
    rw [List.cons_append, List.cons_append, skipStringBody.eq_def]
    have hne : ¬ (c ≠ 34 ∧ c ≠ 92) := by
      rcases hc with rfl | rfl
      · simp
      · simp
    simp only [if_true, if_neg hne, ih]

theorem chars_of_skip (inp rest : Bytes) (h : skipStringBody inp = .ok rest) :
    ∃ w s, inp = w ++ 34 :: rest ∧ Chars w s := by
  induction inp using skipStringBody.induct with
  | case1 => cases h
  | case2 => cases h
  | case3 e inp he => simp [skipStringBody, he] at h
  | case4 e inp he ih =>
    rw [skipStringBody.eq_def] at h
    simp only [if_true, if_neg he] at h
    obtain ⟨w, s, rfl, hw⟩ := ih h
    refine ⟨92 :: e :: w, e :: s, rfl, .escaped ?_ hw⟩
    by_contra hno
    exact he (not_or.mp hno)
  | case5 inp hb =>
    rw [skipStringBody.eq_def] at h
    simp only [if_neg hb, if_true, Except.ok.injEq] at h
    exact ⟨[], [], by rw [h]; rfl, .nil⟩
  | case6 c inp hb hq hc ih =>
    rw [skipStringBody.eq_def] at h
    simp only [if_neg hb, if_neg hq, if_pos hc] at h
    obtain ⟨w, s, rfl, hw⟩ := ih h
    exact ⟨c :: w, c :: s, rfl, .unescaped ((stringByte_iff hq hb).mp hc) hw⟩
  | case7 c inp hb hq hc =>
    rw [skipStringBody.eq_def] at h
    simp [hb, hq, hc] at h

theorem putByte_ok {c : UInt8} {cap : Nat} {r : Except Error (Bytes × Bytes)} {s tail : Bytes} :
    putByte c cap r = .ok (s, tail) ↔ 0 < cap ∧ ∃ s', s = c :: s' ∧ r = .ok (s', tail) := by
  unfold putByte
  split
  next hcap =>
    constructor
    · rintro ⟨⟩
    · intro h
      omega
  next hcap =>
    cases r with
    | error e =>
      constructor
      · rintro ⟨⟩
      · rintro ⟨-, s', -, h⟩
        cases h
    | ok x =>
      obtain ⟨s', tail'⟩ := x
      constructor
      · rintro ⟨⟩
        exact ⟨by omega, s', rfl, rfl⟩
      · rintro ⟨-, s'', rfl, h⟩
        cases h
        rfl

theorem Chars.parse {w s rest : Bytes} {cap : Nat} (h : Chars w s) (hcap : s.length ≤ cap) :
    parseStringBody (w ++ 34 :: rest) cap = .ok (s, rest) := by
  induction h generalizing cap with
  | nil =>
    rw [List.nil_append, parseStringBody.eq_def]
    simp
  | @unescaped c w s hc h ih =>
    obtain ⟨hq, hb⟩ := unescaped_ne hc
    rw [List.length_cons] at hcap
    have hrec := ih (show s.length ≤ cap - 1 by omega)
    rw [List.cons_append, parseStringBody.eq_def]
    simp only [if_neg hb, if_neg hq, if_pos ((stringByte_iff hq hb).mpr hc)]
    exact putByte_ok.mpr ⟨by omega, s, rfl, hrec⟩
  | @escaped c w s hc h ih =>
    rw [List.length_cons] at hcap
    have hrec := ih (show s.length ≤ cap - 1 by omega)
    have hne : ¬ (c ≠ 34 ∧ c ≠ 92) := by
      rcases hc with rfl | rfl
      · simp
      · simp
    have hbq : ¬ (92 : UInt8) = 34 := by decide
    rw [List.cons_append, List.cons_append, parseStringBody.eq_def]
    simp only [if_neg hbq, if_true, if_neg hne]
    exact putByte_ok.mpr ⟨by omega, s, rfl, hrec⟩

theorem chars_of_parse {inp s rest : Bytes} {cap : Nat}
    (h : parseStringBody inp cap = .ok (s, rest)) :
    ∃ w, inp = w ++ 34 :: rest ∧ Chars w s ∧ s.length ≤ cap := by
  induction inp, cap using parseStringBody.induct generalizing s with
  | case1 cap => cases h
  | case2 cap inp =>
    rw [parseStringBody.eq_def] at h
    simp only [if_true, Except.ok.injEq, Prod.mk.injEq] at h
    obtain ⟨rfl, rfl⟩ := h
    exact ⟨[], rfl, .nil, Nat.zero_le _⟩
  | case3 cap hq => cases h
  | case4 cap e inp he hq => simp [parseStringBody, he] at h
  | case5 cap e inp he hq ih =>
    rw [parseStringBody.eq_def] at h
    simp only [if_neg hq, if_true, if_neg he] at h
    obtain ⟨hcap, s', rfl, htail⟩ := putByte_ok.mp h
    obtain ⟨w, rfl, hw, hlen⟩ := ih htail
    refine ⟨92 :: e :: w, rfl, .escaped ?_ hw, ?_⟩
    · by_contra hno
      exact he (not_or.mp hno)
    · rw [List.length_cons]
      omega
  | case6 c inp cap hq hb hc ih =>
    rw [parseStringBody.eq_def] at h
    simp only [if_neg hb, if_neg hq, if_pos hc] at h
    obtain ⟨hcap, s', rfl, htail⟩ := putByte_ok.mp h
    obtain ⟨w, rfl, hw, hlen⟩ := ih htail
    refine ⟨c :: w, rfl, .unescaped ((stringByte_iff hq hb).mp hc) hw, ?_⟩
    rw [List.length_cons]
    omega
  | case7 c inp cap hq hb hc =>
    rw [parseStringBody.eq_def] at h
    simp [hb, hq, hc] at h

/-! ## Bare items -/

theorem Number.skip {w rest : Bytes} (h : Number w) (hrest : Follow rest) :
    skipNumber (w ++ rest) = .ok rest := by
  have hclear : Clear isDigit rest := hrest.clear (by decide)
  unfold skipNumber
  dsimp only
  rw [drop_takeWhile]
  cases h with
  | integer h =>
    obtain ⟨hdig, hlo, hhi⟩ := h
    rw [takeWhile_word hdig hclear, dropWhile_word hdig hclear, if_neg (by omega)]
    split
    next frac =>
      exact absurd (hrest 46 rfl) (by decide)
    next => rw [if_neg (by omega)]
  | @decimal w f hw hf =>
    obtain ⟨hdig, hlo, hhi⟩ := hw
    obtain ⟨hfdig, hflo, hfhi⟩ := hf
    have hdot : Clear isDigit (46 :: (f ++ rest)) := by
      rintro c ⟨⟩
      decide
    rw [List.append_assoc, List.cons_append, takeWhile_word hdig hdot, dropWhile_word hdig hdot,
      if_neg (by omega)]
    simp only []
    rw [if_neg (by omega), takeWhile_word hfdig hclear, if_neg (by omega), List.drop_left]

theorem number_of_skip {inp rest : Bytes} (h : skipNumber inp = .ok rest) :
    ∃ w, inp = w ++ rest ∧ Number w := by
  have hall : ∀ l : Bytes, ∀ c ∈ l.takeWhile isDigit, isDigit c = true :=
    fun l => List.all_eq_true.mp List.all_takeWhile
  have hinp := @List.takeWhile_append_dropWhile _ isDigit inp
  unfold skipNumber at h
  dsimp only at h
  rw [drop_takeWhile] at h
  split at h
  · cases h
  next hpos =>
  split at h
  next frac hrest =>
    rw [drop_takeWhile] at h
    split at h
    · cases h
    next hlen =>
    split at h
    · cases h
    next hflen =>
    cases h
    refine ⟨inp.takeWhile isDigit ++ 46 :: frac.takeWhile isDigit, ?_,
      .decimal ⟨hall inp, by omega, by omega⟩ ⟨hall frac, by omega, by omega⟩⟩
    rw [List.append_assoc, List.cons_append, List.takeWhile_append_dropWhile, ← hrest, hinp]
  next =>
    split at h
    · cases h
    next hlen =>
    cases h
    exact ⟨inp.takeWhile isDigit, hinp.symm, .integer ⟨hall inp, by omega, by omega⟩⟩

/-- A number starts with a digit. -/
theorem Number.head {w : Bytes} (h : Number w) : ∃ c tail, w = c :: tail ∧ isDigit c = true := by
  cases h with
  | integer h =>
    obtain ⟨hdig, hlo, -⟩ := h
    obtain ⟨c, tail, rfl⟩ := List.exists_cons_of_length_pos hlo
    exact ⟨c, tail, rfl, hdig c List.mem_cons_self⟩
  | decimal hw hf =>
    obtain ⟨hdig, hlo, -⟩ := hw
    obtain ⟨c, tail, rfl⟩ := List.exists_cons_of_length_pos hlo
    exact ⟨c, _, rfl, hdig c List.mem_cons_self⟩

theorem digit_ne {c : UInt8} (h : isDigit c = true) : c ≠ 34 ∧ c ≠ 58 ∧ c ≠ 63 ∧ c ≠ 45 := by
  refine ⟨?_, ?_, ?_, ?_⟩ <;> rintro rfl <;> revert h <;> decide

theorem tokenStart_ne {c : UInt8} (h : isAlpha c = true ∨ c = 42) :
    c ≠ 34 ∧ c ≠ 58 ∧ c ≠ 63 ∧ c ≠ 45 ∧ isDigit c = false := by
  have hdigit : isDigit c = false := by
    simp only [isAlpha, isDigit, Bool.or_eq_true, Bool.and_eq_true, decide_eq_true_eq,
      Bool.and_eq_false_iff, decide_eq_false_iff_not, ← UInt8.toNat_inj,
      UInt8.le_iff_toNat_le] at *
    simp at *
    omega
  refine ⟨?_, ?_, ?_, ?_, hdigit⟩ <;> rintro rfl <;> revert h <;> decide

theorem skipBareItem_cons (c : UInt8) (rest : Bytes) : skipBareItem (c :: rest) =
    if c = 34 then skipStringBody rest
    else if c = 58 then
      match rest.dropWhile isBase64Char with
      | 58 :: tail => .ok tail
      | _ => .error .malformed
    else if c = 63 then
      match rest with
      | b :: tail => if b = 48 ∨ b = 49 then .ok tail else .error .malformed
      | [] => .error .malformed
    else if c = 45 then skipNumber rest
    else if isDigit c then skipNumber (c :: rest)
    else if isAlpha c || c == 42 then .ok (rest.dropWhile isTokenChar)
    else .error .malformed := rfl

theorem BareItem.skip {w rest : Bytes} (h : BareItem w) (hrest : Follow rest) :
    skipBareItem (w ++ rest) = .ok rest := by
  cases h with
  | string h =>
    cases h with
    | @mk w s h =>
      rw [List.cons_append, List.append_assoc, skipBareItem_cons, if_pos rfl]
      exact h.skip
  | @binary w h =>
    have hclear : Clear isBase64Char (58 :: rest) := by
      rintro c ⟨⟩
      decide
    rw [List.cons_append, List.append_assoc, skipBareItem_cons, if_neg (by decide), if_pos rfl,
      List.singleton_append, dropWhile_word h hclear]
    rfl
  | boolean h =>
    rw [List.cons_append, skipBareItem_cons, if_neg (by decide), if_neg (by decide), if_pos rfl]
    exact if_pos h
  | number h =>
    obtain ⟨c, tail, rfl, hc⟩ := h.head
    have hskip := h.skip hrest
    obtain ⟨h34, h58, h63, h45⟩ := digit_ne hc
    rw [List.cons_append] at hskip ⊢
    rw [skipBareItem_cons, if_neg h34, if_neg h58, if_neg h63, if_neg h45, if_pos hc, hskip]
  | negative h =>
    rw [List.cons_append, skipBareItem_cons, if_neg (by decide), if_neg (by decide),
      if_neg (by decide), if_pos rfl, h.skip hrest]
  | @token c w hc h =>
    obtain ⟨h34, h58, h63, h45, hdigit⟩ := tokenStart_ne hc
    have hstart : (isAlpha c || c == 42) = true := by simpa using hc
    have hclear : Clear isTokenChar rest := hrest.clear (by decide)
    rw [List.cons_append, skipBareItem_cons, if_neg h34, if_neg h58, if_neg h63, if_neg h45,
      if_neg (by simp [hdigit]), if_pos hstart, dropWhile_word h hclear]

theorem bareItem_of_skip {inp rest : Bytes} (h : skipBareItem inp = .ok rest) :
    ∃ w, inp = w ++ rest ∧ BareItem w := by
  unfold skipBareItem at h
  split at h
  · cases h
  next c tail =>
  split at h
  next hc =>
    obtain ⟨w, s, rfl, hw⟩ := chars_of_skip tail rest h
    exact ⟨34 :: (w ++ [34]), by simp [hc], .string (.mk hw)⟩
  split at h
  next hc =>
    obtain ⟨w, hsplit, hw⟩ := word_dropWhile isBase64Char tail
    split at h
    next tail' hrest =>
      cases h
      rw [hrest] at hsplit
      exact ⟨58 :: (w ++ [58]), by simp [hc, hsplit], .binary hw⟩
    next => cases h
  split at h
  next hc =>
    split at h
    next b tail =>
      split at h
      next hb =>
        cases h
        exact ⟨[63, b], by simp [hc], .boolean hb⟩
      next => cases h
    next => cases h
  split at h
  next hc =>
    obtain ⟨w, rfl, hw⟩ := number_of_skip h
    exact ⟨45 :: w, by simp [hc], .negative hw⟩
  split at h
  next hc =>
    obtain ⟨w, hsplit, hw⟩ := number_of_skip h
    exact ⟨w, hsplit, .number hw⟩
  split at h
  next hc =>
    cases h
    obtain ⟨w, hsplit, hw⟩ := word_dropWhile isTokenChar tail
    exact ⟨c :: w, by rw [List.cons_append, ← hsplit], .token (by simpa using hc) hw⟩
  next => cases h

/-! ## Parameters -/

theorem Sp.all {w : Bytes} (h : Sp w) : ∀ c ∈ w, (c == 32) = true := by
  intro c hc
  rw [h c hc]
  rfl

theorem Key.start {k : Bytes} (h : Key k) (rest : Bytes) : Clear (· == 32) (k ++ rest) := by
  cases h with
  | @mk c w hc h =>
    rintro b ⟨⟩
    rcases hc with hc | rfl
    · by_contra hsp
      simp only [Bool.not_eq_false, beq_iff_eq] at hsp
      subst hsp
      revert hc
      decide
    · decide

/-- A parameter with a value. -/
theorem skipParams_value {sp k value rest : Bytes} (hsp : Sp sp) (hk : Key k)
    (hv : skipBareItem value = .ok rest) (fuel : Nat) :
    skipParams (fuel + 1) (59 :: (sp ++ (k ++ 61 :: value))) = skipParams fuel rest := by
  have hstart := hk.start (61 :: value)
  have hclear : Clear isKeyChar (61 :: value) := by
    rintro c ⟨⟩
    decide
  rw [skipParams, dropWhile_word hsp.all hstart]
  cases hk with
  | @mk c w hc h =>
    have hkey : (isLcalpha c || c == 42) = true := by simpa using hc
    rw [List.cons_append]
    simp only [if_pos hkey, dropWhile_word h hclear, hv]

/-- A parameter without one. -/
theorem skipParams_flag {sp k rest : Bytes} (hsp : Sp sp) (hk : Key k) (hrest : Follow rest)
    (fuel : Nat) : skipParams (fuel + 1) (59 :: (sp ++ (k ++ rest))) = skipParams fuel rest := by
  have hstart := hk.start rest
  have hclear : Clear isKeyChar rest := hrest.clear (by decide)
  rw [skipParams, dropWhile_word hsp.all hstart]
  cases hk with
  | @mk c w hc h =>
    have hkey : (isLcalpha c || c == 42) = true := by simpa using hc
    rw [List.cons_append]
    simp only [if_pos hkey, dropWhile_word h hclear]
    split
    next value => exact absurd (hrest 61 rfl) (by decide)
    next => rfl

theorem skipParams_ends {rest : Bytes} (h : Ends rest) (fuel : Nat) :
    skipParams fuel rest = .ok rest := by
  cases fuel with
  | zero => rfl
  | succ fuel =>
    unfold skipParams
    split
    next tail => exact absurd (h 59 rfl) (by decide)
    next => rfl

theorem Params.skip {w rest : Bytes} (h : Params w) (hrest : Ends rest) {fuel : Nat}
    (hfuel : w.length ≤ fuel) : skipParams fuel (w ++ rest) = .ok rest := by
  induction h generalizing fuel with
  | nil => exact skipParams_ends hrest fuel
  | @flag sp k w hsp hk h ih =>
    simp only [List.length_cons, List.length_append] at hfuel
    have hfollow := h.follow hrest
    obtain ⟨fuel, rfl⟩ : ∃ n, fuel = n + 1 := ⟨fuel - 1, by omega⟩
    have hrec := ih (show w.length ≤ fuel by omega)
    rw [List.cons_append, List.append_assoc, List.append_assoc,
      skipParams_flag hsp hk hfollow]
    exact hrec
  | @value sp k v w hsp hk hv h ih =>
    simp only [List.length_cons, List.length_append] at hfuel
    obtain ⟨fuel, rfl⟩ : ∃ n, fuel = n + 1 := ⟨fuel - 1, by omega⟩
    have hrec := ih (show w.length ≤ fuel by omega)
    rw [List.cons_append, List.append_assoc, List.append_assoc, List.cons_append,
      List.append_assoc, skipParams_value hsp hk (hv.skip (h.follow hrest))]
    exact hrec

theorem params_of_skip {fuel : Nat} {inp rest : Bytes} (h : skipParams fuel inp = .ok rest) :
    ∃ w, inp = w ++ rest ∧ Params w := by
  induction fuel generalizing inp with
  | zero =>
    cases h
    exact ⟨[], rfl, .nil⟩
  | succ fuel ih =>
    unfold skipParams at h
    split at h
    next tail =>
      obtain ⟨sp, htail, hsp⟩ := word_dropWhile (· == 32) tail
      have hsp : Sp sp := fun c hc => by simpa using hsp c hc
      split at h
      · cases h
      next c key hkey =>
      rw [hkey] at htail
      split at h
      next hc =>
        obtain ⟨k, hsplit, hk⟩ := word_dropWhile isKeyChar key
        have hk : Key (c :: k) := .mk (by simpa using hc) hk
        split at h
        next value hvalue =>
          rw [hvalue] at hsplit
          split at h
          · cases h
          next rest' hskip =>
          obtain ⟨v, rfl, hv⟩ := bareItem_of_skip hskip
          obtain ⟨w, rfl, hw⟩ := ih h
          refine ⟨_, ?_, .value hsp hk hv hw⟩
          rw [htail, hsplit]
          simp only [List.cons_append, List.append_assoc]
        next =>
          obtain ⟨w, hrest, hw⟩ := ih h
          rw [hrest] at hsplit
          refine ⟨_, ?_, .flag hsp hk hw⟩
          rw [htail, hsplit]
          simp only [List.cons_append, List.append_assoc]
      next => cases h
    next =>
      cases h
      exact ⟨[], rfl, .nil⟩

/-! ## Members -/

theorem Member.head {w s : Bytes} (h : Member w s) : ∃ tail, w = 34 :: tail := by
  cases h with
  | mk hw hp =>
    cases hw with
    | mk h => exact ⟨_, rfl⟩

theorem Member.parse {w s rest : Bytes} {cap : Nat} (h : Member w s) (hrest : Ends rest)
    (hcap : s.length ≤ cap) : parseMember (w ++ rest) false cap = .ok (s, rest) := by
  cases h with
  | @mk w s p hw hp =>
    cases hw with
    | @mk w s h =>
      have hbody : parseString (34 :: (w ++ [34]) ++ p ++ rest) cap = .ok (s, p ++ rest) := by
        rw [List.cons_append, List.cons_append, List.append_assoc, List.append_assoc,
          parseString, if_pos rfl]
        exact h.parse hcap
      have hskip : skipParams (p ++ rest).length (p ++ rest) = .ok rest :=
        hp.skip hrest (by simp)
      unfold parseMember
      rw [List.cons_append, List.cons_append] at hbody ⊢
      simp only [hbody, hskip]

theorem member_of_parse {inp s rest : Bytes} {cap : Nat}
    (h : parseMember inp false cap = .ok (s, rest)) :
    ∃ w, inp = w ++ rest ∧ Member w s ∧ s.length ≤ cap := by
  unfold parseMember at h
  dsimp only at h
  split at h
  · cases h
  next s' tail hbody =>
  split at h
  · cases h
  next rest' hskip =>
  cases h
  obtain ⟨p, rfl, hp⟩ := params_of_skip hskip
  split at hbody
  next body =>
    rw [parseString, if_pos rfl] at hbody
    obtain ⟨w, rfl, hw, hlen⟩ := chars_of_parse hbody
    refine ⟨34 :: (w ++ [34]) ++ p, ?_, .mk (.mk hw) hp, hlen⟩
    simp only [List.cons_append, List.append_assoc, List.nil_append]
  next => cases hbody
  next => cases hbody

/-! ## Fields -/

theorem Ows.all {w : Bytes} (h : Ows w) : ∀ c ∈ w, (c == 32 || c == 9) = true := by
  intro c hc
  rcases h c hc with rfl | rfl
  · rfl
  · rfl

theorem Ows.skip {w rest : Bytes} (h : Ows w) (hrest : Clear (fun c => c == 32 || c == 9) rest) :
    skipOws (w ++ rest) = rest := dropWhile_word h.all hrest

theorem ows_of_skip (inp : Bytes) : ∃ w, inp = w ++ skipOws inp ∧ Ows w := by
  obtain ⟨w, hsplit, hw⟩ := word_dropWhile (fun c => c == 32 || c == 9) inp
  exact ⟨w, hsplit, fun c hc => by simpa using hw c hc⟩

theorem Sp.skip {w rest : Bytes} (h : Sp w) (hrest : Clear (· == 32) rest) :
    skipSp (w ++ rest) = rest := dropWhile_word h.all hrest

theorem sp_of_skip (inp : Bytes) : ∃ w, inp = w ++ skipSp inp ∧ Sp w := by
  obtain ⟨w, hsplit, hw⟩ := word_dropWhile (· == 32) inp
  exact ⟨w, hsplit, fun c hc => by simpa using hw c hc⟩

/-- White space ends a member, and so does white space before a comma. -/
theorem Ows.ends {w rest : Bytes} (h : Ows w) (hrest : Ends rest) : Ends (w ++ rest) := by
  intro c hc
  cases w with
  | nil => exact hrest c hc
  | cons b w =>
    have hbc : b = c := Option.some.inj hc
    subst hbc
    rcases h b List.mem_cons_self with hb | hb
    · exact .inl hb
    · exact .inr (.inl hb)

theorem Members.head {w : Bytes} {ss : List Bytes} (h : Members w ss) :
    ∃ tail, w = 34 :: tail := by
  cases h with
  | one h => exact h.head
  | cons h =>
    obtain ⟨tail, rfl⟩ := h.head
    exact ⟨_, rfl⟩

theorem Ows.ends_nil {o : Bytes} (h : Ows o) : Ends o := by
  intro c hc
  have hmem : c ∈ o := List.mem_of_mem_head? hc
  rcases h c hmem with hc | hc
  · exact .inl hc
  · exact .inr (.inl hc)

theorem Ows.skip_nil {o : Bytes} (h : Ows o) : skipOws o = [] :=
  dropWhile_all h.all

theorem Members.parse {w o : Bytes} {ss : List Bytes} {maxMembers fuel cap count : Nat}
    (h : Members w ss) (ho : Ows o) (hfuel : w.length ≤ fuel)
    (hcap : (ss.map List.length).sum ≤ cap) (hcount : count + ss.length ≤ maxMembers) :
    parseListLoop false maxMembers fuel (w ++ o) cap count = .ok ss := by
  induction h generalizing fuel cap count with
  | @one w s h =>
    obtain ⟨tail, hw⟩ := h.head
    obtain ⟨fuel, rfl⟩ : ∃ n, fuel = n + 1 := ⟨fuel - 1, by rw [hw] at hfuel; simp at hfuel; omega⟩
    have hmember := h.parse ho.ends_nil (show s.length ≤ cap by simpa using hcap)
    have hroom : ¬ count ≥ maxMembers := by
      simp only [List.length_singleton] at hcount
      omega
    rw [parseListLoop, hmember]
    simp only [if_neg hroom, ho.skip_nil]
  | @cons w s o₁ o₂ ws ss h ho₁ ho₂ hs ih =>
    obtain ⟨tail, hws⟩ := hs.head
    simp only [List.length_append, List.length_cons, List.map_cons, List.sum_cons]
      at hfuel hcap hcount
    obtain ⟨fuel, rfl⟩ : ∃ n, fuel = n + 1 := ⟨fuel - 1, by omega⟩
    have hcomma : Ends (44 :: (o₂ ++ (ws ++ o))) := by
      rintro c ⟨⟩
      exact .inr (.inr rfl)
    have hmember := h.parse (ho₁.ends hcomma) (show s.length ≤ cap by omega)
    have hroom : ¬ count ≥ maxMembers := by omega
    have hfirst : skipOws (o₁ ++ 44 :: (o₂ ++ (ws ++ o))) = 44 :: (o₂ ++ (ws ++ o)) := by
      refine ho₁.skip ?_
      rintro c ⟨⟩
      decide
    have hsecond : skipOws (o₂ ++ (ws ++ o)) = ws ++ o := by
      refine ho₂.skip ?_
      rw [hws]
      rintro c ⟨⟩
      decide
    have hrec := ih (show ws.length ≤ fuel by omega)
      (show (ss.map List.length).sum ≤ cap - s.length by omega)
      (show count + 1 + ss.length ≤ maxMembers by omega)
    simp only [List.append_assoc, List.cons_append]
    rw [parseListLoop, hmember]
    simp only [if_neg hroom, hfirst, hsecond]
    split
    next hnil =>
      rw [hws] at hnil
      cases hnil
    next => rw [hrec]

theorem members_of_parse {maxMembers fuel : Nat} {inp : Bytes} {cap count : Nat} {ss : List Bytes}
    (h : parseListLoop false maxMembers fuel inp cap count = .ok ss) :
    (ss.map List.length).sum ≤ cap ∧ count + ss.length ≤ maxMembers ∧
      ∃ w o, inp = w ++ o ∧ Members w ss ∧ Ows o := by
  induction fuel generalizing inp cap count ss with
  | zero => cases h
  | succ fuel ih =>
    unfold parseListLoop at h
    split at h
    · cases h
    next s rest hmember =>
    obtain ⟨w, rfl, hw, hlen⟩ := member_of_parse hmember
    split at h
    · cases h
    next hroom =>
    obtain ⟨o, hsplit, ho⟩ := ows_of_skip rest
    split at h
    next hnil =>
      cases h
      rw [hnil, List.append_nil] at hsplit
      subst hsplit
      refine ⟨by simpa using hlen, ?_, w, rest, rfl, .one hw, ho⟩
      rw [List.length_singleton]
      omega
    next rest' hcomma =>
      rw [hcomma] at hsplit
      obtain ⟨o', hsplit', ho'⟩ := ows_of_skip rest'
      split at h
      · cases h
      next hne =>
      split at h
      · cases h
      next ss' hrec =>
      cases h
      obtain ⟨hcap, hcount, ws, o'', hws, hs, ho''⟩ := ih hrec
      simp only [List.map_cons, List.sum_cons, List.length_cons]
      refine ⟨by omega, by omega, _, o'', ?_, .cons hw ho ho' hs, ho''⟩
      rw [hsplit, hsplit', hws]
      simp only [List.append_assoc, List.cons_append]
    next => cases h

/-! ## The parsers -/

/-- The list parser accepts exactly the lists of Strings that fit. -/
theorem stringParseList_iff (inp : Bytes) (cap maxMembers : Nat) (ss : List Bytes) :
    stringParseList inp false cap maxMembers = .ok ss ↔
      SfList inp ss ∧ (ss.map List.length).sum ≤ cap ∧ ss.length ≤ maxMembers := by
  constructor
  · intro h
    obtain ⟨sp, hsplit, hsp⟩ := sp_of_skip inp
    unfold stringParseList at h
    split at h
    next hnil =>
      cases h
      rw [hnil, List.append_nil] at hsplit
      exact ⟨.empty (hsplit ▸ hsp), Nat.zero_le _, Nat.zero_le _⟩
    next =>
      obtain ⟨hcap, hcount, w, o, hw, hs, ho⟩ := members_of_parse h
      rw [hsplit, hw]
      exact ⟨.members hsp hs ho, hcap, by omega⟩
  · rintro ⟨hlist, hcap, hcount⟩
    cases hlist with
    | empty hsp =>
      have hnil : skipSp inp = [] := dropWhile_all hsp.all
      simp only [stringParseList, hnil]
    | @members sp w o ss hsp hw ho =>
      obtain ⟨tail, hhead⟩ := hw.head
      have hskip : skipSp (sp ++ (w ++ o)) = w ++ o := by
        refine hsp.skip ?_
        rw [hhead]
        rintro c ⟨⟩
        decide
      have hloop := hw.parse ho (show w.length ≤ (w ++ o).length + 1 by simp; omega) hcap
        (show 0 + ss.length ≤ maxMembers by omega)
      unfold stringParseList
      rw [hskip]
      split
      next hnil => rw [hhead] at hnil; cases hnil
      next => exact hloop

theorem stringParseItem_iff (inp : Bytes) (cap : Nat) (s : Bytes) :
    stringParseItem inp false cap = .ok s ↔ SfItem inp s ∧ s.length ≤ cap := by
  constructor
  · intro h
    obtain ⟨sp, hsplit, hsp⟩ := sp_of_skip inp
    unfold stringParseItem at h
    split at h
    · cases h
    next s' rest hmember =>
    split at h
    · cases h
    next hnil =>
    cases h
    obtain ⟨w, hw, hmember, hlen⟩ := member_of_parse hmember
    obtain ⟨sp', hsplit', hsp'⟩ := sp_of_skip rest
    rw [not_not.mp hnil, List.append_nil] at hsplit'
    rw [hsplit, hw]
    exact ⟨.mk hsp hmember (hsplit' ▸ hsp'), hlen⟩
  · rintro ⟨hitem, hlen⟩
    cases hitem with
    | @mk sp w sp' s hsp hw hsp' =>
      obtain ⟨tail, hhead⟩ := hw.head
      have hskip : skipSp (sp ++ (w ++ sp')) = w ++ sp' := by
        refine hsp.skip ?_
        rw [hhead]
        rintro c ⟨⟩
        decide
      have hends : Ends sp' := by
        intro c hc
        exact .inl (hsp' c (List.mem_of_mem_head? hc))
      have hnil : skipSp sp' = [] := dropWhile_all hsp'.all
      unfold stringParseItem
      rw [hskip, hw.parse hends hlen]
      simp only [hnil, ne_eq, not_true_eq_false, if_false]

/-! ## The encoder -/

theorem chars_escape {s : Bytes} (h : stringValid s = true) : Chars (s.flatMap escape) s := by
  induction s with
  | nil => exact .nil
  | cons c s ih =>
    simp only [stringValid, List.all_cons, Bool.and_eq_true] at h
    obtain ⟨hc, hs⟩ := h
    have hrest := ih hs
    rw [List.flatMap_cons, escape]
    split
    next hesc => exact .escaped hesc hrest
    next hplain =>
      obtain ⟨hq, hb⟩ := not_or.mp hplain
      exact .unescaped ((stringByte_iff hq hb).mp hc) hrest

theorem sfString_encode {s : Bytes} (h : stringValid s = true) :
    SfString (34 :: s.flatMap escape ++ [34]) s := .mk (chars_escape h)

theorem member_encode {s : Bytes} (h : stringValid s = true) :
    Member (34 :: s.flatMap escape ++ [34]) s := by
  have hmember := Member.mk (sfString_encode h) .nil
  rwa [List.append_nil] at hmember

theorem encodedItemLen_eq (s : Bytes) :
    (34 :: s.flatMap escape ++ [34]).length = encodedItemLen s := by
  simp only [encodedItemLen, List.length_append, List.length_cons, List.length_nil,
    List.length_flatMap]
  omega

theorem members_encode {ss : List Bytes} (hne : ss ≠ []) (h : ∀ s ∈ ss, stringValid s = true) :
    Members (encodeMembers ss) ss ∧ (encodeMembers ss).length = encodedListLen ss := by
  induction ss with
  | nil => exact absurd rfl hne
  | cons s ss ih =>
    have hs := member_encode (h s List.mem_cons_self)
    cases ss with
    | nil => exact ⟨.one hs, encodedItemLen_eq s⟩
    | cons t ss =>
      obtain ⟨hrest, hlen⟩ := ih (List.cons_ne_nil t ss) fun u hu => h u (List.mem_cons_of_mem s hu)
      have hsp : Ows [32] := fun c hc => .inl (List.mem_singleton.mp hc)
      have hno : Ows [] := fun c hc => absurd hc List.not_mem_nil
      constructor
      · have hcons := Members.cons hs hno hsp hrest
        simpa [encodeMembers] using hcons
      · rw [encodeMembers, encodedListLen, List.length_append, List.length_append,
          encodedItemLen_eq, hlen]
        · rfl
        · exact fun h => nomatch h
        · exact fun h => nomatch h

/-- Strict parsing accepts exactly the lists (the items) of the grammar that fit the output, and
gives the strings they stand for, in order. What the encoder writes for valid strings is such a
list, and is read back as the same strings. -/
theorem string_lists :
    (∀ inp cap maxMembers ss, stringParseList inp false cap maxMembers = .ok ss ↔
      SfList inp ss ∧ (ss.map List.length).sum ≤ cap ∧ ss.length ≤ maxMembers) ∧
    (∀ inp cap s, stringParseItem inp false cap = .ok s ↔ SfItem inp s ∧ s.length ≤ cap) ∧
    ∀ ss cap, ss ≠ [] → (∀ s ∈ ss, stringValid s = true) → encodedListLen ss ≤ cap →
      ∃ enc, stringEncodeList ss cap = .ok enc ∧ enc.length = encodedListLen ss ∧
        ∀ room maxMembers, (ss.map List.length).sum ≤ room → ss.length ≤ maxMembers →
          stringParseList enc false room maxMembers = .ok ss := by
  refine ⟨stringParseList_iff, stringParseItem_iff, ?_⟩
  intro ss cap hne hvalid hcap
  obtain ⟨hmembers, hlen⟩ := members_encode hne hvalid
  refine ⟨encodeMembers ss, ?_, hlen, ?_⟩
  · have hempty : ss.isEmpty = false := by simpa using hne
    have hall : ss.all stringValid = true := List.all_eq_true.mpr hvalid
    unfold stringEncodeList
    rw [hempty, hall, if_neg (by decide), if_neg (by decide), if_neg (by omega)]
  · intro room maxMembers hroom hcount
    have hno : Ows [] := fun c hc => absurd hc List.not_mem_nil
    have hsp : Sp [] := fun c hc => absurd hc List.not_mem_nil
    have hlist := SfList.members hsp hmembers hno
    rw [List.nil_append, List.append_nil] at hlist
    exact (stringParseList_iff _ _ _ _).mpr ⟨hlist, hroom, hcount⟩

/-- Parameters of every kind are skipped, and a trailing comma is not accepted. -/
example :
    stringParseList (ascii " \"a\";q=1.5;x=:YQ==:; y=?1 ,\t\"b\\\"\";*") false 8 4 =
      .ok [ascii "a", ascii "b\""] ∧
    stringParseList (ascii "\"a\", ") false 8 4 = .error .malformed := by
  decide +kernel

end Wtquic.Sf
