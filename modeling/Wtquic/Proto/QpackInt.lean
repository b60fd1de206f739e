-- SUMMARY: Prefixed integers: what the decoder reads back, and the 64-bit loop that never wraps.
import Mathlib.Tactic.Ring
import Wtquic.Proto.Qpack

namespace Wtquic.Qpack

/-! # Prefixed integers -/

/-! ## The digits of an integer -/

/-- The value of continuation bytes, seven bits each, the least significant first. -/
def tailValue : Bytes → Nat
  | [] => 0
  | b :: bs => b.toNat % 128 + 128 * tailValue bs

/-- Every continuation byte but the last says that another follows. -/
def IsTail : Bytes → Prop
  | [] => False
  | [b] => b.toNat < 128
  | b :: bs => 128 ≤ b.toNat ∧ IsTail bs

/-- The bytes `enc` are the integer `value` in a prefix of `p` bits. -/
inductive IntCode (p value : Nat) : Bytes → Prop
  | short (b : UInt8) (hv : value = b.toNat % 2 ^ p) (hlt : value < 2 ^ p - 1) :
      IntCode p value [b]
  | long (b : UInt8) (tail : Bytes) (hb : b.toNat % 2 ^ p = 2 ^ p - 1) (ht : IsTail tail)
      (hv : value = 2 ^ p - 1 + tailValue tail) : IntCode p value (b :: tail)

/-! ## Encoding -/

theorem tailLen_eq (fuel value : Nat) : tailLen fuel value = (intTail fuel value).length := by
  induction fuel generalizing value with
  | zero => rfl
  | succ fuel ih =>
    unfold tailLen intTail
    by_cases hv : value < 128
    · rw [if_pos (Nat.div_eq_of_lt hv), if_neg (Nat.not_le.mpr hv)]
      rfl
    · rw [if_neg (by omega), if_pos (Nat.not_lt.mp hv), ih, List.length_cons, Nat.add_comm]

theorem intTail_isTail {fuel value : Nat} (hf : value < 128 ^ fuel) (h : 0 < fuel) :
    IsTail (intTail fuel value) ∧ tailValue (intTail fuel value) = value := by
  induction fuel generalizing value with
  | zero => exact absurd h (Nat.lt_irrefl 0)
  | succ fuel ih =>
    unfold intTail
    split
    · next hv =>
      have hdiv : value / 128 < 128 ^ fuel := by
        rw [Nat.pow_succ] at hf
        exact Nat.div_lt_of_lt_mul (by omega)
      have hpos : 0 < fuel := by
        rcases Nat.eq_zero_or_pos fuel with rfl | hpos
        · simp at hf
          omega
        · exact hpos
      obtain ⟨htail, hval⟩ := ih hdiv hpos
      have hbyte : (UInt8.ofNat (128 + value % 128)).toNat = 128 + value % 128 := by
        simp
        omega
      constructor
      · cases ht : intTail fuel (value / 128) with
        | nil =>
          rw [ht] at htail
          exact htail.elim
        | cons c cs =>
          rw [ht] at htail
          exact ⟨by omega, htail⟩
      · rw [tailValue, hval, hbyte]
        omega
    · next hv =>
      have hbyte : (UInt8.ofNat value).toNat = value := by
        simp
        omega
      constructor
      · simp only [IsTail, hbyte]
        omega
      · simp only [tailValue, hbyte]
        omega

theorem toNat_or_flags {flags : UInt8} {p v : Nat} (hp : p ≤ 8) (hf : flags.toNat % 2 ^ p = 0)
    (hv : v < 2 ^ p) : (flags ||| UInt8.ofNat v).toNat % 2 ^ p = v := by
  have hlt : v < 256 := Nat.lt_of_lt_of_le hv (by
    simpa using Nat.pow_le_pow_right (n := 2) (by omega) hp)
  have hbyte : (UInt8.ofNat v).toNat = v := by
    simp
    omega
  rw [UInt8.toNat_or, Nat.or_mod_two_pow, hf, Nat.zero_or, hbyte, Nat.mod_eq_of_lt hv]

/-! ## Decoding what was encoded -/

/-- A digit of a value within the range passes the range check. -/
theorem digit_in_range {x chunk s : Nat} (hc : chunk ≤ x) (hs : s = 0 ∨ 0 < x)
    (hmax : x * 2 ^ s ≤ maxInt) : ¬ (s > 62 ∨ (s > 0 ∧ chunk > maxInt / 2 ^ s)) := by
  rintro (hbig | ⟨-, hchunk⟩)
  · have hx : 0 < x := hs.resolve_left (by omega)
    have hpow : 2 ^ 63 ≤ 2 ^ s := Nat.pow_le_pow_right (by omega) hbig
    have hle : 2 ^ s ≤ x * 2 ^ s := Nat.le_mul_of_pos_left _ hx
    simp only [maxInt] at hmax
    omega
  · have hle : chunk * 2 ^ s ≤ maxInt := Nat.le_trans (Nat.mul_le_mul_right _ hc) hmax
    exact absurd ((Nat.le_div_iff_mul_le (Nat.two_pow_pos s)).mpr hle) (Nat.not_le.mpr hchunk)

/-- The digits of a value of more than seven bits, after the lowest one. -/
theorem tail_fuel {fuel x : Nat} (hx : x < 128 ^ (fuel + 1)) (hge : 128 ≤ x) :
    x / 128 < 128 ^ fuel ∧ 0 < fuel := by
  refine ⟨?_, ?_⟩
  · rw [Nat.pow_succ] at hx
    exact Nat.div_lt_of_lt_mul (by omega)
  · rcases Nat.eq_zero_or_pos fuel with rfl | hpos
    · simp at hx
      omega
    · exact hpos

/-- One round of the loop on a digit that another one follows. -/
theorem intDecodeTail_digit {x s v : Nat} (rest : Bytes) (i : Nat) (hs : s = 0 ∨ 0 < x)
    (hmax : v + x * 2 ^ s ≤ maxInt) :
    ∃ v', intDecodeTail (UInt8.ofNat (128 + x % 128) :: rest) s v i
        = intDecodeTail rest (s + 7) v' (i + 1) ∧
      v' + x / 128 * 2 ^ (s + 7) = v + x * 2 ^ s := by
  have hbyte : (UInt8.ofNat (128 + x % 128)).toNat = 128 + x % 128 := by
    simp
    omega
  have hchunk : (128 + x % 128) % 128 = x % 128 := by omega
  have hsplit : v + x % 128 * 2 ^ s + x / 128 * 2 ^ (s + 7) = v + x * 2 ^ s := by
    have hpow : 2 ^ (s + 7) = 128 * 2 ^ s := by rw [Nat.pow_add, Nat.mul_comm]
    calc v + x % 128 * 2 ^ s + x / 128 * 2 ^ (s + 7)
        = v + (x % 128 + 128 * (x / 128)) * 2 ^ s := by rw [hpow]; ring
      _ = v + x * 2 ^ s := by rw [Nat.mod_add_div]
  have hguard := digit_in_range (Nat.mod_le x 128) hs
    (Nat.le_trans (Nat.le_add_left _ v) hmax)
  have hsum : ¬ v + x % 128 * 2 ^ s > maxInt := by
    have := hsplit ▸ hmax
    omega
  refine ⟨v + x % 128 * 2 ^ s, ?_, hsplit⟩
  rw [intDecodeTail]
  dsimp only
  rw [hbyte, hchunk, if_neg hguard, if_neg hsum, if_neg (by omega)]

theorem intDecodeTail_intTail {fuel x s v : Nat} (rest : Bytes) (i : Nat) (hx : x < 128 ^ fuel)
    (hf : 0 < fuel) (hs : s = 0 ∨ 0 < x) (hmax : v + x * 2 ^ s ≤ maxInt) :
    intDecodeTail (intTail fuel x ++ rest) s v i
      = .ok (v + x * 2 ^ s) (i + (intTail fuel x).length) := by
  induction fuel generalizing x s v i with
  | zero => exact absurd hf (Nat.lt_irrefl 0)
  | succ fuel ih =>
    unfold intTail
    split
    · next hge =>
      obtain ⟨hdiv, hpos⟩ := tail_fuel hx hge
      obtain ⟨v', hdigit, hsplit⟩ :=
        intDecodeTail_digit (intTail fuel (x / 128) ++ rest) i hs hmax
      rw [List.cons_append, hdigit,
        ih (i + 1) hdiv hpos (.inr (by omega)) (by rw [hsplit]; exact hmax), hsplit]
      simp only [List.length_cons, IntResult.ok.injEq, true_and]
      omega
    · next hlt =>
      have hbyte : (UInt8.ofNat x).toNat = x := by
        simp
        omega
      have hchunk : x % 128 = x := Nat.mod_eq_of_lt (by omega)
      have hguard := digit_in_range (Nat.le_refl x) hs
        (Nat.le_trans (Nat.le_add_left _ v) hmax)
      rw [List.singleton_append, intDecodeTail]
      dsimp only
      rw [hbyte, hchunk, if_neg hguard, if_neg (Nat.not_lt.mpr hmax), if_pos (by omega)]
      rfl

/-- A strict prefix of the continuation bytes needs more. -/
theorem intDecodeTail_prefix {fuel x s v : Nat} {pre : Bytes} (i : Nat) (hx : x < 128 ^ fuel)
    (hs : s = 0 ∨ 0 < x) (hmax : v + x * 2 ^ s ≤ maxInt) (hpre : pre <+: intTail fuel x)
    (hne : pre ≠ intTail fuel x) : intDecodeTail pre s v i = .needMore := by
  induction fuel generalizing x s v i pre with
  | zero => exact absurd (List.prefix_nil.mp hpre) hne
  | succ fuel ih =>
    cases pre with
    | nil => rfl
    | cons b pre =>
      unfold intTail at hpre hne
      split at hpre
      · next hge =>
        rw [if_pos hge] at hne
        obtain ⟨rfl, htail⟩ := List.cons_prefix_cons.mp hpre
        obtain ⟨v', hdigit, hsplit⟩ := intDecodeTail_digit pre i hs hmax
        rw [hdigit]
        exact ih (i + 1) (tail_fuel hx hge).1 (.inr (by omega)) (by rw [hsplit]; exact hmax) htail
          fun he => hne (by rw [he])
      · next hlt =>
        rw [if_neg hlt] at hne
        obtain ⟨rfl, hnil⟩ := List.cons_prefix_cons.mp hpre
        exact absurd (by rw [List.prefix_nil.mp hnil]) hne

/-- What `wtq_qpack_int_encode` writes. -/
theorem intEncode_eq {value p : Nat} (flags : UInt8) {cap : Nat} (hp : 3 ≤ p) (hp' : p ≤ 8)
    (hv : value ≤ maxInt) (hcap : intEncodedLen value p ≤ cap) :
    intEncode value flags p cap = .ok (
      if value < 2 ^ p - 1 then [flags ||| UInt8.ofNat value]
      else (flags ||| UInt8.ofNat (2 ^ p - 1)) :: intTail maxDigits (value - (2 ^ p - 1))) := by
  unfold intEncode
  rw [if_neg (by omega)]
  dsimp only
  rw [if_neg (Nat.not_lt.mpr hcap)]
  split <;> rfl

theorem intEncode_length {value p : Nat} {flags : UInt8} {cap : Nat} {enc : Bytes}
    (h : intEncode value flags p cap = .ok enc) : enc.length = intEncodedLen value p := by
  unfold intEncode at h
  split at h
  · cases h
  dsimp only at h
  split at h
  · cases h
  unfold intEncodedLen
  dsimp only
  split at h
  · next hlt =>
    rw [if_pos hlt]
    cases h
    rfl
  · next hlt =>
    rw [if_neg hlt, tailLen_eq]
    cases h
    exact Nat.add_comm _ _

/-- A value within the range has at most `maxDigits` continuation bytes. -/
theorem lt_digits {value : Nat} (hv : value ≤ maxInt) (k : Nat) : value - k < 128 ^ maxDigits := by
  have hbig : maxInt < 128 ^ maxDigits := by decide
  omega

/-- Decoding an encoded integer reads back its value, and a strict prefix needs more. -/
theorem intDecode_encode {value p : Nat} {flags : UInt8} {cap : Nat} {enc : Bytes} (hp : 3 ≤ p)
    (hp' : p ≤ 8) (hf : flags.toNat % 2 ^ p = 0) (h : intEncode value flags p cap = .ok enc) :
    (∀ rest, intDecode (enc ++ rest) p = .ok value enc.length) ∧
      ∀ pre, pre <+: enc → pre ≠ enc → intDecode pre p = .needMore := by
  have hv : value ≤ maxInt ∧ intEncodedLen value p ≤ cap := by
    unfold intEncode at h
    split at h
    · cases h
    · dsimp only at h
      split at h
      · cases h
      · omega
  have hpow : 0 < 2 ^ p := Nat.two_pow_pos p
  have hwidth : ¬ (p < 3 ∨ p > 8) := by omega
  rw [intEncode_eq flags hp hp' hv.1 hv.2] at h
  split at h
  · next hlt =>
    cases h
    have hbyte := toNat_or_flags hp' hf (v := value) (by omega)
    refine ⟨fun rest => ?_, fun pre hpre hne => ?_⟩
    · simp only [intDecode, if_neg hwidth, List.singleton_append, hbyte]
      rw [if_neg (by omega)]
      rfl
    · cases pre with
      | nil => simp only [intDecode, if_neg hwidth]
      | cons b pre =>
        obtain ⟨rfl, hnil⟩ := List.cons_prefix_cons.mp hpre
        exact absurd (by rw [List.prefix_nil.mp hnil]) hne
  · next hge =>
    cases h
    have hbyte := toNat_or_flags hp' hf (v := 2 ^ p - 1) (by omega)
    have hsum : 2 ^ p - 1 + (value - (2 ^ p - 1)) * 2 ^ 0 = value := by omega
    have hmax : 2 ^ p - 1 + (value - (2 ^ p - 1)) * 2 ^ 0 ≤ maxInt := by
      rw [hsum]
      exact hv.1
    refine ⟨fun rest => ?_, fun pre hpre hne => ?_⟩
    · simp only [intDecode, if_neg hwidth, List.cons_append, hbyte, if_true]
      rw [intDecodeTail_intTail rest 1 (lt_digits hv.1 _) (by decide) (.inl rfl) hmax, hsum,
        List.length_cons, Nat.add_comm]
    · cases pre with
      | nil => simp only [intDecode, if_neg hwidth]
      | cons b pre =>
        obtain ⟨rfl, htail⟩ := List.cons_prefix_cons.mp hpre
        simp only [intDecode, if_neg hwidth, hbyte, if_true]
        exact intDecodeTail_prefix 1 (lt_digits hv.1 _) (.inl rfl) hmax htail
          fun he => hne (by rw [he])

/-! ## What decoding reads -/

theorem intDecodeTail_ok {src : Bytes} {s v i value c : Nat}
    (h : intDecodeTail src s v i = .ok value c) :
    value ≤ maxInt ∧ ∃ tail rest, src = tail ++ rest ∧ IsTail tail ∧ c = i + tail.length ∧
      value = v + tailValue tail * 2 ^ s ∧ s + 7 * tail.length ≤ 69 := by
  induction src generalizing s v i with
  | nil => cases h
  | cons b src ih =>
    rw [intDecodeTail] at h
    dsimp only at h
    split at h
    · cases h
    next hguard =>
    split at h
    · cases h
    next hsum =>
    split at h
    · next hlast =>
      cases h
      refine ⟨by omega, [b], src, rfl, hlast, rfl, ?_, ?_⟩
      · rw [tailValue, tailValue, Nat.mul_zero, Nat.add_zero]
      · simp only [List.length_singleton]
        omega
    · next hmore =>
      obtain ⟨hle, tail, rest, rfl, htail, rfl, rfl, hlen⟩ := ih h
      refine ⟨hle, b :: tail, rest, rfl, ?_, ?_, ?_, ?_⟩
      · cases tail with
        | nil => exact htail.elim
        | cons d tail => exact ⟨by omega, htail⟩
      · simp only [List.length_cons]
        omega
      · have hpow : 2 ^ (s + 7) = 128 * 2 ^ s := by rw [Nat.pow_add, Nat.mul_comm]
        rw [tailValue, hpow]
        ring
      · simp only [List.length_cons]
        omega

/-- The loop looks at nine continuation bytes at most before it answers. -/
theorem intDecodeTail_needMore {src : Bytes} {s v i : Nat} (hs : s ≤ 69)
    (h : intDecodeTail src s v i = .needMore) : s + 7 * src.length ≤ 69 := by
  induction src generalizing s v i with
  | nil => simpa using hs
  | cons b src ih =>
    rw [intDecodeTail] at h
    dsimp only at h
    split at h
    · cases h
    next hguard =>
    split at h
    · cases h
    split at h
    · cases h
    · have := ih (by omega) h
      simp only [List.length_cons]
      omega

theorem intDecode_ok {src : Bytes} {p value c : Nat} (hp : p ≤ 8)
    (h : intDecode src p = .ok value c) :
    value ≤ maxInt ∧ c ≤ 10 ∧ c ≤ src.length ∧ IntCode p value (src.take c) := by
  unfold intDecode at h
  split at h
  · cases h
  split at h
  · cases h
  next b src =>
  dsimp only at h
  have hpow : 2 ^ p ≤ 256 := by simpa using Nat.pow_le_pow_right (n := 2) (by omega) hp
  have hlt : b.toNat % 2 ^ p < 2 ^ p := Nat.mod_lt _ (Nat.two_pow_pos p)
  split at h
  · next hfull =>
    obtain ⟨hle, tail, rest, rfl, htail, rfl, rfl, hlen⟩ := intDecodeTail_ok h
    refine ⟨hle, by omega, ?_, ?_⟩
    · simp only [List.length_cons, List.length_append]
      omega
    · rw [Nat.add_comm 1, List.take_succ_cons, List.take_left]
      exact .long b tail hfull htail (by rw [hfull, Nat.pow_zero, Nat.mul_one])
  · next hshort =>
    cases h
    refine ⟨?_, by omega, ?_, ?_⟩
    · simp only [maxInt]
      omega
    · simp
    · exact .short b rfl (by omega)

theorem intDecode_needMore {src : Bytes} {p : Nat} (h : intDecode src p = .needMore) :
    src.length ≤ 10 := by
  unfold intDecode at h
  split at h
  · cases h
  split at h
  · simp
  next b src =>
  dsimp only at h
  split at h
  · have := intDecodeTail_needMore (by omega) h
    simp only [List.length_cons]
    omega
  · cases h

/-- An integer that goes on for ten zero digits is malformed. -/
theorem intDecode_padded {b : UInt8} {p n : Nat} (rest : Bytes) (hp : p ≤ 8)
    (hb : b.toNat % 2 ^ p = 2 ^ p - 1) (hn : 10 ≤ n) :
    intDecode (b :: List.replicate n 0x80 ++ rest) p = .malformed := by
  cases h : intDecode (b :: List.replicate n 0x80 ++ rest) p with
  | malformed => rfl
  | needMore =>
    have := intDecode_needMore h
    simp at this
    omega
  | ok value c =>
    obtain ⟨-, hc, -, hcode⟩ := intDecode_ok hp h
    have htake : ∀ k ≤ n, (List.replicate n (0x80 : UInt8) ++ rest).take k
        = List.replicate k 0x80 := by
      intro k hk
      rw [List.take_append_of_le_length (by simpa using hk), List.take_replicate,
        Nat.min_eq_left hk]
    cases c with
    | zero => nomatch hcode
    | succ c =>
      rw [List.cons_append, List.take_succ_cons, htake c (by omega)] at hcode
      generalize hzeros : List.replicate c (0x80 : UInt8) = tail at hcode
      cases hcode with
      | short _ hv hlt => omega
      | long _ _ _ ht hv =>
        subst hzeros
        -- the last byte read would have to end the integer
        have hopen : ∀ k, ¬ IsTail (List.replicate k 0x80) := by
          intro k hk
          induction k with
          | zero => exact hk
          | succ k ih =>
            cases k with
            | zero => exact absurd (show (0x80 : UInt8).toNat < 128 from hk) (by decide)
            | succ k => exact ih hk.2
        exact absurd ht (hopen c)

/-! ## 64-bit arithmetic -/

/-- A sum in 64 bits, `none` when it wraps. -/
def add64 (a b : Nat) : Option Nat := if a + b < 2 ^ 64 then some (a + b) else none

/-- A left shift in 64 bits, `none` when the distance is too large or a bit is lost. -/
def shl64 (a s : Nat) : Option Nat := if s < 64 ∧ a * 2 ^ s < 2 ^ 64 then some (a * 2 ^ s) else none

/-- The continuation loop with every overflow observed. -/
def intDecodeTail64 : Bytes → Nat → Nat → Nat → Option IntResult
  | [], _, _, _ => some .needMore
  | b :: rest, shift, v, i =>
    let chunk := b.toNat % 128
    if shift > 62 ∨ (shift > 0 ∧ chunk > maxInt / 2 ^ shift) then some .malformed
    else do
      let v ← add64 v (← shl64 chunk shift)
      if v > maxInt then some .malformed
      else if b.toNat < 128 then some (.ok v (i + 1))
      else intDecodeTail64 rest (← add64 shift 7) v (i + 1)

/-- `wtq_qpack_int_decode` with every overflow observed. -/
def intDecode64 (src : Bytes) (prefixBits : Nat) : Option IntResult :=
  if prefixBits < 3 ∨ prefixBits > 8 then some .malformed
  else
    match src with
    | [] => some .needMore
    | b :: rest =>
      let v := b.toNat % 2 ^ prefixBits
      if v = 2 ^ prefixBits - 1 then intDecodeTail64 rest 0 v 1 else some (.ok v 1)

theorem intDecodeTail64_eq (src : Bytes) {s v : Nat} (i : Nat) (hv : v ≤ maxInt) :
    intDecodeTail64 src s v i = some (intDecodeTail src s v i) := by
  induction src generalizing s v i with
  | nil => rfl
  | cons b src ih =>
    rw [intDecodeTail64, intDecodeTail]
    dsimp only
    split
    · rfl
    next hguard =>
    have hchunk : b.toNat % 128 * 2 ^ s ≤ maxInt := by
      rcases Nat.eq_zero_or_pos s with rfl | hs
      · simp only [maxInt]
        omega
      · exact (Nat.le_div_iff_mul_le (Nat.two_pow_pos s)).mp (by omega)
    have hshl : shl64 (b.toNat % 128) s = some (b.toNat % 128 * 2 ^ s) :=
      if_pos ⟨by omega, by simp only [maxInt] at hchunk; omega⟩
    have hadd : add64 v (b.toNat % 128 * 2 ^ s) = some (v + b.toNat % 128 * 2 ^ s) :=
      if_pos (by simp only [maxInt] at hchunk hv; omega)
    have hshift : add64 s 7 = some (s + 7) := if_pos (by omega)
    simp only [hshl, hadd, hshift, Option.bind_eq_bind, Option.bind_some]
    split
    · rfl
    next hsum =>
    split
    · rfl
    · exact ih (i + 1) (by omega)

/-- No shift and no sum of the decoder leaves 64 bits. -/
theorem intDecode64_eq (src : Bytes) (p : Nat) : intDecode64 src p = some (intDecode src p) := by
  unfold intDecode64 intDecode
  split
  · rfl
  next hp =>
  split
  · rfl
  next b src =>
  have hpow : 2 ^ p ≤ 256 := by simpa using Nat.pow_le_pow_right (n := 2) (by omega) (by omega : p ≤ 8)
  have hlt : b.toNat % 2 ^ p < 2 ^ p := Nat.mod_lt _ (Nat.two_pow_pos p)
  dsimp only
  split
  · exact intDecodeTail64_eq src 1 (by simp only [maxInt]; omega)
  · rfl

/-! ## The codec -/

/-- The prefixed integers of an admitted width: an encoding is read back in full, and each
strict prefix of it needs more; whatever is read is the exact value of its digits; a run of
zero digits ends in an error; and nothing wraps. -/
theorem int_codec (p : Nat) (hp : 3 ≤ p ∧ p ≤ 8) :
    (∀ value flags cap, value ≤ maxInt → flags.toNat % 2 ^ p = 0 → intEncodedLen value p ≤ cap →
      ∃ enc, intEncode value flags p cap = .ok enc ∧ enc.length = intEncodedLen value p ∧
        (∀ rest, intDecode (enc ++ rest) p = .ok value enc.length) ∧
        ∀ pre, pre <+: enc → pre ≠ enc → intDecode pre p = .needMore) ∧
      (∀ src, intDecode64 src p = some (intDecode src p)) ∧
      (∀ src value c, intDecode src p = .ok value c →
        value ≤ maxInt ∧ c ≤ src.length ∧ IntCode p value (src.take c)) ∧
      (∀ src, intDecode src p = .needMore → src.length ≤ 10) ∧
      ∀ b n rest, b.toNat % 2 ^ p = 2 ^ p - 1 → 10 ≤ n →
        intDecode (b :: List.replicate n 0x80 ++ rest) p = .malformed := by
  refine ⟨?_, fun src => intDecode64_eq src p, ?_, fun src => intDecode_needMore, ?_⟩
  · intro value flags cap hv hf hcap
    have henc := intEncode_eq flags hp.1 hp.2 hv hcap
    exact ⟨_, henc, intEncode_length henc, intDecode_encode hp.1 hp.2 hf henc⟩
  · intro src value c h
    obtain ⟨hle, -, hlen, hcode⟩ := intDecode_ok hp.2 h
    exact ⟨hle, hlen, hcode⟩
  · exact fun b n rest hb hn => intDecode_padded rest hp.2 hb hn

/-- A length in a 7-bit prefix, as in every string literal. -/
theorem int_codec_seven :
    ∃ enc, intEncode 1337 0x80 7 16 = .ok enc ∧ ∀ rest, intDecode (enc ++ rest) 7 = .ok 1337 3 := by
  obtain ⟨enc, henc, hlen, hread, -⟩ :=
    (int_codec 7 (by decide)).1 1337 0x80 16 (by decide) (by decide) (by decide)
  have hthree : enc.length = 3 := hlen.trans (by decide)
  exact ⟨enc, henc, fun rest => hthree ▸ hread rest⟩

end Wtquic.Qpack
