-- SUMMARY: The Origin parser accepts exactly the serialized origins.
import Wtquic.Lib.Scan
import Wtquic.Engine.Policy

namespace Wtquic.Engine.Origin

/-! # Serialized origins against their grammar

The grammar of RFC 3986 for `scheme://host[:port]` as predicates on words, one for each rule. The
scanners of the engine are compared with the rules in both directions. -/

/-! ## Grammar -/

/-- The value of a decimal numeral, read behind `v`. -/
def decimal (v : Nat) (w : Bytes) : Nat := w.foldl (fun v c => v * 10 + (c.toNat - 48)) v

/-- `scheme = ALPHA *( ALPHA / DIGIT / "+" / "-" / "." )`. -/
inductive Scheme : Bytes → Prop where
  | mk {c : UInt8} {w : Bytes} (hc : originAlpha c) (h : ∀ b ∈ w, originSchemeRest b) :
      Scheme (c :: w)

/-- `reg-name = *( unreserved / pct-encoded / sub-delims )`. -/
inductive RegName : Bytes → Prop where
  | nil : RegName []
  | char {c : UInt8} {w : Bytes} (hc : originUnreserved c ∨ originSubdelim c) (h : RegName w) :
      RegName (c :: w)
  | pct {a b : UInt8} {w : Bytes} (ha : originHex a) (hb : originHex b) (h : RegName w) :
      RegName (37 :: a :: b :: w)

/-- `dec-octet`: at most three digits without a leading zero, up to 255. -/
structure DecOctet (w : Bytes) : Prop where
  digits : ∀ c ∈ w, originDigit c
  pos : 0 < w.length
  le : w.length ≤ 3
  noZero : 1 < w.length → w.head? ≠ some 48
  range : decimal 0 w ≤ 255

/-- `n + 1` octets separated by dots. -/
inductive Octets : Nat → Bytes → Prop where
  | one {w : Bytes} (h : DecOctet w) : Octets 0 w
  | cons {n : Nat} {w v : Bytes} (h : DecOctet w) (hv : Octets n v) : Octets (n + 1) (w ++ 46 :: v)

/-- `IPv4address`. -/
def Ipv4address (w : Bytes) : Prop := Octets 3 w

/-- `h16 = 1*4HEXDIG`. -/
structure H16 (w : Bytes) : Prop where
  hex : ∀ c ∈ w, originHex c
  pos : 0 < w.length
  le : w.length ≤ 4

/-- `n` groups separated by colons. -/
inductive Groups : Nat → Bytes → Prop where
  | one {w : Bytes} (h : H16 w) : Groups 1 w
  | cons {n : Nat} {w v : Bytes} (h : H16 w) (hv : Groups n v) : Groups (n + 1) (w ++ 58 :: v)

/-- Groups of which the last may be an IPv4 address, which stands for two. -/
inductive TailGroups : Nat → Bytes → Prop where
  | one {w : Bytes} (h : H16 w) : TailGroups 1 w
  | ipv4 {w : Bytes} (h : Ipv4address w) : TailGroups 2 w
  | cons {n : Nat} {w v : Bytes} (h : H16 w) (hv : TailGroups n v) :
      TailGroups (n + 1) (w ++ 58 :: v)

/-- `IPv6address`: eight groups, or at most seven around one `"::"`. -/
inductive Ipv6address : Bytes → Prop where
  | full {w : Bytes} (h : TailGroups 8 w) : Ipv6address w
  | compressed {n m : Nat} {w v : Bytes} (hw : (n = 0 ∧ w = []) ∨ Groups n w)
      (hv : (m = 0 ∧ v = []) ∨ TailGroups m v) (h : n + m ≤ 7) :
      Ipv6address (w ++ 58 :: 58 :: v)

/-- `IPvFuture = "v" 1*HEXDIG "." 1*( unreserved / sub-delims / ":" )`. -/
inductive IpvFuture : Bytes → Prop where
  | mk {c : UInt8} {v w : Bytes} (hc : c = 118 ∨ c = 86) (hv : v ≠ [])
      (hhex : ∀ b ∈ v, originHex b) (hw : w ≠ [])
      (h : ∀ b ∈ w, originUnreserved b ∨ originSubdelim b ∨ b = 58) : IpvFuture (c :: (v ++ 46 :: w))

/-- `host`, where an IPv4 address is a reg-name too. -/
inductive Host : Bytes → Prop where
  | regName {w : Bytes} (h : RegName w) (hne : w ≠ []) : Host w
  | ipv6 {w : Bytes} (h : Ipv6address w) : Host (91 :: (w ++ [93]))
  | future {w : Bytes} (h : IpvFuture w) : Host (91 :: (w ++ [93]))

/-- An optional port. -/
inductive Port : Bytes → Prop where
  | none : Port []
  | some {w : Bytes} (hne : w ≠ []) (hd : ∀ c ∈ w, originDigit c) (hlo : 1 ≤ decimal 0 w)
      (hhi : decimal 0 w ≤ 65535) : Port (58 :: w)

/-- `scheme "://" host [ ":" port ]`. -/
inductive Tuple : Bytes → Prop where
  | mk {s h p : Bytes} (hs : Scheme s) (hh : Host h) (hp : Port p) :
      Tuple (s ++ 58 :: 47 :: 47 :: (h ++ p))

/-! ## Character classes -/

theorem digit_iff {c : UInt8} : originDigit c = true ↔ 48 ≤ c.toNat ∧ c.toNat ≤ 57 := by
  simp [originDigit, UInt8.le_iff_toNat_le]

theorem alpha_iff {c : UInt8} : originAlpha c = true ↔
    (65 ≤ c.toNat ∧ c.toNat ≤ 90) ∨ (97 ≤ c.toNat ∧ c.toNat ≤ 122) := by
  simp [originAlpha, UInt8.le_iff_toNat_le]

theorem hex_iff {c : UInt8} : originHex c = true ↔
    (48 ≤ c.toNat ∧ c.toNat ≤ 57) ∨ (65 ≤ c.toNat ∧ c.toNat ≤ 70) ∨
      (97 ≤ c.toNat ∧ c.toNat ≤ 102) := by
  simp [originHex, originDigit, UInt8.le_iff_toNat_le, or_assoc]

theorem unreserved_iff {c : UInt8} : originUnreserved c = true ↔
    originAlpha c = true ∨ originDigit c = true ∨
      c.toNat = 45 ∨ c.toNat = 46 ∨ c.toNat = 95 ∨ c.toNat = 126 := by
  have hset : ascii "-._~" = [45, 46, 95, 126] := by decide
  simp [originUnreserved, hset, ← UInt8.toNat_inj, or_assoc]

theorem subdelim_iff {c : UInt8} : originSubdelim c = true ↔
    c.toNat = 33 ∨ c.toNat = 36 ∨ (38 ≤ c.toNat ∧ c.toNat ≤ 44) ∨ c.toNat = 59 ∨ c.toNat = 61 := by
  have hset : ascii "!$&'()*+,;=" = [33, 36, 38, 39, 40, 41, 42, 43, 44, 59, 61] := by decide
  simp only [originSubdelim, hset, List.contains_iff_mem, List.mem_cons, List.not_mem_nil, or_false,
    ← UInt8.toNat_inj]
  simp
  omega

/-- What may stand in a reg-name stands neither for a separator nor for itself only. -/
theorem regChar_ne {c : UInt8} (h : originUnreserved c = true ∨ originSubdelim c = true) :
    33 ≤ c.toNat ∧ c.toNat ≤ 126 ∧ c.toNat ≠ 35 ∧ c.toNat ≠ 37 ∧ c.toNat ≠ 47 ∧ c.toNat ≠ 58 ∧
      c.toNat ≠ 63 ∧ c.toNat ≠ 64 ∧ c.toNat ≠ 91 ∧ c.toNat ≠ 93 := by
  rw [unreserved_iff, alpha_iff, digit_iff, subdelim_iff] at h
  omega

/-! ## reg-name -/

theorem originHost_char {fuel : Nat} {c : UInt8} {rest : Bytes} {any : Bool} (hcolon : c ≠ 58)
    (hpct : c ≠ 37) : originHost (fuel + 1) (c :: rest) any =
      if originUnreserved c || originSubdelim c then originHost fuel rest true else none := by
  conv_lhs => unfold originHost
  rw [if_neg hcolon, if_neg hpct]

theorem originHost_pct {fuel : Nat} {a b : UInt8} {rest : Bytes} {any : Bool} :
    originHost (fuel + 1) (37 :: a :: b :: rest) any =
      if originHex a && originHex b then originHost fuel rest true else none := by
  conv_lhs => unfold originHost
  rw [if_neg (by decide), if_pos rfl]

theorem originHost_sound {fuel : Nat} {s tail : Bytes} {any any' : Bool}
    (h : originHost fuel s any = some (any', tail)) :
    ∃ w, s = w ++ tail ∧ RegName w ∧ (∀ c ∈ tail.head?, c = 58) ∧ any' = (any || !w.isEmpty) := by
  induction fuel generalizing s any with
  | zero => cases h
  | succ fuel ih =>
    match s with
    | [] =>
      obtain ⟨rfl, rfl⟩ := Prod.mk.inj (Option.some.inj h)
      exact ⟨[], rfl, .nil, nofun, by simp⟩
    | c :: rest =>
      by_cases hcolon : c = 58
      · subst hcolon
        obtain ⟨rfl, rfl⟩ := Prod.mk.inj (Option.some.inj h)
        exact ⟨[], rfl, .nil, fun c hc => (Option.some.inj hc).symm, by simp⟩
      by_cases hpct : c = 37
      · subst hpct
        match rest with
        | [] => cases h
        | [_] => cases h
        | a :: b :: rest =>
          rw [originHost_pct] at h
          split at h
          · next hhex =>
            rw [Bool.and_eq_true] at hhex
            obtain ⟨w, rfl, hw, htail, rfl⟩ := ih h
            exact ⟨37 :: a :: b :: w, rfl, .pct hhex.1 hhex.2 hw, htail, by simp⟩
          · cases h
      · rw [originHost_char hcolon hpct] at h
        split at h
        · next hchar =>
          rw [Bool.or_eq_true] at hchar
          obtain ⟨w, rfl, hw, htail, rfl⟩ := ih h
          exact ⟨c :: w, rfl, .char hchar hw, htail, by simp⟩
        · cases h

theorem originHost_word {fuel : Nat} {w tail : Bytes} {any : Bool} (h : RegName w)
    (htail : ∀ c ∈ tail.head?, c = 58) (hfuel : w.length < fuel) :
    originHost fuel (w ++ tail) any = some (any || !w.isEmpty, tail) := by
  induction h generalizing fuel any with
  | nil =>
    obtain ⟨fuel, rfl⟩ : ∃ k, fuel = k + 1 := ⟨fuel - 1, by omega⟩
    cases tail with
    | nil => simp [originHost]
    | cons c tail =>
      obtain rfl : c = 58 := htail c rfl
      simp [originHost]
  | char hc h ih =>
    rename_i c w
    obtain ⟨fuel, rfl⟩ : ∃ k, fuel = k + 1 := ⟨fuel - 1, by omega⟩
    rw [List.length_cons] at hfuel
    have hne := regChar_ne hc
    have hcolon : c ≠ 58 := by rintro rfl; exact absurd hne (by decide)
    have hpct : c ≠ 37 := by rintro rfl; exact absurd hne (by decide)
    rw [List.cons_append, originHost_char hcolon hpct, if_pos (by simpa using hc), ih (by omega)]
    simp
  | pct ha hb h ih =>
    obtain ⟨fuel, rfl⟩ : ∃ k, fuel = k + 1 := ⟨fuel - 1, by omega⟩
    rw [List.length_cons, List.length_cons, List.length_cons] at hfuel
    rw [List.cons_append, List.cons_append, List.cons_append, originHost_pct,
      if_pos (by rw [ha, hb]; rfl), ih (by omega)]
    simp

/-! ## Numerals -/

theorem decimal_cons (v : Nat) (c : UInt8) (w : Bytes) :
    decimal v (c :: w) = decimal (v * 10 + (c.toNat - 48)) w := by
  rw [decimal, List.foldl_cons, decimal]

theorem le_decimal (v : Nat) (w : Bytes) : v ≤ decimal v w := by
  induction w generalizing v with
  | nil => exact Nat.le_refl v
  | cons c w ih =>
    rw [decimal_cons]
    have := ih (v * 10 + (c.toNat - 48))
    omega

theorem originPort_iff {s : Bytes} {p v : Nat} (hp : p ≤ 65535) :
    originPort s p = some v ↔
      (∀ c ∈ s, originDigit c = true) ∧ decimal p s = v ∧ v ≤ 65535 := by
  induction s generalizing p with
  | nil =>
    simp only [originPort, Option.some.injEq, decimal, List.foldl_nil, List.not_mem_nil,
      false_imp_iff, implies_true, true_and]
    constructor
    · intro h
      exact ⟨h, h ▸ hp⟩
    · intro h
      exact h.1
  | cons c s ih =>
    rw [originPort]
    by_cases hc : originDigit c = true
    · have hdigit := digit_iff.mp hc
      have hge := le_decimal (p * 10 + (c.toNat - 48)) s
      rw [if_neg (by simp [hc]), decimal_cons]
      dsimp only
      by_cases hbig : p > (65535 - (c.toNat - 48)) / 10
      · rw [if_pos hbig]
        refine ⟨nofun, fun h => ?_⟩
        obtain ⟨-, rfl, hle⟩ := h
        omega
      · rw [if_neg hbig, ih (by omega)]
        simp [hc]
    · rw [if_pos (by simp [hc])]
      simp [hc]

theorem originAfterHost_iff {tail : Bytes} : originAfterHost tail = true ↔ Port tail := by
  cases tail with
  | nil => exact ⟨fun _ => .none, fun _ => rfl⟩
  | cons c w =>
    rw [originAfterHost]
    constructor
    · intro h
      simp only [Bool.and_eq_true, beq_iff_eq, Bool.not_eq_true', List.isEmpty_eq_false_iff] at h
      obtain ⟨⟨rfl, hne⟩, hport⟩ := h
      cases hv : originPort w 0 with
      | none => simp [hv] at hport
      | some v =>
        rw [hv] at hport
        obtain ⟨hd, rfl, hle⟩ := (originPort_iff (Nat.zero_le _)).mp hv
        have hzero : decimal 0 w ≠ 0 := by simpa using hport
        exact .some hne hd (by omega) hle
    · intro h
      cases h with
      | some hne hd hlo hhi =>
        have hv := (originPort_iff (v := decimal 0 w) (Nat.zero_le _)).mpr ⟨hd, rfl, hhi⟩
        have hzero : decimal 0 w ≠ 0 := by omega
        simp [hv, hne, hzero]

/-! ## IPv4 -/

theorem ipv4Digits_sound {s rest : Bytes} {v digits v' digits' : Nat}
    (h : ipv4Digits s v digits = some (v', digits', rest)) :
    ∃ w, s = w ++ rest ∧ (∀ c ∈ w, originDigit c = true) ∧ Clear originDigit rest ∧
      digits' = digits + w.length ∧ v' = decimal v w ∧ (w ≠ [] → digits' ≤ 3 ∧ v' ≤ 255) := by
  induction s generalizing v digits with
  | nil =>
    obtain ⟨rfl, rfl, rfl⟩ : v = v' ∧ digits = digits' ∧ [] = rest := by
      simpa [ipv4Digits] using h
    exact ⟨[], rfl, nofun, nofun, rfl, rfl, fun hne => absurd rfl hne⟩
  | cons c s ih =>
    rw [ipv4Digits] at h
    by_cases hc : originDigit c = true
    · rw [if_pos hc] at h
      dsimp only at h
      split at h
      · cases h
      · next hbound =>
        obtain ⟨w, rfl, hw, hclear, rfl, rfl, hle⟩ := ih h
        refine ⟨c :: w, rfl, ?_, hclear, by rw [List.length_cons]; omega, rfl, fun _ => ?_⟩
        · intro b hb
          cases hb with
          | head => exact hc
          | tail _ hb => exact hw b hb
        · by_cases hempty : w = []
          · subst hempty
            simp only [decimal, List.foldl_nil, List.length_nil]
            omega
          · exact hle hempty
    · rw [if_neg hc] at h
      obtain ⟨rfl, rfl, rfl⟩ : v = v' ∧ digits = digits' ∧ c :: s = rest := by
        simpa using h
      refine ⟨[], rfl, nofun, fun b hb => ?_, rfl, rfl, fun hne => absurd rfl hne⟩
      obtain rfl : c = b := Option.some.inj hb
      simpa using hc

theorem ipv4Digits_word {w rest : Bytes} {v digits : Nat} (hw : ∀ c ∈ w, originDigit c = true)
    (hclear : Clear originDigit rest) (hlen : digits + w.length ≤ 3) (hval : decimal v w ≤ 255) :
    ipv4Digits (w ++ rest) v digits = some (decimal v w, digits + w.length, rest) := by
  induction w generalizing v digits with
  | nil =>
    cases rest with
    | nil => rfl
    | cons c rest =>
      have hc : originDigit c = false := hclear c rfl
      rw [List.nil_append, ipv4Digits, if_neg (by simp [hc])]
      rfl
  | cons c w ih =>
    have hge := le_decimal (v * 10 + (c.toNat - 48)) w
    rw [decimal_cons] at hval
    rw [List.length_cons] at hlen
    rw [List.cons_append, ipv4Digits, if_pos (hw c (List.mem_cons_self ..))]
    dsimp only
    rw [if_neg (by omega), ih (fun b hb => hw b (List.mem_cons_of_mem _ hb)) (by omega) hval,
      List.length_cons, decimal_cons, Nat.add_assoc, Nat.add_comm 1]

theorem head?_append_of_pos {w rest : Bytes} (h : 0 < w.length) : (w ++ rest).head? = w.head? := by
  cases w with
  | nil => cases h
  | cons c w => rfl

/-- The checks behind the digit loop leave an octet. -/
theorem decOctet_of_digits {s rest : Bytes} {v digits : Nat}
    (h : ipv4Digits s 0 0 = some (v, digits, rest))
    (hok : ¬ (digits = 0 ∨ (digits > 1 ∧ s.head? = some 48))) :
    ∃ w, s = w ++ rest ∧ DecOctet w := by
  obtain ⟨w, rfl, hw, -, rfl, rfl, hle⟩ := ipv4Digits_sound h
  rw [not_or, Nat.zero_add] at hok
  have hpos : 0 < w.length := Nat.pos_of_ne_zero hok.1
  have hne : w ≠ [] := List.ne_nil_of_length_pos hpos
  have hbound := hle hne
  refine ⟨w, rfl, hw, hpos, by omega, fun hlt hzero => hok.2 ⟨hlt, ?_⟩, hbound.2⟩
  rw [head?_append_of_pos hpos, hzero]

theorem clear_dot (rest : Bytes) : Clear originDigit (46 :: rest) := by
  intro c hc
  obtain rfl : 46 = c := Option.some.inj hc
  rfl

theorem ipv4Digits_octet {w rest : Bytes} (hw : DecOctet w) (hclear : Clear originDigit rest) :
    ipv4Digits (w ++ rest) 0 0 = some (decimal 0 w, w.length, rest) ∧
      ¬ (w.length = 0 ∨ (w.length > 1 ∧ (w ++ rest).head? = some 48)) := by
  constructor
  · rw [ipv4Digits_word hw.digits hclear (by rw [Nat.zero_add]; exact hw.le) hw.range, Nat.zero_add]
  · rw [head?_append_of_pos hw.pos]
    rintro (hzero | ⟨hlt, hhead⟩)
    · exact absurd hzero (Nat.ne_of_gt hw.pos)
    · exact hw.noZero hlt hhead

theorem originIpv4Parts_iff {n : Nat} {s : Bytes} :
    originIpv4Parts (n + 1) s = true ↔ Octets n s := by
  constructor
  · intro h
    induction n generalizing s with
    | zero =>
      rw [originIpv4Parts] at h
      split at h
      · cases h
      · next v digits rest hd =>
        split at h
        · cases h
        · next hok =>
          obtain ⟨w, rfl, hw⟩ := decOctet_of_digits hd hok
          rw [if_pos rfl, List.isEmpty_iff] at h
          subst h
          rw [List.append_nil]
          exact .one hw
    | succ n ih =>
      rw [originIpv4Parts] at h
      split at h
      · cases h
      · next v digits rest hd =>
        split at h
        · cases h
        · next hok =>
          obtain ⟨w, rfl, hw⟩ := decOctet_of_digits hd hok
          rw [if_neg (Nat.succ_ne_zero n)] at h
          cases rest with
          | nil => cases h
          | cons c rest =>
            dsimp only at h
            split at h
            · next hc =>
              subst hc
              exact .cons hw (ih h)
            · cases h
  · intro h
    induction h with
    | one h =>
      rename_i w
      have ⟨hd, hok⟩ := ipv4Digits_octet h (show Clear originDigit [] from nofun)
      rw [List.append_nil] at hd hok
      rw [originIpv4Parts, hd]
      dsimp only
      rw [if_neg hok]
      rfl
    | cons h hv ih =>
      rename_i n w v
      have ⟨hd, hok⟩ := ipv4Digits_octet h (clear_dot v)
      rw [originIpv4Parts, hd]
      dsimp only
      rw [if_neg hok, if_neg (Nat.succ_ne_zero n), if_pos rfl, ih]

theorem originIpv4_iff {s : Bytes} : originIpv4 s = true ↔ Ipv4address s := originIpv4Parts_iff

theorem Octets.bytes {n : Nat} {w : Bytes} (h : Octets n w) :
    ∀ c ∈ w, originDigit c = true ∨ c = 46 := by
  induction h with
  | one h => exact fun c hc => .inl (h.digits c hc)
  | cons h hv ih =>
    intro c hc
    rcases List.mem_append.mp hc with hc | hc
    · exact .inl (h.digits c hc)
    · cases hc with
      | head => exact .inr rfl
      | tail _ hc => exact ih c hc

/-! ## IPv6 -/

/-- A word without a colon. -/
def NoColon (w : Bytes) : Prop := ∀ c ∈ w, decide (c ≠ 58) = true

theorem H16.noColon {w : Bytes} (h : H16 w) : NoColon w := by
  intro c hc
  have hhex := hex_iff.mp (h.hex c hc)
  have hne : c ≠ 58 := by rintro rfl; exact absurd hhex (by decide)
  exact decide_eq_true hne

theorem H16.noDot {w : Bytes} (h : H16 w) : w.contains 46 = false := by
  rw [List.contains_eq_mem, decide_eq_false_iff_not]
  intro hmem
  exact absurd (h.hex 46 hmem) (by decide)

theorem Octets.noColon {n : Nat} {w : Bytes} (h : Octets n w) : NoColon w := by
  intro c hc
  have hne : c ≠ 58 := by
    rintro rfl
    exact absurd (h.bytes 58 hc) (by decide)
  exact decide_eq_true hne

theorem Ipv4address.dot {w : Bytes} (h : Ipv4address w) : w.contains 46 = true := by
  cases h with
  | cons h hv => simp

theorem clear_colon (rest : Bytes) : Clear (fun c : UInt8 => decide (c ≠ 58)) (58 :: rest) := by
  intro c hc
  obtain rfl : 58 = c := Option.some.inj hc
  rfl

/-- What the group loop makes of what follows its next group. -/
def afterGroup (fuel groups : Nat) (compressed : Bool) : Bytes → Bool
  | [] => if compressed then groups + 1 < 8 else groups + 1 == 8
  | _ :: [] => false
  | _ :: c :: rest =>
    if c = 58 then
      !compressed && (if rest.isEmpty then groups + 1 < 8 else ipv6Groups fuel rest (groups + 1) true)
    else ipv6Groups fuel (c :: rest) (groups + 1) compressed

/-- One round of the group loop. -/
theorem ipv6Groups_round (fuel groups : Nat) (compressed : Bool) {g rest : Bytes}
    (hg : NoColon g) (hrest : Clear (fun c : UInt8 => decide (c ≠ 58)) rest)
    (hne : g ++ rest ≠ []) :
    ipv6Groups (fuel + 1) (g ++ rest) groups compressed =
      if g.contains 46 then
        rest.isEmpty && originIpv4 g && groups ≤ 6
          && (if compressed then groups + 2 < 8 else groups + 2 == 8)
      else if g.isEmpty ∨ g.length > 4 ∨ !g.all originHex ∨ groups + 1 > 8 then false
      else afterGroup fuel groups compressed rest := by
  have htake : (g ++ rest).takeWhile (fun c : UInt8 => decide (c ≠ 58)) = g :=
    takeWhile_word hg hrest
  have hdrop : (g ++ rest).dropWhile (fun c : UInt8 => decide (c ≠ 58)) = rest :=
    dropWhile_word hg hrest
  obtain ⟨b, bs, hbs⟩ := List.exists_cons_of_ne_nil hne
  rw [hbs] at htake hdrop ⊢
  conv_lhs => unfold ipv6Groups
  dsimp only
  rw [htake, hdrop]
  rfl

theorem ipv6Groups_h16 {fuel groups : Nat} {compressed : Bool} {g rest : Bytes} (hg : H16 g)
    (hrest : Clear (fun c : UInt8 => decide (c ≠ 58)) rest) (hgroups : groups < 8) :
    ipv6Groups (fuel + 1) (g ++ rest) groups compressed =
      afterGroup fuel groups compressed rest := by
  have hne : g ≠ [] := List.ne_nil_of_length_pos hg.pos
  have hall : g.all originHex = true := List.all_eq_true.mpr hg.hex
  have hle := hg.le
  rw [ipv6Groups_round fuel groups compressed hg.noColon hrest (by simp [hne]), hg.noDot, if_neg (by decide), if_neg]
  simp only [List.isEmpty_iff, hne, hall, Bool.not_true, Bool.false_eq_true, false_or]
  omega

/-- What the group loop accepts behind `groups` groups. -/
inductive Tail (groups : Nat) : Bool → Bytes → Prop where
  | full {m : Nat} {s : Bytes} (h : TailGroups m s) (hn : groups + m = 8) : Tail groups false s
  | after {m : Nat} {s : Bytes} (h : TailGroups m s) (hn : groups + m < 8) : Tail groups true s
  | compressed {n m : Nat} {w v : Bytes} (hw : Groups n w) (hv : (m = 0 ∧ v = []) ∨ TailGroups m v)
      (hn : groups + n + m < 8) : Tail groups false (w ++ 58 :: 58 :: v)

theorem H16.head {w : Bytes} (h : H16 w) (rest : Bytes) :
    ∃ c v, w ++ rest = c :: v ∧ c ≠ 58 := by
  cases w with
  | nil => exact absurd h.pos (by decide)
  | cons c w => exact ⟨c, w ++ rest, rfl, of_decide_eq_true (h.noColon c (List.mem_cons_self ..))⟩

theorem TailGroups.head {n : Nat} {w : Bytes} (h : TailGroups n w) (rest : Bytes) :
    ∃ c v, w ++ rest = c :: v ∧ c ≠ 58 := by
  cases h with
  | one h => exact h.head rest
  | ipv4 h =>
    cases w with
    | nil => exact absurd h.dot (by decide)
    | cons c w =>
      exact ⟨c, w ++ rest, rfl, of_decide_eq_true (Octets.noColon h c (List.mem_cons_self ..))⟩
  | cons h hv =>
    rw [List.append_assoc]
    exact h.head _

theorem Groups.head {n : Nat} {w : Bytes} (h : Groups n w) (rest : Bytes) :
    ∃ c v, w ++ rest = c :: v ∧ c ≠ 58 := by
  cases h with
  | one h => exact h.head rest
  | cons h hv =>
    rw [List.append_assoc]
    exact h.head _

theorem afterGroup_colon {fuel groups : Nat} {compressed : Bool} {v : Bytes}
    (hv : ∃ c w, v = c :: w ∧ c ≠ 58) :
    afterGroup fuel groups compressed (58 :: v) = ipv6Groups fuel v (groups + 1) compressed := by
  obtain ⟨c, w, rfl, hc⟩ := hv
  rw [afterGroup, if_neg hc]

/-- A tail whose groups are `m` passes the final count. -/
def Counted (groups m : Nat) : Bool → Prop
  | true => groups + m < 8
  | false => groups + m = 8

theorem ipv6Groups_tailGroups {fuel groups m : Nat} {compressed : Bool} {s : Bytes}
    (h : TailGroups m s) (hn : Counted groups m compressed) (hfuel : s.length ≤ fuel) :
    ipv6Groups fuel s groups compressed = true := by
  induction h generalizing fuel groups with
  | one h =>
    rename_i w
    have hpos := h.pos
    obtain ⟨fuel, rfl⟩ : ∃ k, fuel = k + 1 := ⟨fuel - 1, by omega⟩
    have hround : ipv6Groups (fuel + 1) (w ++ []) groups compressed =
        afterGroup fuel groups compressed [] :=
      ipv6Groups_h16 h nofun (by cases compressed <;> simp only [Counted] at hn <;> omega)
    rw [List.append_nil] at hround
    rw [hround, afterGroup]
    cases compressed with
    | true => exact decide_eq_true hn
    | false => exact beq_iff_eq.mpr hn
  | ipv4 h =>
    rename_i w
    have hdot := h.dot
    have hne : w ≠ [] := by rintro rfl; exact absurd hdot (by decide)
    have hpos := List.length_pos_iff.mpr hne
    obtain ⟨fuel, rfl⟩ : ∃ k, fuel = k + 1 := ⟨fuel - 1, by omega⟩
    have hround := ipv6Groups_round fuel groups compressed (Octets.noColon h)
      (show Clear _ [] from nofun) (by simpa using hne)
    rw [List.append_nil, hdot, if_pos rfl, originIpv4_iff.mpr h] at hround
    rw [hround]
    cases compressed with
    | true =>
      simp only [Counted] at hn
      simp [hn]
      omega
    | false =>
      simp only [Counted] at hn
      simp [hn]
      omega
  | cons h hv ih =>
    rename_i n w v
    have hpos := h.pos
    have hhead := hv.head []
    rw [List.append_nil] at hhead
    rw [List.length_append, List.length_cons] at hfuel
    obtain ⟨fuel, rfl⟩ : ∃ k, fuel = k + 1 := ⟨fuel - 1, by omega⟩
    rw [ipv6Groups_h16 h (clear_colon v) (by cases compressed <;> simp only [Counted] at hn <;> omega),
      afterGroup_colon hhead]
    refine ih ?_ (by omega)
    cases compressed <;> simp only [Counted] at hn ⊢ <;> omega

theorem ipv6Groups_compressed {fuel groups n m : Nat} {w v : Bytes} (hw : Groups n w)
    (hv : (m = 0 ∧ v = []) ∨ TailGroups m v) (hn : groups + n + m < 8)
    (hfuel : (w ++ 58 :: 58 :: v).length ≤ fuel) :
    ipv6Groups fuel (w ++ 58 :: 58 :: v) groups false = true := by
  induction hw generalizing fuel groups with
  | one h =>
    have hpos := h.pos
    rw [List.length_append, List.length_cons, List.length_cons] at hfuel
    obtain ⟨fuel, rfl⟩ : ∃ k, fuel = k + 1 := ⟨fuel - 1, by omega⟩
    rw [ipv6Groups_h16 h (clear_colon _) (by omega), afterGroup, if_pos rfl]
    cases hv with
    | inl hv =>
      obtain ⟨rfl, rfl⟩ := hv
      simpa using hn
    | inr hv =>
      obtain ⟨c, u, hu, -⟩ := hv.head []
      rw [List.append_nil] at hu
      have htail : ipv6Groups fuel v (groups + 1) true = true :=
        ipv6Groups_tailGroups hv hn (by omega)
      simp [hu] at htail ⊢
      exact htail
  | cons h hw ih =>
    have hpos := h.pos
    rw [List.append_assoc, List.cons_append] at hfuel ⊢
    rw [List.length_append, List.length_cons] at hfuel
    obtain ⟨fuel, rfl⟩ : ∃ k, fuel = k + 1 := ⟨fuel - 1, by omega⟩
    rw [ipv6Groups_h16 h (clear_colon _) (by omega), afterGroup_colon (hw.head _)]
    exact ih (by omega) (by omega)

theorem ipv6Groups_tail {fuel groups : Nat} {compressed : Bool} {s : Bytes}
    (h : Tail groups compressed s) (hfuel : s.length ≤ fuel) :
    ipv6Groups fuel s groups compressed = true := by
  cases h with
  | full h hn => exact ipv6Groups_tailGroups h hn hfuel
  | after h hn => exact ipv6Groups_tailGroups h hn hfuel
  | compressed hw hv hn => exact ipv6Groups_compressed hw hv hn hfuel

theorem tail_ipv6Groups {fuel groups : Nat} {compressed : Bool} {s : Bytes} (hne : s ≠ [])
    (h : ipv6Groups fuel s groups compressed = true) : Tail groups compressed s := by
  induction fuel generalizing groups compressed s with
  | zero => cases h
  | succ fuel ih =>
    obtain ⟨g, hs, hg⟩ := word_dropWhile (fun c : UInt8 => decide (c ≠ 58)) s
    have hclear := clear_dropWhile (fun c : UInt8 => decide (c ≠ 58)) s
    generalize s.dropWhile (fun c : UInt8 => decide (c ≠ 58)) = rest at hs hclear
    subst hs
    rw [ipv6Groups_round fuel groups compressed hg hclear hne] at h
    split at h
    · -- An IPv4 address ends the groups.
      simp only [Bool.and_eq_true, List.isEmpty_iff, decide_eq_true_eq, originIpv4_iff] at h
      obtain ⟨⟨⟨rfl, hv4⟩, -⟩, hcount⟩ := h
      rw [List.append_nil]
      cases compressed with
      | true => exact .after (.ipv4 hv4) (by simpa using hcount)
      | false => exact .full (.ipv4 hv4) (by simpa using hcount)
    split at h
    · cases h
    · next hbad =>
      simp only [not_or, List.isEmpty_iff, Bool.not_eq_true', Bool.not_eq_false, List.all_eq_true,
        gt_iff_lt, Nat.not_lt] at hbad
      have hh16 : H16 g := ⟨hbad.2.2.1, List.length_pos_iff.mpr hbad.1, hbad.2.1⟩
      match rest with
      | [] =>
        rw [List.append_nil]
        cases compressed with
        | true => exact .after (.one hh16) (by simpa [afterGroup] using h)
        | false => exact .full (.one hh16) (by simpa [afterGroup] using h)
      | [_] => cases h
      | d :: c :: rest =>
        have hd : d = 58 := by
          have hd := hclear d rfl
          simpa using hd
        subst hd
        rw [afterGroup] at h
        split at h
        · next hc =>
          subst hc
          rw [Bool.and_eq_true] at h
          obtain ⟨hcomp, hrest⟩ := h
          obtain rfl : compressed = false := by simpa using hcomp
          split at hrest
          · next hempty =>
            rw [List.isEmpty_iff] at hempty
            subst hempty
            exact .compressed (.one hh16) (.inl ⟨rfl, rfl⟩) (by simpa using hrest)
          · next hempty =>
            rw [List.isEmpty_iff] at hempty
            cases ih hempty hrest with
            | after h hn => exact .compressed (.one hh16) (.inr h) hn
        · next hc =>
          have htail := ih (List.cons_ne_nil c rest) h
          generalize c :: rest = t at htail ⊢
          cases htail with
          | full h hn => exact .full (.cons hh16 h) (by omega)
          | after h hn => exact .after (.cons hh16 h) (by omega)
          | compressed hw hv hn =>
            have hall : Tail groups false _ := .compressed (.cons hh16 hw) hv (by omega)
            rwa [List.append_assoc] at hall

theorem originIpv6_colons {rest : Bytes} : originIpv6 (58 :: 58 :: rest) = true ↔
    ∃ m, ((m = 0 ∧ rest = []) ∨ TailGroups m rest) ∧ m ≤ 7 := by
  have hcode : originIpv6 (58 :: 58 :: rest) =
      (rest.isEmpty || ipv6Groups (rest.length + 1) rest 0 true) := by
    rw [originIpv6, if_pos rfl]
    rfl
  rw [hcode, Bool.or_eq_true, List.isEmpty_iff]
  constructor
  · rintro (rfl | h)
    · exact ⟨0, .inl ⟨rfl, rfl⟩, by decide⟩
    · by_cases hne : rest = []
      · exact ⟨0, .inl ⟨rfl, hne⟩, by decide⟩
      · cases tail_ipv6Groups hne h with
        | after h hn => exact ⟨_, .inr h, by omega⟩
  · rintro ⟨m, ⟨rfl, rfl⟩ | h, hm⟩
    · exact .inl rfl
    · exact .inr (ipv6Groups_tail (.after h (by omega)) (by omega))

theorem originIpv6_groups {s : Bytes} (hs : ∃ c v, s = c :: v ∧ c ≠ 58) :
    originIpv6 s = true ↔ Tail 0 false s := by
  obtain ⟨c, v, rfl, hc⟩ := hs
  have hcode : originIpv6 (c :: v) = ipv6Groups (v.length + 1) (c :: v) 0 false ∨
      originIpv6 (c :: v) = ipv6Groups (v.length + 2) (c :: v) 0 false := by
    cases v with
    | nil =>
      left
      simp [originIpv6, hc]
    | cons d v =>
      right
      simp [originIpv6, hc]
  constructor
  · intro h
    cases hcode with
    | inl hcode => exact tail_ipv6Groups (List.cons_ne_nil c v) (hcode ▸ h)
    | inr hcode => exact tail_ipv6Groups (List.cons_ne_nil c v) (hcode ▸ h)
  · intro h
    cases hcode with
    | inl hcode => rw [hcode, ipv6Groups_tail h (by simp)]
    | inr hcode => rw [hcode, ipv6Groups_tail h (by simp)]

theorem Tail.address {s : Bytes} (h : Tail 0 false s) : Ipv6address s := by
  cases h with
  | full h hn =>
    rw [Nat.zero_add] at hn
    exact .full (hn ▸ h)
  | compressed hw hv hn => exact .compressed (.inr hw) hv (by omega)

theorem originIpv6_iff {s : Bytes} : originIpv6 s = true ↔ Ipv6address s := by
  constructor
  · intro h
    match s with
    | [] => cases h
    | [c] =>
      by_cases hc : c = 58
      · subst hc
        cases h
      · exact ((originIpv6_groups ⟨c, [], rfl, hc⟩).mp h).address
    | c :: d :: rest =>
      by_cases hc : c = 58
      · subst hc
        have hd : d = 58 := by
          rw [originIpv6, if_pos rfl, Bool.and_eq_true] at h
          simpa using h.1
        subst hd
        obtain ⟨m, hm, hle⟩ := originIpv6_colons.mp h
        exact .compressed (w := []) (.inl ⟨rfl, rfl⟩) hm (by omega)
      · exact ((originIpv6_groups ⟨c, d :: rest, rfl, hc⟩).mp h).address
  · intro h
    cases h with
    | full h =>
      have hhead := h.head []
      rw [List.append_nil] at hhead
      exact (originIpv6_groups hhead).mpr (.full h rfl)
    | compressed hw hv hn =>
      cases hw with
      | inl hw =>
        obtain ⟨rfl, rfl⟩ := hw
        exact originIpv6_colons.mpr ⟨_, hv, by omega⟩
      | inr hw => exact (originIpv6_groups (hw.head _)).mpr (.compressed hw hv (by omega))

/-! ## Literals and tuples -/

/-- What may stand in an IPv6 address. -/
def AddressByte (c : UInt8) : Prop := originHex c = true ∨ c.toNat = 46 ∨ c.toNat = 58

theorem H16.bytes {w : Bytes} (h : H16 w) : ∀ c ∈ w, AddressByte c :=
  fun c hc => .inl (h.hex c hc)

theorem bytes_join {w v : Bytes} (hw : ∀ c ∈ w, AddressByte c) (hv : ∀ c ∈ v, AddressByte c) :
    ∀ c ∈ w ++ 58 :: v, AddressByte c := by
  intro c hc
  rcases List.mem_append.mp hc with hc | hc
  · exact hw c hc
  · cases hc with
    | head => exact .inr (.inr rfl)
    | tail _ hc => exact hv c hc

theorem Groups.bytes {n : Nat} {w : Bytes} (h : Groups n w) : ∀ c ∈ w, AddressByte c := by
  induction h with
  | one h => exact h.bytes
  | cons h hv ih => exact bytes_join h.bytes ih

theorem TailGroups.bytes {n : Nat} {w : Bytes} (h : TailGroups n w) : ∀ c ∈ w, AddressByte c := by
  induction h with
  | one h => exact h.bytes
  | ipv4 h =>
    intro c hc
    rcases Octets.bytes h c hc with hd | rfl
    · rw [digit_iff] at hd
      exact .inl (hex_iff.mpr (.inl hd))
    · exact .inr (.inl rfl)
  | cons h hv ih => exact bytes_join h.bytes ih

theorem Ipv6address.bytes {w : Bytes} (h : Ipv6address w) : ∀ c ∈ w, AddressByte c := by
  cases h with
  | full h => exact h.bytes
  | compressed hw hv =>
    have hleft : ∀ c ∈ _, AddressByte c := hw.elim (fun h => by simp [h.2]) (·.bytes)
    have hright : ∀ c ∈ _, AddressByte c := hv.elim (fun h => by simp [h.2]) (·.bytes)
    exact bytes_join hleft (bytes_join (w := []) nofun hright)

theorem Ipv6address.ne_nil {w : Bytes} (h : Ipv6address w) : w ≠ [] := by
  cases h with
  | full h =>
    obtain ⟨c, v, hs, -⟩ := h.head []
    rw [List.append_nil] at hs
    simp [hs]
  | compressed => simp

/-- The two kinds of literals start differently. -/
theorem addressByte_ne {c : UInt8} (h : AddressByte c) : ¬ (c = 118 ∨ c = 86) := by
  rw [AddressByte, hex_iff] at h
  rintro (rfl | rfl)
  · exact absurd h (by decide)
  · exact absurd h (by decide)

theorem futureTail_iff {w : Bytes} :
    (w.all fun c => originUnreserved c || originSubdelim c || c == 58) = true ↔
      ∀ b ∈ w, originUnreserved b ∨ originSubdelim b ∨ b = 58 := by
  simp [List.all_eq_true, or_assoc]

theorem originIpLiteral_iff {s : Bytes} :
    originIpLiteral s = true ↔ Ipv6address s ∨ IpvFuture s := by
  cases s with
  | nil =>
    refine ⟨fun h => absurd h (by decide), ?_⟩
    rintro (h | h)
    · exact absurd rfl h.ne_nil
    · cases h
  | cons c rest =>
    rw [originIpLiteral]
    constructor
    · intro h
      split at h
      · next hv =>
        right
        dsimp only at h
        obtain ⟨v, hs, hhex⟩ := word_dropWhile originHex rest
        have hclear := clear_dropWhile originHex rest
        have htake : rest.takeWhile originHex = v := by
          conv_lhs => rw [hs]
          exact takeWhile_word hhex hclear
        rw [htake] at h
        generalize rest.dropWhile originHex = tail at h hs
        subst hs
        cases tail with
        | nil => cases h
        | cons dot w =>
          simp only [Bool.and_eq_true, Bool.not_eq_true', List.isEmpty_eq_false_iff, beq_iff_eq,
            futureTail_iff] at h
          obtain ⟨⟨⟨hv', rfl⟩, hw⟩, hbytes⟩ := h
          exact .mk hv.2 hv' hhex hw hbytes
      · exact .inl (originIpv6_iff.mp h)
    · rintro (h | h)
      · have hne := addressByte_ne (h.bytes c (List.mem_cons_self ..))
        rw [if_neg fun hv => hne hv.2]
        exact originIpv6_iff.mpr h
      · cases h with
        | mk hc hv hhex hw hbytes =>
          rename_i v w
          have hlen : (c :: (v ++ 46 :: w)).length ≥ 4 := by
            have hvpos := List.length_pos_iff.mpr hv
            have hwpos := List.length_pos_iff.mpr hw
            simp only [List.length_cons, List.length_append]
            omega
          have hclear : Clear originHex (46 :: w) := by
            intro b hb
            obtain rfl : 46 = b := Option.some.inj hb
            rfl
          rw [if_pos ⟨hlen, hc⟩]
          dsimp only
          rw [takeWhile_word hhex hclear, dropWhile_word hhex hclear]
          have htail := futureTail_iff.mpr hbytes
          simp only [htail]
          simp [hv, hw]

/-- A byte that neither ends a host nor hides in one. -/
def HostByte (c : UInt8) : Prop :=
  33 ≤ c.toNat ∧ c.toNat ≤ 126 ∧ c.toNat ≠ 35 ∧ c.toNat ≠ 47 ∧ c.toNat ≠ 63 ∧ c.toNat ≠ 64 ∧
    c.toNat ≠ 91 ∧ c.toNat ≠ 93

instance : DecidablePred HostByte := fun _ => inferInstanceAs (Decidable (_ ∧ _))

theorem hostByte_hex {c : UInt8} (h : originHex c = true) : HostByte c := by
  rw [hex_iff] at h
  unfold HostByte
  omega

theorem hostByte_regChar {c : UInt8} (h : originUnreserved c = true ∨ originSubdelim c = true) :
    HostByte c := by
  have hne := regChar_ne h
  unfold HostByte
  omega

theorem RegName.bytes {w : Bytes} (h : RegName w) : ∀ c ∈ w, HostByte c := by
  induction h with
  | nil => nofun
  | char hc h ih => simpa using ⟨hostByte_regChar hc, ih⟩
  | pct ha hb h ih => simpa using ⟨by decide, hostByte_hex ha, hostByte_hex hb, ih⟩

theorem Ipv6address.hostBytes {w : Bytes} (h : Ipv6address w) : ∀ c ∈ w, HostByte c := by
  intro c hc
  have hb := h.bytes c hc
  rw [AddressByte, hex_iff] at hb
  unfold HostByte
  omega

theorem IpvFuture.hostBytes {w : Bytes} (h : IpvFuture w) : ∀ c ∈ w, HostByte c := by
  cases h with
  | mk hc hv hhex hw hbytes =>
    intro b hb
    rcases List.mem_cons.mp hb with rfl | hb
    · rcases hc with rfl | rfl <;> decide
    rcases List.mem_append.mp hb with hb | hb
    · exact hostByte_hex (hhex b hb)
    rcases List.mem_cons.mp hb with rfl | hb
    · decide
    · rcases hbytes b hb with h | h | rfl
      · exact hostByte_regChar (.inl h)
      · exact hostByte_regChar (.inr h)
      · decide

/-- The host and the port of a tuple, as the engine checks them. -/
def hostValid : Bytes → Bool
  | [] => false
  | 91 :: lit =>
    match lit.dropWhile (· ≠ 93) with
    | [] => false
    | _ :: tail => originIpLiteral (lit.takeWhile (· ≠ 93)) && originAfterHost tail
  | host =>
    match originHost (host.length + 1) host false with
    | none => false
    | some (any, tail) => any && originAfterHost tail

theorem hostValid_literal {a tail : Bytes} (ha : ∀ c ∈ a, HostByte c) :
    hostValid (91 :: (a ++ 93 :: tail)) = (originIpLiteral a && originAfterHost tail) := by
  have hword : ∀ c ∈ a, decide (c ≠ 93) = true := by
    intro c hc
    have hb := ha c hc
    refine decide_eq_true ?_
    rintro rfl
    exact absurd hb (by decide)
  have hclear : Clear (fun c : UInt8 => decide (c ≠ 93)) (93 :: tail) := by
    intro c hc
    obtain rfl : 93 = c := Option.some.inj hc
    rfl
  rw [hostValid, dropWhile_word hword hclear, takeWhile_word hword hclear]

theorem hostValid_name {c : UInt8} {rest : Bytes} (hc : c ≠ 91) :
    hostValid (c :: rest) =
      match originHost (rest.length + 1 + 1) (c :: rest) false with
      | none => false
      | some (any, tail) => any && originAfterHost tail := by
  rw [hostValid]
  · rfl
  · simp
  · intro lit hlit
    exact hc (List.cons.inj hlit).1

theorem hostValid_iff {s : Bytes} :
    hostValid s = true ↔ ∃ h p, s = h ++ p ∧ Host h ∧ Port p := by
  constructor
  · intro h
    cases s with
    | nil => cases h
    | cons c rest =>
      by_cases hc : c = 91
      · subst hc
        obtain ⟨a, hs, ha⟩ := word_dropWhile (fun c : UInt8 => decide (c ≠ 93)) rest
        have hclear := clear_dropWhile (fun c : UInt8 => decide (c ≠ 93)) rest
        have htake : rest.takeWhile (fun c : UInt8 => decide (c ≠ 93)) = a := by
          conv_lhs => rw [hs]
          exact takeWhile_word ha hclear
        rw [hostValid] at h
        rw [htake] at h
        generalize rest.dropWhile (fun c : UInt8 => decide (c ≠ 93)) = tail at h hs hclear
        subst hs
        cases tail with
        | nil => cases h
        | cons d tail =>
          have hd : d = 93 := by
            have hd := hclear d rfl
            simpa using hd
          subst hd
          rw [Bool.and_eq_true, originIpLiteral_iff, originAfterHost_iff] at h
          refine ⟨91 :: (a ++ [93]), tail, by simp, ?_, h.2⟩
          exact h.1.elim .ipv6 .future
      · rw [hostValid_name hc] at h
        cases hh : originHost (rest.length + 1 + 1) (c :: rest) false with
        | none =>
          rw [hh] at h
          cases h
        | some r =>
          obtain ⟨any, tail⟩ := r
          rw [hh] at h
          obtain ⟨w, hs, hw, -, rfl⟩ := originHost_sound hh
          rw [Bool.and_eq_true, originAfterHost_iff] at h
          exact ⟨w, tail, hs, .regName hw (by simpa using h.1), h.2⟩
  · rintro ⟨h, p, rfl, hh, hp⟩
    cases hh with
    | regName hw hne =>
      cases h with
      | nil => exact absurd rfl hne
      | cons c w =>
        have hc : c ≠ 91 := by
          rintro rfl
          exact absurd (hw.bytes 91 (List.mem_cons_self ..)) (by decide)
        have hhead : ∀ b ∈ p.head?, b = 58 := by
          intro b hb
          cases hp with
          | none => cases hb
          | some => exact (Option.some.inj hb).symm
        rw [List.cons_append, hostValid_name hc, ← List.cons_append,
          originHost_word hw hhead (by rw [List.length_append, List.length_cons]; omega)]
        simpa using originAfterHost_iff.mpr hp
    | ipv6 h =>
      rw [List.cons_append, List.append_assoc, List.cons_append, List.nil_append,
        hostValid_literal h.hostBytes, originIpLiteral_iff.mpr (.inl h), originAfterHost_iff.mpr hp]
      rfl
    | future h =>
      rw [List.cons_append, List.append_assoc, List.cons_append, List.nil_append,
        hostValid_literal h.hostBytes, originIpLiteral_iff.mpr (.inr h), originAfterHost_iff.mpr hp]
      rfl

theorem originTupleValid_of_scheme {c : UInt8} {rest host : Bytes}
    (h : rest.dropWhile originSchemeRest = 58 :: 47 :: 47 :: host) :
    originTupleValid (c :: rest) = (originAlpha c && hostValid host) := by
  rw [originTupleValid, h]
  cases host with
  | nil => rfl
  | cons d host =>
    by_cases hd : d = 91
    · subst hd
      rfl
    · rw [hostValid_name hd]
      congr 1
      split
      · next heq =>
        cases heq
        split
        · next hnil => cases hnil
        · next lit hlit => exact absurd (List.cons.inj hlit).1 hd
        · rfl
      · next hno => exact absurd rfl (hno _)

theorem scheme_of_originTupleValid {c : UInt8} {rest : Bytes}
    (h : originTupleValid (c :: rest) = true) :
    ∃ host, rest.dropWhile originSchemeRest = 58 :: 47 :: 47 :: host := by
  rw [originTupleValid, Bool.and_eq_true] at h
  have hmatch := h.2
  split at hmatch
  · next host heq => exact ⟨host, heq⟩
  · cases hmatch

theorem originTupleValid_iff {o : Bytes} : originTupleValid o = true ↔ Tuple o := by
  constructor
  · intro h
    cases o with
    | nil => cases h
    | cons c rest =>
      obtain ⟨host, hdrop⟩ := scheme_of_originTupleValid h
      obtain ⟨w, hrest, hw⟩ := word_dropWhile originSchemeRest rest
      rw [originTupleValid_of_scheme hdrop, Bool.and_eq_true, hostValid_iff] at h
      obtain ⟨hc, hst, p, rfl, hh, hp⟩ := h
      rw [hdrop] at hrest
      rw [hrest]
      exact .mk (.mk hc hw) hh hp
  · intro h
    cases h with
    | mk hs hh hp =>
      cases hs with
      | mk hc hw =>
        have hclear : ∀ rest, Clear originSchemeRest (58 :: rest) := by
          intro rest b hb
          obtain rfl : 58 = b := Option.some.inj hb
          rfl
        rw [List.cons_append, originTupleValid_of_scheme (dropWhile_word hw (hclear _)), hc,
          hostValid_iff.mpr ⟨_, _, rfl, hh, hp⟩]
        rfl

/-! ## Lists of origins -/

theorem splitSpaces_eq (o : Bytes) : splitSpaces o = o.splitOn 32 := by
  induction o with
  | nil => simp [splitSpaces]
  | cons c o ih =>
    rw [splitSpaces, List.splitOn_cons_eq_if_modifyHead, ih]
    have hne := List.splitOn_ne_nil 32 o
    by_cases hc : c = 32
    · simp [hc]
    · rw [if_neg hc, if_neg (by simpa using hc)]
      cases hsplit : o.splitOn 32 with
      | nil => exact absurd hsplit hne
      | cons m ms => rfl

theorem Scheme.bytes {w : Bytes} (h : Scheme w) : ∀ c ∈ w, HostByte c := by
  cases h with
  | mk hc hw =>
    intro b hb
    cases hb with
    | head =>
      rw [alpha_iff] at hc
      unfold HostByte
      omega
    | tail _ hb =>
      have hrest := hw b hb
      simp only [originSchemeRest, Bool.or_eq_true, alpha_iff, digit_iff, beq_iff_eq,
        ← UInt8.toNat_inj] at hrest
      have h43 : (43 : UInt8).toNat = 43 := rfl
      have h45 : (45 : UInt8).toNat = 45 := rfl
      have h46 : (46 : UInt8).toNat = 46 := rfl
      unfold HostByte
      omega

/-- What stands behind the two slashes of a tuple. -/
def AuthorityByte (c : UInt8) : Prop := HostByte c ∨ c.toNat = 91 ∨ c.toNat = 93

theorem Host.bytes {w : Bytes} (h : Host w) : ∀ c ∈ w, AuthorityByte c := by
  have hliteral : ∀ {a : Bytes}, (∀ c ∈ a, HostByte c) → ∀ c ∈ 91 :: (a ++ [93]), AuthorityByte c := by
    intro a ha c hc
    rcases List.mem_cons.mp hc with rfl | hc
    · exact .inr (.inl rfl)
    rcases List.mem_append.mp hc with hc | hc
    · exact .inl (ha c hc)
    · obtain rfl := List.mem_singleton.mp hc
      exact .inr (.inr rfl)
  cases h with
  | regName h => exact fun c hc => .inl (h.bytes c hc)
  | ipv6 h => exact hliteral h.hostBytes
  | future h => exact hliteral h.hostBytes

theorem Port.bytes {w : Bytes} (h : Port w) : ∀ c ∈ w, AuthorityByte c := by
  cases h with
  | none => nofun
  | some hne hd =>
    intro c hc
    cases hc with
    | head => exact .inl (by decide)
    | tail _ hc =>
      have hdigit := hd c hc
      rw [digit_iff] at hdigit
      left
      unfold HostByte
      omega

/-- A tuple is a scheme and an authority, and nothing else. -/
theorem Tuple.authority {o : Bytes} (h : Tuple o) :
    ∃ s a, o = s ++ 58 :: 47 :: 47 :: a ∧ Scheme s ∧ ∀ c ∈ a, AuthorityByte c := by
  cases h with
  | mk hs hh hp =>
    refine ⟨_, _, rfl, hs, fun c hc => ?_⟩
    exact (List.mem_append.mp hc).elim (hh.bytes c) (hp.bytes c)

theorem Tuple.noSpace {o : Bytes} (h : Tuple o) : 32 ∉ o := by
  obtain ⟨s, a, rfl, hs, ha⟩ := h.authority
  intro hmem
  rcases List.mem_append.mp hmem with hmem | hmem
  · exact absurd (hs.bytes 32 hmem) (by decide)
  · simp only [List.mem_cons] at hmem
    rcases hmem with h | h | h | hmem
    · exact absurd h (by decide)
    · exact absurd h (by decide)
    · exact absurd h (by decide)
    · rcases ha 32 hmem with h | h | h
      · exact absurd h (by decide)
      · exact absurd h (by decide)
      · exact absurd h (by decide)

theorem Tuple.ne_null {o : Bytes} (h : Tuple o) : o ≠ ascii "null" := by
  obtain ⟨s, a, rfl, -, -⟩ := h.authority
  intro hnull
  have hmem : (58 : UInt8) ∈ ascii "null" := by
    rw [← hnull]
    simp
  exact absurd hmem (by decide)

theorem Tuple.ne_nil {o : Bytes} (h : Tuple o) : o ≠ [] := by
  obtain ⟨s, a, rfl, -, -⟩ := h.authority
  simp

/-- The tuples of a list separated by single spaces. -/
def TupleList (o : Bytes) (os : List Bytes) : Prop :=
  (∀ m ∈ os, Tuple m) ∧ o = [32].intercalate os

theorem splitSpaces_of_list {o : Bytes} {os : List Bytes} (h : TupleList o os) (hne : os ≠ []) :
    splitSpaces o = os := by
  obtain ⟨htuple, rfl⟩ := h
  rw [splitSpaces_eq, List.splitOn_intercalate 32 (fun m hm => (htuple m hm).noSpace) hne]

theorem list_of_splitSpaces {o : Bytes} (h : (splitSpaces o).all originTupleValid = true) :
    TupleList o (splitSpaces o) := by
  refine ⟨fun m hm => originTupleValid_iff.mp (List.all_eq_true.mp h m hm), ?_⟩
  rw [splitSpaces_eq, List.intercalate_splitOn]

theorem splitSpaces_ne_nil (o : Bytes) : splitSpaces o ≠ [] := by
  rw [splitSpaces_eq]
  exact List.splitOn_ne_nil 32 o

theorem originParse_list {o : Bytes} {os : List Bytes} (hlen : o.length ≤ originMaxBytes)
    (h : TupleList o os) (hne : os ≠ []) :
    originParse o = if os.length = 1 then .tuple else .multi := by
  have hsplit := splitSpaces_of_list h hne
  have hall : (splitSpaces o).all originTupleValid = true := by
    rw [hsplit]
    exact List.all_eq_true.mpr fun m hm => originTupleValid_iff.mpr (h.1 m hm)
  have hempty : o ≠ [] := by
    rintro rfl
    have hm : ([] : Bytes) ∈ os := by
      rw [← hsplit]
      simp [splitSpaces]
    exact (h.1 [] hm).ne_nil rfl
  have hnull : o ≠ ascii "null" := by
    intro hnull
    have hm : ascii "null" ∈ os := by
      rw [← hsplit, hnull]
      decide
    exact (h.1 _ hm).ne_null rfl
  rw [originParse, if_neg, if_neg hnull]
  · dsimp only
    rw [hall, hsplit]
    rfl
  · rw [List.isEmpty_iff, not_or]
    exact ⟨hempty, Nat.not_lt.mpr hlen⟩

theorem list_of_originParse {o : Bytes} (h : originParse o = .tuple ∨ originParse o = .multi) :
    TupleList o (splitSpaces o) := by
  apply list_of_splitSpaces
  cases hall : (splitSpaces o).all originTupleValid with
  | true => rfl
  | false =>
    rw [originParse] at h
    split at h
    · simp at h
    split at h
    · simp at h
    · dsimp only at h
      rw [hall] at h
      simp at h

theorem originParse_null {o : Bytes} (h : originParse o = .null) : o = ascii "null" := by
  rw [originParse] at h
  split at h
  · cases h
  split at h
  · assumption
  · dsimp only at h
    split at h
    · cases h
    · split at h <;> cases h

theorem originParse_tuple_iff {o : Bytes} (hlen : o.length ≤ originMaxBytes) :
    originParse o = .tuple ↔ Tuple o := by
  constructor
  · intro h
    have hlist := list_of_originParse (.inl h)
    rw [originParse_list hlen hlist (splitSpaces_ne_nil o)] at h
    split at h
    · next hone =>
      obtain ⟨m, hm⟩ := List.length_eq_one_iff.mp hone
      rw [hm] at hlist
      obtain ⟨htuple, rfl⟩ := hlist
      rw [List.intercalate_singleton]
      exact htuple m (List.mem_singleton_self m)
    · cases h
  · intro h
    have hlist : TupleList o [o] := ⟨by simpa using h, by rw [List.intercalate_singleton]⟩
    rw [originParse_list hlen hlist nofun]
    rfl

theorem originParse_multi_iff {o : Bytes} (hlen : o.length ≤ originMaxBytes) :
    originParse o = .multi ↔ ∃ os, 2 ≤ os.length ∧ TupleList o os := by
  constructor
  · intro h
    have hlist := list_of_originParse (.inr h)
    have hne := splitSpaces_ne_nil o
    have hpos := List.length_pos_iff.mpr hne
    rw [originParse_list hlen hlist hne] at h
    split at h
    · cases h
    · exact ⟨splitSpaces o, by omega, hlist⟩
  · rintro ⟨os, htwo, hlist⟩
    have hne : os ≠ [] := by
      rintro rfl
      cases htwo
    rw [originParse_list hlen hlist hne, if_neg (by omega)]

/-- The parser tells apart a tuple, the opaque origin, a list of at least two tuples, and
everything else. Behind the scheme of a tuple there is no userinfo, path, query, fragment, space
or control byte. -/
theorem origin_grammar (o : Bytes) :
    (o.length ≤ originMaxBytes →
      (originParse o = .tuple ↔ Tuple o) ∧
      (originParse o = .null ↔ o = ascii "null") ∧
      (originParse o = .multi ↔ ∃ os, 2 ≤ os.length ∧ TupleList o os) ∧
      (originParse o = .invalid ↔
        ¬ Tuple o ∧ o ≠ ascii "null" ∧ ¬ ∃ os, 2 ≤ os.length ∧ TupleList o os)) ∧
    (originMaxBytes < o.length → originParse o = .invalid) ∧
    (originParse o = .tuple →
      ∃ s a, o = s ++ ascii "://" ++ a ∧ Scheme s ∧ ∀ c ∈ a,
        33 ≤ c.toNat ∧ c.toNat ≤ 126 ∧ c ∉ ascii "@/?#") := by
  have hlong : originMaxBytes < o.length → originParse o = .invalid := fun hlen => by
    rw [originParse, if_pos (.inr hlen)]
  refine ⟨fun hlen => ?_, hlong, fun h => ?_⟩
  · have htuple := originParse_tuple_iff hlen
    have hmulti := originParse_multi_iff hlen
    have hnull : originParse o = .null ↔ o = ascii "null" := by
      refine ⟨originParse_null, ?_⟩
      rintro rfl
      decide
    refine ⟨htuple, hnull, hmulti, ?_⟩
    rw [← htuple, ← hmulti, Ne, ← hnull]
    cases originParse o <;> simp
  · have hlen : o.length ≤ originMaxBytes := by
      by_contra hlen
      rw [hlong (by omega)] at h
      cases h
    obtain ⟨s, a, rfl, hs, ha⟩ := ((originParse_tuple_iff hlen).mp h).authority
    refine ⟨s, a, ?_, hs, fun c hc => ?_⟩
    · rw [show ascii "://" = [58, 47, 47] by decide]
      simp
    · have hb := ha c hc
      rw [show ascii "@/?#" = [64, 47, 63, 35] by decide]
      simp only [List.mem_cons, List.not_mem_nil, or_false, ← UInt8.toNat_inj]
      unfold AuthorityByte HostByte at hb
      simp
      omega

end Wtquic.Engine.Origin
