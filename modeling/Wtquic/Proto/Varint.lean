-- SUMMARY: QUIC variable-length integers: encoder, one-shot decoder, incremental decoder.
import Mathlib.Data.List.Basic
import Wtquic.Lib.Incremental

namespace Wtquic

/-! # Variable-length integers

The model of `varint.c`. Values are naturals: an encodable value is below
`2 ^ 62`, and every shift of the decoders stays inside 64 bits, so no operation
of the source wraps here. -/

/-- A byte string, as the transport delivers it. -/
abbrev Bytes := List UInt8

/-- The bytes of an ASCII literal of the source. -/
def ascii (s : String) : Bytes := s.toList.map fun c => UInt8.ofNat c.toNat

namespace Varint

/-- `WTQ_VARINT_MAX`. -/
def max : Nat := 2 ^ 62 - 1

/-- The error half of `wtq_varint_status_t`. -/
inductive Error where
  | buffer
  | range
  deriving DecidableEq, Repr

/-- Minimal encoded length of a value, `0` when it is out of range. -/
def len (value : Nat) : Nat :=
  if value < 2 ^ 6 then 1
  else if value < 2 ^ 14 then 2
  else if value < 2 ^ 30 then 4
  else if value ≤ max then 8
  else 0

/-- Total encoded length announced by the top two bits of the first byte. -/
def lenFromFirst (b : UInt8) : Nat := 2 ^ (b.toNat / 64)

def isMinimal (value encodedLen : Nat) : Bool := len value == encodedLen

/-- The length tag stored in the top two bits of byte 0. -/
def tag (need : Nat) : Nat :=
  if need = 1 then 0 else if need = 2 then 1 else if need = 4 then 2 else 3

/-- Big-endian bytes of `value`, exactly `need` of them. -/
def bigEndian : Nat → Nat → Bytes
  | 0, _ => []
  | need + 1, value => UInt8.ofNat (value / 256 ^ need) :: bigEndian need value

/-- Overwrite the top two bits of the first byte with the length tag. -/
def setTag (need : Nat) : Bytes → Bytes
  | [] => []
  | b :: rest => UInt8.ofNat (b.toNat % 64 + 64 * tag need) :: rest

def encode (value cap : Nat) : Except Error Bytes :=
  let need := len value
  if need = 0 then .error .range
  else if cap < need then .error .buffer
  else .ok (setTag need (bigEndian need value))

/-- Append big-endian payload bytes to an accumulator. -/
def accumulate (acc : Nat) (bs : Bytes) : Nat :=
  bs.foldl (fun v b => v * 256 + b.toNat) acc

/-- One-shot decode: the value and the bytes consumed, `none` for NEED_MORE. -/
def decode : Bytes → Option (Nat × Nat)
  | [] => none
  | b :: rest =>
    let need := lenFromFirst b
    if rest.length + 1 < need then none
    else some (accumulate (b.toNat % 64) (rest.take (need - 1)), need)

/-! ## Incremental decoder -/

/-- `wtq_varint_dec_t`; `need = 0` is the fresh state. -/
structure Dec where
  acc : Nat := 0
  need : Nat := 0
  got : Nat := 0
  deriving DecidableEq, Repr

def decInit : Dec := {}

/-- The first byte of a varint fixes its length. -/
def Dec.begin (b : UInt8) : Dec :=
  { acc := b.toNat % 64, need := lenFromFirst b, got := 1 }

def Dec.push (d : Dec) (b : UInt8) : Dec :=
  { d with acc := d.acc * 256 + b.toNat, got := d.got + 1 }

/-- The `while (have < need && eaten < len)` loop: the new state and the number
of bytes eaten. -/
def Dec.fill : Dec → Bytes → Dec × Nat
  | d, [] => (d, 0)
  | d, b :: rest =>
    if d.got < d.need then
      let r := Dec.fill (d.push b) rest
      (r.1, r.2 + 1)
    else (d, 0)

/-- After the fill loop: report the value and reset, or wait for more. -/
def Dec.finish (r : Dec × Nat) (eaten : Nat) : Option Nat × Dec × Nat :=
  if r.1.got < r.1.need then (none, r.1, eaten + r.2)
  else (some r.1.acc, decInit, eaten + r.2)

/-- `wtq_varint_dec_feed`: the value when it completed, the new decoder state,
and the bytes consumed. -/
def decFeed (d : Dec) (src : Bytes) : Option Nat × Dec × Nat :=
  if d.need = 0 then
    match src with
    | [] => (none, d, 0)
    | b :: rest => Dec.finish ((Dec.begin b).fill rest) 1
  else Dec.finish (d.fill src) 0

/-! ## Feeding in pieces -/

attribute [local simp] setTag bigEndian Dec.fill in
@[simp] theorem Dec.need_fill (d : Dec) (a : Bytes) : (d.fill a).1.need = d.need := by
  induction a generalizing d with
  | nil => rfl
  | cons b a ih =>
    unfold Dec.fill
    split
    · exact ih (d.push b)
    · rfl

theorem Dec.fill_all {d : Dec} {a : Bytes} (h : (d.fill a).1.got < d.need) :
    (d.fill a).2 = a.length := by
  induction a generalizing d with
  | nil => rfl
  | cons b a ih =>
    unfold Dec.fill at h ⊢
    split
    · next hlt =>
      simp only [hlt, if_true] at h
      simp only [ih (d := d.push b) h, List.length_cons]
    · next hge => simp only [hge, if_false] at h

theorem Dec.fill_resume {d : Dec} {a : Bytes} (h : (d.fill a).1.got < d.need) (b : Bytes) :
    d.fill (a ++ b) = (((d.fill a).1.fill b).1, a.length + ((d.fill a).1.fill b).2) := by
  induction a generalizing d with
  | nil => simp [Dec.fill]
  | cons c a ih =>
    by_cases hlt : d.got < d.need
    · simp only [Dec.fill, hlt, if_true] at h
      simp only [List.cons_append, Dec.fill, hlt, if_true, List.length_cons, ih (d := d.push c) h]
      rw [Nat.add_right_comm]
    · simp [Dec.fill, hlt] at h

theorem Dec.fill_stop {d : Dec} {a : Bytes} (h : ¬ (d.fill a).1.got < d.need) (b : Bytes) :
    d.fill (a ++ b) = d.fill a := by
  induction a generalizing d with
  | nil =>
    have h : ¬ d.got < d.need := h
    cases b <;> simp [Dec.fill, h]
  | cons c a ih =>
    by_cases hlt : d.got < d.need
    · simp only [Dec.fill, hlt, if_true] at h
      simp only [List.cons_append, Dec.fill, hlt, if_true, ih (d := d.push c) h]
    · simp only [List.cons_append, Dec.fill, hlt, if_false]

theorem Dec.fill_used (d : Dec) (a : Bytes) : d.fill (a.take (d.fill a).2) = d.fill a := by
  induction a generalizing d with
  | nil => rfl
  | cons c a ih =>
    by_cases hlt : d.got < d.need
    · simp only [Dec.fill, hlt, if_true, List.take_succ_cons, ih]
    · simp only [Dec.fill, hlt, if_false, List.take_zero]

theorem Dec.fill_le (d : Dec) (a : Bytes) : (d.fill a).2 ≤ a.length := by
  induction a generalizing d with
  | nil => exact Nat.le_refl _
  | cons c a ih =>
    unfold Dec.fill
    split
    · exact Nat.succ_le_succ (ih (d.push c))
    · exact Nat.zero_le _

theorem Dec.fill_need (d : Dec) (a : Bytes) : (d.fill a).2 ≤ d.need - d.got := by
  induction a generalizing d with
  | nil => exact Nat.zero_le _
  | cons c a ih =>
    unfold Dec.fill
    split
    · have := ih (d.push c)
      simp only [Dec.push] at this ⊢
      omega
    · exact Nat.zero_le _

theorem lenFromFirst_pos (b : UInt8) : 0 < lenFromFirst b := Nat.two_pow_pos _

theorem lenFromFirst_le (b : UInt8) : lenFromFirst b ≤ 8 := by
  have hb := b.toNat_lt
  exact Nat.pow_le_pow_right (j := 3) (by decide) (by omega)

theorem Dec.finish_fst (r : Dec × Nat) (n : Nat) :
    (Dec.finish r n).1 = none ↔ r.1.got < r.1.need := by
  unfold Dec.finish
  split
  · next h => simp [h]
  · next h => simp [h]

@[simp] theorem Dec.finish_snd (r : Dec × Nat) (n : Nat) : (Dec.finish r n).2.2 = n + r.2 := by
  unfold Dec.finish
  split <;> rfl

theorem decFeed_nil {d : Dec} (h : d.need = 0) : decFeed d [] = (none, d, 0) := by
  simp [decFeed, h]

theorem decFeed_cons {d : Dec} (h : d.need = 0) (b : UInt8) (rest : Bytes) :
    decFeed d (b :: rest) = Dec.finish ((Dec.begin b).fill rest) 1 := by
  simp [decFeed, h]

/-- Behind its first byte a varint is one fill loop. -/
theorem decFeed_of_need {d : Dec} (h : d.need ≠ 0) (src : Bytes) :
    decFeed d src = Dec.finish (d.fill src) 0 := by
  simp [decFeed, h]

/-- A complete varint leaves a fresh decoder. -/
theorem decFeed_some {d vi : Dec} {a : Bytes} {v c : Nat} (h : decFeed d a = (some v, vi, c)) :
    vi = decInit := by
  have hfinish : ∀ (r : Dec × Nat) n, Dec.finish r n = (some v, vi, c) → vi = decInit := by
    intro r n h
    unfold Dec.finish at h
    split at h <;> cases h
    rfl
  by_cases hd : d.need = 0
  · cases a with
    | nil => simp [decFeed_nil hd] at h
    | cons b rest => exact hfinish _ _ (decFeed_cons hd b rest ▸ h)
  · exact hfinish _ _ (decFeed_of_need hd a ▸ h)

theorem Dec.finish_resume {d : Dec} {a : Bytes} {n : Nat} (hd : d.need ≠ 0)
    (h : (Dec.finish (d.fill a) n).1 = none) (b : Bytes) :
    Dec.finish (d.fill (a ++ b)) n =
      ((decFeed (Dec.finish (d.fill a) n).2.1 b).1, (decFeed (Dec.finish (d.fill a) n).2.1 b).2.1,
        n + a.length + (decFeed (Dec.finish (d.fill a) n).2.1 b).2.2) := by
  rw [Dec.finish_fst, Dec.need_fill] at h
  have hstate : (Dec.finish (d.fill a) n).2.1 = (d.fill a).1 := by
    rw [Dec.finish, if_pos (by simpa using h)]
  rw [hstate, decFeed_of_need (by simpa using hd), Dec.fill_resume h]
  unfold Dec.finish
  dsimp only
  split <;> simp [Nat.add_assoc]

theorem incremental : Incremental decFeed (· = none) where
  all d a h := by
    by_cases hd : d.need = 0
    · cases a with
      | nil => rw [decFeed_nil hd]; rfl
      | cons c rest =>
        rw [decFeed_cons hd] at h ⊢
        rw [Dec.finish_fst, Dec.need_fill] at h
        rw [Dec.finish_snd, Dec.fill_all h, List.length_cons, Nat.add_comm]
    · rw [decFeed_of_need hd] at h ⊢
      rw [Dec.finish_fst, Dec.need_fill] at h
      rw [Dec.finish_snd, Dec.fill_all h, Nat.zero_add]
  resume d a b h := by
    by_cases hd : d.need = 0
    · cases a with
      | nil => simp [decFeed_nil hd]
      | cons c rest =>
        have hne : (Dec.begin c).need ≠ 0 := Nat.ne_of_gt (lenFromFirst_pos c)
        rw [decFeed_cons hd] at h
        rw [List.cons_append, decFeed_cons hd, decFeed_cons hd, Dec.finish_resume hne h,
          List.length_cons, Nat.add_comm 1]
    · rw [decFeed_of_need hd] at h
      rw [decFeed_of_need hd, decFeed_of_need hd, Dec.finish_resume hd h, Nat.zero_add]
  stop d a b h := by
    by_cases hd : d.need = 0
    · cases a with
      | nil => simp [decFeed_nil hd] at h
      | cons c rest =>
        rw [decFeed_cons hd, Dec.finish_fst, Dec.need_fill] at h
        rw [List.cons_append, decFeed_cons hd, decFeed_cons hd, Dec.fill_stop h]
    · rw [decFeed_of_need hd, Dec.finish_fst, Dec.need_fill] at h
      rw [decFeed_of_need hd, decFeed_of_need hd, Dec.fill_stop h]
  used d a := by
    by_cases hd : d.need = 0
    · cases a with
      | nil => simp
      | cons c rest =>
        rw [decFeed_cons hd, Dec.finish_snd, Nat.add_comm, List.take_succ_cons, decFeed_cons hd,
          Dec.fill_used]
    · rw [decFeed_of_need hd a, Dec.finish_snd, Nat.zero_add, decFeed_of_need hd, Dec.fill_used]
  le d a := by
    by_cases hd : d.need = 0
    · cases a with
      | nil => simp [decFeed_nil hd]
      | cons c rest =>
        rw [decFeed_cons hd, Dec.finish_snd, List.length_cons, Nat.add_comm]
        exact Nat.succ_le_succ (Dec.fill_le _ _)
    · rw [decFeed_of_need hd, Dec.finish_snd, Nat.zero_add]
      exact Dec.fill_le _ _

/-- A varint has at most eight bytes. -/
theorem decFeed_init_le (a : Bytes) : (decFeed decInit a).2.2 ≤ 8 := by
  cases a with
  | nil => simp [decFeed_nil (d := decInit) rfl]
  | cons c rest =>
    have := Dec.fill_need (Dec.begin c) rest
    have := lenFromFirst_le c
    rw [decFeed_cons rfl, Dec.finish_snd]
    simp only [Dec.begin] at *
    omega

/-! ## One value, encoded and decoded -/

@[simp] theorem length_bigEndian (need value : Nat) : (bigEndian need value).length = need := by
  induction need with
  | zero => rfl
  | succ n ih => simp [bigEndian, ih]

theorem accumulate_bigEndian (need value acc : Nat) :
    accumulate acc (bigEndian need value) = acc * 256 ^ need + value % 256 ^ need := by
  induction need generalizing acc with
  | zero => simp [bigEndian, accumulate, Nat.mod_one]
  | succ n ih =>
    have hstep : accumulate acc (bigEndian (n + 1) value) =
        accumulate (acc * 256 + value / 256 ^ n % 256) (bigEndian n value) := by
      simp [bigEndian, accumulate]
    rw [hstep, ih, Nat.mod_pow_succ, Nat.pow_succ, Nat.add_mul, Nat.mul_assoc, Nat.mul_comm 256,
      Nat.mul_comm (256 ^ n) (value / 256 ^ n % 256)]
    omega

/-- The value fits below the length tag of its own length. -/
theorem lt_of_len {value : Nat} (h : len value ≠ 0) :
    ∃ n, len value = n + 1 ∧ value < 64 * 256 ^ n ∧ 2 ^ tag (n + 1) = n + 1 := by
  unfold len at h ⊢
  simp only [max] at h ⊢
  split at h
  · next h1 => exact ⟨0, if_pos h1, by omega, rfl⟩
  · next h1 =>
    rw [if_neg h1]
    split at h
    · next h2 => exact ⟨1, if_pos h2, by omega, rfl⟩
    · next h2 =>
      rw [if_neg h2]
      split at h
      · next h3 => exact ⟨3, if_pos h3, by omega, rfl⟩
      · next h3 =>
        rw [if_neg h3]
        by_cases h4 : value ≤ 2 ^ 62 - 1
        · exact ⟨7, if_pos h4, by omega, rfl⟩
        · exact absurd (if_neg h4) h

theorem tag_le (need : Nat) : tag need ≤ 3 := by
  unfold tag
  repeat' split
  all_goals omega

theorem encode_eq {value cap : Nat} {bs : Bytes} (h : encode value cap = .ok bs) :
    len value ≠ 0 ∧ len value ≤ cap ∧ bs = setTag (len value) (bigEndian (len value) value) := by
  unfold encode at h
  dsimp only at h
  split at h
  · cases h
  split at h
  · cases h
  · next h0 hcap => exact ⟨h0, Nat.le_of_not_lt hcap, (Except.ok.inj h).symm⟩

theorem len_ne_zero {value : Nat} (h : value ≤ max) : len value ≠ 0 := by
  unfold len
  repeat' split
  all_goals omega

theorem encode_of_le {value : Nat} (cap : Nat) (h : value ≤ max) (hcap : len value ≤ cap) :
    ∃ bs, encode value cap = .ok bs := by
  exact ⟨_, by rw [encode, if_neg (len_ne_zero h), if_neg (by omega)]⟩

theorem encode_length {value cap : Nat} {bs : Bytes} (h : encode value cap = .ok bs) :
    bs.length = len value := by
  obtain ⟨h0, -, rfl⟩ := encode_eq h
  obtain ⟨n, hn, -⟩ := lt_of_len h0
  rw [hn, bigEndian, setTag, List.length_cons, length_bigEndian]

/-- What the encoder writes, the decoder reads back. -/
theorem decode_encode {value cap : Nat} {bs : Bytes} (h : encode value cap = .ok bs) :
    decode bs = some (value, bs.length) := by
  have hlen := encode_length h
  obtain ⟨h0, -, rfl⟩ := encode_eq h
  obtain ⟨n, hn, hlt, htag⟩ := lt_of_len h0
  have htop : value / 256 ^ n < 64 := by
    rw [Nat.div_lt_iff_lt_mul (Nat.pow_pos (by decide))]
    exact hlt
  have h3 := tag_le (n + 1)
  -- The first byte carries the top six bits and the tag.
  have hfirst : (UInt8.ofNat ((UInt8.ofNat (value / 256 ^ n)).toNat % 64 + 64 * tag (n + 1))).toNat
      = value / 256 ^ n + 64 * tag (n + 1) := by
    simp only [UInt8.toNat_ofNat']
    generalize value / 256 ^ n = q at htop ⊢
    omega
  have htags : (value / 256 ^ n + 64 * tag (n + 1)) / 64 = tag (n + 1) := by
    generalize value / 256 ^ n = q at htop ⊢
    omega
  have htops : (value / 256 ^ n + 64 * tag (n + 1)) % 64 = value / 256 ^ n := by
    generalize value / 256 ^ n = q at htop ⊢
    omega
  rw [hlen, hn, bigEndian, setTag, decode]
  have hneed : lenFromFirst (UInt8.ofNat ((UInt8.ofNat (value / 256 ^ n)).toNat % 64
      + 64 * tag (n + 1))) = n + 1 := by
    rw [lenFromFirst, hfirst, htags]
    exact htag
  rw [hneed, length_bigEndian, if_neg (Nat.lt_irrefl _), hfirst,
    htops, Nat.add_sub_cancel,
    List.take_of_length_le (by simp), accumulate_bigEndian, Nat.div_add_mod' value (256 ^ n)]

theorem decode_le {a : Bytes} {v n : Nat} (h : decode a = some (v, n)) : 0 < n ∧ n ≤ a.length := by
  cases a with
  | nil => cases h
  | cons b rest =>
    unfold decode at h
    dsimp only at h
    split at h
    · cases h
    · next hlen =>
      cases h
      exact ⟨lenFromFirst_pos b, Nat.le_of_not_lt hlen⟩

/-- A complete varint is read whatever follows it. -/
theorem decode_append {a : Bytes} {r : Nat × Nat} (h : decode a = some r) (b : Bytes) :
    decode (a ++ b) = some r := by
  cases a with
  | nil => cases h
  | cons c rest =>
    unfold decode at h
    dsimp only at h
    rw [List.cons_append, decode]
    split at h
    · cases h
    · next hlen =>
      have hpos := lenFromFirst_pos c
      rw [if_neg (by simp only [List.length_append]; omega),
        List.take_append_of_le_length (by omega)]
      exact h

theorem decode_take {a : Bytes} {v n : Nat} (h : decode a = some (v, n)) :
    decode (a.take n) = some (v, n) := by
  cases a with
  | nil => cases h
  | cons c rest =>
    have hle := (decode_le h).2
    unfold decode at h
    dsimp only at h
    split at h
    · cases h
    · next hlen =>
      cases h
      obtain ⟨m, hm⟩ : ∃ m, lenFromFirst c = m + 1 := ⟨lenFromFirst c - 1, by have := lenFromFirst_pos c; omega⟩
      rw [hm] at hlen ⊢
      rw [List.take_succ_cons, decode, hm]
      simp only [List.length_take, Nat.add_sub_cancel, List.take_take, Nat.min_self]
      rw [if_neg (by omega)]

/-! ## The incremental decoder against the one-shot one -/

theorem Dec.fill_enough {d : Dec} {a : Bytes} (h : d.got ≤ d.need)
    (ha : d.need - d.got ≤ a.length) :
    d.fill a = ({ d with acc := accumulate d.acc (a.take (d.need - d.got)), got := d.need },
      d.need - d.got) := by
  induction a generalizing d with
  | nil =>
    have heq : d.got = d.need := by simp only [List.length_nil] at ha; omega
    obtain ⟨acc, need, got⟩ := d
    obtain rfl : got = need := heq
    simp [Dec.fill, accumulate]
  | cons b a ih =>
    by_cases hlt : d.got < d.need
    · obtain ⟨k, hk⟩ : ∃ k, d.need - d.got = k + 1 := ⟨d.need - d.got - 1, by omega⟩
      have hsub : (d.push b).need - (d.push b).got = k := by simp only [Dec.push]; omega
      have hrec := ih (d := d.push b) (by simp only [Dec.push]; omega)
        (by rw [hsub]; simp only [List.length_cons] at ha; omega)
      rw [hsub] at hrec
      rw [Dec.fill, if_pos hlt, hk, hrec]
      simp [Dec.push, accumulate]
    · have heq : d.got = d.need := by omega
      obtain ⟨acc, need, got⟩ := d
      obtain rfl : got = need := heq
      simp [Dec.fill, accumulate]

theorem Dec.fill_short {d : Dec} {a : Bytes} (ha : a.length < d.need - d.got) :
    (d.fill a).1.got < d.need := by
  induction a generalizing d with
  | nil => simp only [Dec.fill, List.length_nil] at ha ⊢; omega
  | cons b a ih =>
    have hlt : d.got < d.need := by omega
    rw [Dec.fill, if_pos hlt]
    exact ih (d := d.push b) (by simp only [Dec.push, List.length_cons] at ha ⊢; omega)

theorem decFeed_of_decode {a : Bytes} {v n : Nat} (h : decode a = some (v, n)) :
    decFeed decInit a = (some v, decInit, n) := by
  cases a with
  | nil => cases h
  | cons b rest =>
    unfold decode at h
    dsimp only at h
    split at h
    · cases h
    · next hlen =>
      cases h
      have hpos := lenFromFirst_pos b
      rw [decFeed_cons rfl, Dec.fill_enough (d := Dec.begin b) hpos
        (by simp only [Dec.begin]; omega), Dec.finish, if_neg (Nat.lt_irrefl _)]
      simp only [Dec.begin, Nat.add_sub_cancel' hpos]

theorem decFeed_of_decode_none {a : Bytes} (h : decode a = none) : (decFeed decInit a).1 = none := by
  cases a with
  | nil => rfl
  | cons b rest =>
    unfold decode at h
    dsimp only at h
    split at h
    · next hlen =>
      rw [decFeed_cons rfl, Dec.finish_fst, Dec.need_fill]
      exact Dec.fill_short (by simp only [Dec.begin]; omega)
    · cases h

end Varint
end Wtquic
