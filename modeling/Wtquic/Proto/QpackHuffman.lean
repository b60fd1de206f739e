-- SUMMARY: The Huffman decoder of string literals is the inverse of the code.
import Mathlib.Data.Fintype.EquivFin
import Wtquic.Lib.PrefixCode
import Wtquic.Proto.Qpack

namespace Wtquic.Qpack

open PrefixCode

/-! # Huffman strings

The decoder walks the bits with the per-length rows; the code itself is the table of
`scripts/gen_qpack_tables.py`, one word a symbol. What the walk has read is always the code
words of its symbols followed by the digits of its pending code. -/

/-! ## The code -/

/-- `HUFF` of `gen_qpack_tables.py`: length and code of each symbol, the last one EOS. -/
def huffCodes : List (Nat × Nat) :=
  [ (13, 0x1ff8), (23, 0x7fffd8), (28, 0xfffffe2), (28, 0xfffffe3), (28, 0xfffffe4),
    (28, 0xfffffe5), (28, 0xfffffe6), (28, 0xfffffe7), (28, 0xfffffe8), (24, 0xffffea),
    (30, 0x3ffffffc), (28, 0xfffffe9), (28, 0xfffffea), (30, 0x3ffffffd), (28, 0xfffffeb),
    (28, 0xfffffec), (28, 0xfffffed), (28, 0xfffffee), (28, 0xfffffef), (28, 0xffffff0),
    (28, 0xffffff1), (28, 0xffffff2), (30, 0x3ffffffe), (28, 0xffffff3), (28, 0xffffff4),
    (28, 0xffffff5), (28, 0xffffff6), (28, 0xffffff7), (28, 0xffffff8), (28, 0xffffff9),
    (28, 0xffffffa), (28, 0xffffffb), (6, 0x14), (10, 0x3f8), (10, 0x3f9),
    (12, 0xffa), (13, 0x1ff9), (6, 0x15), (8, 0xf8), (11, 0x7fa),
    (10, 0x3fa), (10, 0x3fb), (8, 0xf9), (11, 0x7fb), (8, 0xfa),
    (6, 0x16), (6, 0x17), (6, 0x18), (5, 0x0), (5, 0x1),
    (5, 0x2), (6, 0x19), (6, 0x1a), (6, 0x1b), (6, 0x1c),
    (6, 0x1d), (6, 0x1e), (6, 0x1f), (7, 0x5c), (8, 0xfb),
    (15, 0x7ffc), (6, 0x20), (12, 0xffb), (10, 0x3fc), (13, 0x1ffa),
    (6, 0x21), (7, 0x5d), (7, 0x5e), (7, 0x5f), (7, 0x60),
    (7, 0x61), (7, 0x62), (7, 0x63), (7, 0x64), (7, 0x65),
    (7, 0x66), (7, 0x67), (7, 0x68), (7, 0x69), (7, 0x6a),
    (7, 0x6b), (7, 0x6c), (7, 0x6d), (7, 0x6e), (7, 0x6f),
    (7, 0x70), (7, 0x71), (7, 0x72), (8, 0xfc), (7, 0x73),
    (8, 0xfd), (13, 0x1ffb), (19, 0x7fff0), (13, 0x1ffc), (14, 0x3ffc),
    (6, 0x22), (15, 0x7ffd), (5, 0x3), (6, 0x23), (5, 0x4),
    (6, 0x24), (5, 0x5), (6, 0x25), (6, 0x26), (6, 0x27),
    (5, 0x6), (7, 0x74), (7, 0x75), (6, 0x28), (6, 0x29),
    (6, 0x2a), (5, 0x7), (6, 0x2b), (7, 0x76), (6, 0x2c),
    (5, 0x8), (5, 0x9), (6, 0x2d), (7, 0x77), (7, 0x78),
    (7, 0x79), (7, 0x7a), (7, 0x7b), (15, 0x7ffe), (11, 0x7fc),
    (14, 0x3ffd), (13, 0x1ffd), (28, 0xffffffc), (20, 0xfffe6), (22, 0x3fffd2),
    (20, 0xfffe7), (20, 0xfffe8), (22, 0x3fffd3), (22, 0x3fffd4), (22, 0x3fffd5),
    (23, 0x7fffd9), (22, 0x3fffd6), (23, 0x7fffda), (23, 0x7fffdb), (23, 0x7fffdc),
    (23, 0x7fffdd), (23, 0x7fffde), (24, 0xffffeb), (23, 0x7fffdf), (24, 0xffffec),
    (24, 0xffffed), (22, 0x3fffd7), (23, 0x7fffe0), (24, 0xffffee), (23, 0x7fffe1),
    (23, 0x7fffe2), (23, 0x7fffe3), (23, 0x7fffe4), (21, 0x1fffdc), (22, 0x3fffd8),
    (23, 0x7fffe5), (22, 0x3fffd9), (23, 0x7fffe6), (23, 0x7fffe7), (24, 0xffffef),
    (22, 0x3fffda), (21, 0x1fffdd), (20, 0xfffe9), (22, 0x3fffdb), (22, 0x3fffdc),
    (23, 0x7fffe8), (23, 0x7fffe9), (21, 0x1fffde), (23, 0x7fffea), (22, 0x3fffdd),
    (22, 0x3fffde), (24, 0xfffff0), (21, 0x1fffdf), (22, 0x3fffdf), (23, 0x7fffeb),
    (23, 0x7fffec), (21, 0x1fffe0), (21, 0x1fffe1), (22, 0x3fffe0), (21, 0x1fffe2),
    (23, 0x7fffed), (22, 0x3fffe1), (23, 0x7fffee), (23, 0x7fffef), (20, 0xfffea),
    (22, 0x3fffe2), (22, 0x3fffe3), (22, 0x3fffe4), (23, 0x7ffff0), (22, 0x3fffe5),
    (22, 0x3fffe6), (23, 0x7ffff1), (26, 0x3ffffe0), (26, 0x3ffffe1), (20, 0xfffeb),
    (19, 0x7fff1), (22, 0x3fffe7), (23, 0x7ffff2), (22, 0x3fffe8), (25, 0x1ffffec),
    (26, 0x3ffffe2), (26, 0x3ffffe3), (26, 0x3ffffe4), (27, 0x7ffffde), (27, 0x7ffffdf),
    (26, 0x3ffffe5), (24, 0xfffff1), (25, 0x1ffffed), (19, 0x7fff2), (21, 0x1fffe3),
    (26, 0x3ffffe6), (27, 0x7ffffe0), (27, 0x7ffffe1), (26, 0x3ffffe7), (27, 0x7ffffe2),
    (24, 0xfffff2), (21, 0x1fffe4), (21, 0x1fffe5), (26, 0x3ffffe8), (26, 0x3ffffe9),
    (28, 0xffffffd), (27, 0x7ffffe3), (27, 0x7ffffe4), (27, 0x7ffffe5), (20, 0xfffec),
    (24, 0xfffff3), (20, 0xfffed), (21, 0x1fffe6), (22, 0x3fffe9), (21, 0x1fffe7),
    (21, 0x1fffe8), (23, 0x7ffff3), (22, 0x3fffea), (22, 0x3fffeb), (25, 0x1ffffee),
    (25, 0x1ffffef), (24, 0xfffff4), (24, 0xfffff5), (26, 0x3ffffea), (23, 0x7ffff4),
    (26, 0x3ffffeb), (27, 0x7ffffe6), (26, 0x3ffffec), (26, 0x3ffffed), (27, 0x7ffffe7),
    (27, 0x7ffffe8), (27, 0x7ffffe9), (27, 0x7ffffea), (27, 0x7ffffeb), (28, 0xffffffe),
    (27, 0x7ffffec), (27, 0x7ffffed), (27, 0x7ffffee), (27, 0x7ffffef), (27, 0x7fffff0),
    (26, 0x3ffffee), (30, 0x3fffffff) ]

/-- The entry of a symbol. -/
def huffEntry (a : UInt8) : Nat × Nat := huffCodes.getD a.toNat (0, 0)

/-- The code word of a symbol. -/
def huffWord (a : UInt8) : List Nat := bitsOf (huffEntry a).1 (huffEntry a).2

/-- The code word of EOS. -/
def eosWord : List Nat := bitsOf 30 0x3fffffff

/-- Fewer than eight digits, all ones. -/
def IsPadding (w : List Nat) : Prop := w.length < 8 ∧ ∀ b ∈ w, b = 1

/-- The row that `huffman_decode` finds for one more input bit. -/
def huffHit (st : HuffState) (bit : Nat) : Option HuffRow :=
  match st.row.dropWhile fun r => r.bits < st.nbits + 1 with
  | r :: _ =>
    if r.bits = st.nbits + 1 ∧ 2 * st.code + bit < r.firstCode + r.count then some r else none
  | [] => none

theorem huffBit_eq (cap : Nat) (st : HuffState) (bit : Nat) :
    huffBit cap st bit = match huffHit st bit with
      | some r =>
        if st.out.length ≥ cap then .error .buffer
        else
          .ok { out := huffSymbols.getD (r.firstIndex + (2 * st.code + bit - r.firstCode)) 0
                  :: st.out }
      | none =>
        if st.nbits + 1 ≥ huffEosBits then .error .malformed
        else .ok { code := 2 * st.code + bit, nbits := st.nbits + 1,
                   row := st.row.dropWhile fun r => r.bits < st.nbits + 1, out := st.out } := rfl

/-! ## The rows against the code -/

/-- A table of bytes as one number, the first byte lowest. -/
def packed : Bytes → Nat
  | [] => 0
  | b :: l => b.toNat + 256 * packed l

/-- A digit of the number is the byte at its place, without a walk along the table. -/
theorem packed_digit (l : Bytes) (i : Nat) : packed l / 256 ^ i % 256 = (l.getD i 0).toNat := by
  induction l generalizing i with
  | nil => simp [packed]
  | cons b l ih =>
    have hb := b.toNat_lt
    cases i with
    | zero =>
      simp only [packed, Nat.pow_zero, Nat.div_one, List.getD_cons_zero]
      omega
    | succ i =>
      have hrest : (b.toNat + 256 * packed l) / 256 = packed l := by omega
      rw [packed, Nat.pow_succ, Nat.mul_comm (256 ^ i), ← Nat.div_div_eq_div_mul, hrest, ih,
        List.getD_cons_succ]

/-- Every symbol is the one at its code's place in a row. -/
theorem huffEntry_row (a : UInt8) : ∃ r ∈ huffLengths, r.bits = (huffEntry a).1 ∧
    r.firstCode ≤ (huffEntry a).2 ∧ (huffEntry a).2 < r.firstCode + r.count ∧
    huffSymbols.getD (r.firstIndex + ((huffEntry a).2 - r.firstCode)) 0 = a := by
  have htable : huffCodes.length = 257 ∧
      ∀ p ∈ huffCodes.zipIdx, p.2 = 256 ∨ ∃ r ∈ huffLengths, r.bits = p.1.1 ∧
        r.firstCode ≤ p.1.2 ∧ p.1.2 < r.firstCode + r.count ∧
        packed huffSymbols / 256 ^ (r.firstIndex + (p.1.2 - r.firstCode)) % 256 = p.2 := by
    decide +kernel
  obtain ⟨hlen, hall⟩ := htable
  have ha := a.toNat_lt
  have hmem : (huffEntry a, a.toNat) ∈ huffCodes.zipIdx := by
    rw [List.mem_zipIdx_iff_getElem?, huffEntry, List.getD_eq_getElem?_getD,
      List.getElem?_eq_getElem (by omega), Option.getD_some]
  obtain ⟨r, hr, hbits, hle, hlt, hsym⟩ := (hall _ hmem).resolve_left (by simp; omega)
  rw [packed_digit] at hsym
  exact ⟨r, hr, hbits, hle, hlt, UInt8.toNat_inj.mp hsym⟩

/-- What the rows are like: their codes start where those of the rows before them are used up,
past the codes of every shorter row; they have at most 30 bits and are found by their length; and
their places are those of the symbols, which no two rows share. -/
theorem huffLengths_facts :
    (∀ r ∈ huffLengths, r.firstCode = 0 ∨ ∃ q ∈ huffLengths, q.bits < r.bits ∧
      r.firstCode = (q.firstCode + q.count) * 2 ^ (r.bits - q.bits)) ∧
    (∀ q ∈ huffLengths, ∀ r ∈ huffLengths, q.bits < r.bits →
      (q.firstCode + q.count) * 2 ^ (r.bits - q.bits) ≤ r.firstCode) ∧
    (∀ r ∈ huffLengths, r.bits ≤ 30 ∧ r.firstCode + r.count < 2 ^ r.bits ∧
      (huffLengths.dropWhile fun q => q.bits < r.bits).head? = some r) ∧
    (∀ n < 30, (huffLengths.dropWhile fun r => r.bits < n).dropWhile (fun r => r.bits < n + 1) =
      huffLengths.dropWhile fun r => r.bits < n + 1) ∧
    (∀ r ∈ huffLengths, r.firstIndex + r.count ≤ 256 ∧ 256 = huffSymbols.length) ∧
    ∀ q ∈ huffLengths, ∀ r ∈ huffLengths, q = r ∨
      q.firstIndex + q.count ≤ r.firstIndex ∨ r.firstIndex + r.count ≤ q.firstIndex := by
  decide +kernel

theorem huffLengths_canonical : ∀ r ∈ huffLengths, r.firstCode = 0 ∨
    ∃ q ∈ huffLengths, q.bits < r.bits ∧
      r.firstCode = (q.firstCode + q.count) * 2 ^ (r.bits - q.bits) :=
  huffLengths_facts.1

theorem huffLengths_ascending : ∀ q ∈ huffLengths, ∀ r ∈ huffLengths, q.bits < r.bits →
    (q.firstCode + q.count) * 2 ^ (r.bits - q.bits) ≤ r.firstCode :=
  huffLengths_facts.2.1

theorem huffLengths_bits : ∀ r ∈ huffLengths,
    r.bits ≤ 30 ∧ r.firstCode + r.count < 2 ^ r.bits ∧
      (huffLengths.dropWhile fun q => q.bits < r.bits).head? = some r :=
  huffLengths_facts.2.2.1

theorem huffLengths_drop : ∀ n < 30,
    (huffLengths.dropWhile fun r => r.bits < n).dropWhile (fun r => r.bits < n + 1) =
      huffLengths.dropWhile fun r => r.bits < n + 1 :=
  huffLengths_facts.2.2.2.1

/-- The rows spell the code: the symbol at each index of a row has the row's length and the
code that the index stands for. -/
theorem huffLengths_entry : ∀ r ∈ huffLengths, ∀ i < r.count,
    r.firstIndex + i < huffSymbols.length ∧
      huffEntry (huffSymbols.getD (r.firstIndex + i) 0) = (r.bits, r.firstCode + i) := by
  intro r hr i hi
  obtain ⟨-, -, -, -, hplaces, happart⟩ := huffLengths_facts
  have hbound := hplaces r hr
  refine ⟨by omega, ?_⟩
  choose row hrow hbits hle hlt hsym using huffEntry_row
  -- every symbol has a place of its own, so every place has a symbol
  let place (n : Fin 256) : Fin 256 :=
    ⟨(row (.ofFin n)).firstIndex + ((huffEntry (.ofFin n)).2 - (row (.ofFin n)).firstCode), by
      have := (hplaces _ (hrow (.ofFin n))).1
      have := hle (.ofFin n)
      have := hlt (.ofFin n)
      omega⟩
  have hinj : Function.Injective place := by
    intro m n h
    have hm := hsym (.ofFin m)
    rw [show (row (.ofFin m)).firstIndex + _ = _ from congrArg Fin.val h, hsym] at hm
    exact (congrArg UInt8.toFin hm).symm
  obtain ⟨n, hn⟩ := Finite.injective_iff_surjective.mp hinj ⟨r.firstIndex + i, by omega⟩
  have hplace := congrArg Fin.val hn
  have hle := hle (.ofFin n)
  have hlt := hlt (.ofFin n)
  have hsame : row (.ofFin n) = r := by
    rcases happart _ (hrow (.ofFin n)) r hr with h | h | h
    · exact h
    · simp only [place] at hplace
      omega
    · simp only [place] at hplace
      omega
  have hcode : (huffEntry (.ofFin n)).2 = r.firstCode + i := by
    simp only [place, hsame] at hplace
    rw [hsame] at hle
    omega
  have hsymbol : huffSymbols.getD (r.firstIndex + i) 0 = UInt8.ofFin n := by
    rw [← hsym (.ofFin n), hsame, hcode, Nat.add_sub_cancel_left]
  rw [hsymbol]
  exact Prod.ext ((hbits (.ofFin n)).symm.trans (congrArg HuffRow.bits hsame)) hcode

/-- Rows of one length are one row. -/
theorem huffLengths_unique {q r : HuffRow} (hq : q ∈ huffLengths) (hr : r ∈ huffLengths)
    (h : q.bits = r.bits) : q = r := by
  have hfirst := (huffLengths_bits q hq).2.2
  rw [h, (huffLengths_bits r hr).2.2] at hfirst
  exact (Option.some.inj hfirst).symm

theorem huffEntry_inj {a b : UInt8} (h : huffEntry a = huffEntry b) : a = b := by
  obtain ⟨q, hq, hqbits, -, -, hqsym⟩ := huffEntry_row a
  obtain ⟨r, hr, hrbits, -, -, hrsym⟩ := huffEntry_row b
  have hrow : q = r := huffLengths_unique hq hr (by rw [hqbits, hrbits, h])
  rw [← hqsym, ← hrsym, hrow, h]

theorem huffEntry_lt (a : UInt8) : (huffEntry a).2 < 2 ^ (huffEntry a).1 := by
  obtain ⟨r, hr, hbits, -, hlt, -⟩ := huffEntry_row a
  rw [← hbits]
  exact Nat.lt_trans hlt (huffLengths_bits r hr).2.1

/-! ## Words that no row has hit -/

/-- No row has a code that starts the word of `n` digits spelling `v`. -/
def Missed (n v : Nat) : Prop :=
  ∀ r ∈ huffLengths, r.bits ≤ n → r.firstCode + r.count ≤ v / 2 ^ (n - r.bits)

theorem Missed.stuck {n v : Nat} (hv : v < 2 ^ n) (h : Missed n v) :
    Stuck huffWord (bitsOf n v) := by
  intro a hpre
  obtain ⟨r, hr, hbits, -, hlt, -⟩ := huffEntry_row a
  obtain ⟨hle, hlead⟩ := prefix_div (huffEntry_lt a) hv hpre
  have hmiss := h r hr (by omega)
  rw [hbits] at hmiss
  omega

/-- The code of a row lies past the codes of every shorter row. -/
theorem missed_entry {r : HuffRow} (hr : r ∈ huffLengths) {v : Nat} (hv : r.firstCode ≤ v) :
    ∀ q ∈ huffLengths, q.bits < r.bits → q.firstCode + q.count ≤ v / 2 ^ (r.bits - q.bits) := by
  intro q hq hlt
  rw [Nat.le_div_iff_mul_le (Nat.two_pow_pos _)]
  exact Nat.le_trans (huffLengths_ascending q hq r hr hlt) hv

theorem huffWord_free : PrefixFree huffWord := by
  intro a b hpre
  obtain ⟨q, hq, hqbits, -, hqlt, -⟩ := huffEntry_row a
  obtain ⟨r, hr, hrbits, hrle, -, -⟩ := huffEntry_row b
  obtain ⟨hle, hlead⟩ := prefix_div (huffEntry_lt a) (huffEntry_lt b) hpre
  rcases Nat.lt_or_eq_of_le hle with hlt | heq
  · have hpast := missed_entry hr hrle q hq (by omega)
    rw [hrbits, hqbits] at hpast
    omega
  · have hentry : huffEntry a = huffEntry b := by
      refine Prod.ext heq ?_
      rw [hlead, heq, Nat.sub_self, Nat.pow_zero, Nat.div_one]
    exact huffEntry_inj hentry

theorem missed_ones : Missed 30 0x3fffffff ∧ ∀ n < 8, Missed n (2 ^ n - 1) := by
  unfold Missed
  decide +kernel

theorem eos_missed : Missed 30 0x3fffffff := missed_ones.1

theorem ones_missed : ∀ n < 8, Missed n (2 ^ n - 1) := missed_ones.2

/-- Padding starts no code word. -/
theorem IsPadding.stuck {w : List Nat} (h : IsPadding w) : Stuck huffWord w := by
  have hones : w = bitsOf w.length (2 ^ w.length - 1) := by
    rw [bitsOf_ones]
    exact List.eq_replicate_of_mem h.2
  rw [hones]
  exact (ones_missed _ h.1).stuck (by have := Nat.two_pow_pos w.length; omega)

theorem isPadding_bitsOf {n v : Nat} (hv : v < 2 ^ n) :
    IsPadding (bitsOf n v) ↔ n < 8 ∧ v = 2 ^ n - 1 := by
  constructor
  · intro h
    refine ⟨by simpa using h.1, ?_⟩
    have hones : bitsOf n v = bitsOf n (2 ^ n - 1) := by
      rw [bitsOf_ones]
      simpa using List.eq_replicate_of_mem h.2
    exact bitsOf_inj hv (by have := Nat.two_pow_pos n; omega) hones
  · rintro ⟨hn, rfl⟩
    refine ⟨by simpa using hn, ?_⟩
    rw [bitsOf_ones]
    intro b hb
    exact List.eq_of_mem_replicate hb

theorem eos_stuck (rest : List Nat) : Stuck huffWord (eosWord ++ rest) := by
  intro a hpre
  obtain ⟨r, hr, hbits, -, -, -⟩ := huffEntry_row a
  have hlen : (huffWord a).length ≤ eosWord.length := by
    have hmax := (huffLengths_bits r hr).1
    simp only [huffWord, eosWord, length_bitsOf]
    omega
  have heos : huffWord a <+: eosWord :=
    List.prefix_of_prefix_length_le hpre (List.prefix_append _ _) hlen
  exact eos_missed.stuck (by decide) a heos

/-! ## The walk -/

/-- What the decoder's state says about the bits it has read. -/
structure Walk (cap : Nat) (bits : List Nat) (st : HuffState) : Prop where
  read : bits = st.out.reverse.flatMap huffWord ++ bitsOf st.nbits st.code
  fits : st.code < 2 ^ st.nbits
  short : st.nbits < huffEosBits
  room : st.out.length ≤ cap
  row : st.row = huffLengths.dropWhile fun r => r.bits < st.nbits
  missed : Missed st.nbits st.code

/-- What the outcome of the walk says about the bits. -/
def Reads (cap : Nat) (bits : List Nat) : Except Error HuffState → Prop
  | .ok st => Walk cap bits st
  | .error .buffer =>
    ∃ (s : Bytes) (rest : List Nat), s.length = cap + 1 ∧ bits = s.flatMap huffWord ++ rest
  | .error .malformed =>
    ∃ (s : Bytes) (rest : List Nat),
      s.length ≤ cap ∧ bits = s.flatMap huffWord ++ (eosWord ++ rest)
  | .error .range => False

theorem Walk.start (cap : Nat) : Walk cap [] {} where
  read := rfl
  fits := by decide
  short := by decide
  room := Nat.zero_le _
  row := by simp [huffLengths]
  missed := ones_missed 0 (by decide)

theorem Walk.row_next {cap : Nat} {bits : List Nat} {st : HuffState} (h : Walk cap bits st) :
    (st.row.dropWhile fun r => r.bits < st.nbits + 1) =
      huffLengths.dropWhile fun r => r.bits < st.nbits + 1 := by
  rw [h.row]
  exact huffLengths_drop _ h.short

/-- A hit is a row of the code's length that the code belongs to. A code below the row's first
one would have hit a shorter row. -/
theorem Walk.hit {cap : Nat} {bits : List Nat} {st : HuffState} (h : Walk cap bits st)
    {bit : Nat} {r : HuffRow} (hhit : huffHit st bit = some r) :
    r ∈ huffLengths ∧ r.bits = st.nbits + 1 ∧ r.firstCode ≤ 2 * st.code + bit ∧
      2 * st.code + bit < r.firstCode + r.count := by
  unfold huffHit at hhit
  rw [h.row_next] at hhit
  split at hhit
  next q tail hrow =>
    split at hhit
    next hq =>
      cases hhit
      have hmem : r ∈ huffLengths :=
        (List.dropWhile_sublist _).subset (hrow ▸ List.mem_cons_self)
      refine ⟨hmem, hq.1, ?_, hq.2⟩
      rcases huffLengths_canonical r hmem with hzero | ⟨p, hp, hlt, hfirst⟩
      · omega
      · have hmiss := h.missed p hp (by omega)
        rw [Nat.le_div_iff_mul_le (Nat.two_pow_pos _)] at hmiss
        have hexp : r.bits - p.bits = st.nbits - p.bits + 1 := by omega
        rw [hfirst, hexp, Nat.pow_succ, ← Nat.mul_assoc]
        omega
    next => cases hhit
  next => cases hhit

/-- Without a hit the longer code has no row either. -/
theorem Walk.no_hit {cap : Nat} {bits : List Nat} {st : HuffState} (h : Walk cap bits st)
    {bit : Nat} (hbit : bit < 2) (hhit : huffHit st bit = none) :
    Missed (st.nbits + 1) (2 * st.code + bit) := by
  intro r hr hle
  rcases Nat.lt_or_eq_of_le hle with hlt | heq
  · have hmiss := h.missed r hr (by omega)
    have hexp : st.nbits + 1 - r.bits = 1 + (st.nbits - r.bits) := by omega
    have hhalf : (2 * st.code + bit) / 2 = st.code := by omega
    rw [hexp, Nat.pow_add, ← Nat.div_div_eq_div_mul, Nat.pow_one, hhalf]
    exact hmiss
  · rw [heq, Nat.sub_self, Nat.pow_zero, Nat.div_one]
    have hhead := (huffLengths_bits r hr).2.2
    rw [heq] at hhead
    obtain ⟨tail, hrow⟩ := List.head?_eq_some_iff.mp hhead
    unfold huffHit at hhit
    rw [h.row_next, hrow] at hhit
    dsimp only at hhit
    split at hhit
    · cases hhit
    next hmiss => omega

/-- One bit of the walk. -/
theorem Walk.step {cap : Nat} {bits : List Nat} {st : HuffState} (h : Walk cap bits st)
    {bit : Nat} (hbit : bit < 2) : Reads cap (bits ++ [bit]) (huffBit cap st bit) := by
  have hread : bits ++ [bit] = st.out.reverse.flatMap huffWord ++
      bitsOf (st.nbits + 1) (2 * st.code + bit) := by
    rw [bitsOf_snoc hbit, ← List.append_assoc, ← h.read]
  have hfits : 2 * st.code + bit < 2 ^ (st.nbits + 1) := by
    have := h.fits
    rw [Nat.pow_succ]
    omega
  rw [huffBit_eq]
  split
  next r hhit =>
    obtain ⟨hr, hbits, hle, hlt⟩ := h.hit hhit
    obtain ⟨-, hentry⟩ := huffLengths_entry r hr (2 * st.code + bit - r.firstCode) (by omega)
    have hword : bitsOf (st.nbits + 1) (2 * st.code + bit) = huffWord
        (huffSymbols.getD (r.firstIndex + (2 * st.code + bit - r.firstCode)) 0) := by
      rw [huffWord, hentry, ← hbits, Nat.add_sub_cancel' hle]
    rw [hword] at hread
    generalize huffSymbols.getD (r.firstIndex + (2 * st.code + bit - r.firstCode)) 0 = a at hread
    split
    next hfull =>
      have hroom := h.room
      refine ⟨st.out.reverse ++ [a], [], ?_, ?_⟩
      · simp only [List.length_append, List.length_reverse, List.length_singleton]
        omega
      · simpa using hread
    next hroom =>
      refine { Walk.start cap with read := ?_, room := by simp only [List.length_cons]; omega }
      simpa [bitsOf] using hread
  next hhit =>
    have hmissed := h.no_hit hbit hhit
    split
    next hlong =>
      have hlast : st.nbits + 1 = 30 := Nat.le_antisymm h.short hlong
      rw [hlast] at hmissed hread hfits
      -- the codes of the last row end right below EOS
      have heos := hmissed ⟨30, 0x3ffffffc, 253, 3⟩ (by decide) (by decide)
      simp only [Nat.sub_self, Nat.pow_zero, Nat.div_one] at heos
      have hcode : 2 * st.code + bit = 0x3fffffff := by omega
      rw [hcode] at hread
      exact ⟨st.out.reverse, [], by simpa using h.room, by simpa [eosWord] using hread⟩
    next hshort =>
      exact {
        read := hread
        fits := hfits
        short := Nat.not_le.mp hshort
        room := h.room
        row := h.row_next
        missed := hmissed }

theorem Reads.append {cap : Nat} {bits : List Nat} {e : Error}
    (h : Reads cap bits (.error e)) (more : List Nat) : Reads cap (bits ++ more) (.error e) := by
  cases e with
  | buffer =>
    obtain ⟨s, rest, hlen, rfl⟩ := h
    exact ⟨s, rest ++ more, hlen, List.append_assoc ..⟩
  | malformed =>
    obtain ⟨s, rest, hlen, rfl⟩ := h
    exact ⟨s, rest ++ more, hlen, by simp only [List.append_assoc]⟩
  | range => exact h.elim

/-- The whole walk. -/
theorem Walk.run {cap : Nat} {bits more : List Nat} {st : HuffState} (h : Walk cap bits st)
    (hmore : ∀ b ∈ more, b < 2) : Reads cap (bits ++ more) (huffBits cap st more) := by
  induction more generalizing bits st with
  | nil =>
    rw [List.append_nil]
    exact h
  | cons b more ih =>
    have hstep := h.step (hmore b List.mem_cons_self)
    rw [List.append_cons, huffBits]
    split
    next e he =>
      rw [he] at hstep
      exact hstep.append more
    next st' hst =>
      rw [hst] at hstep
      exact ih hstep fun c hc => hmore c (List.mem_cons_of_mem _ hc)

/-! ## The decoder -/

theorem byteBits_lt (src : Bytes) : ∀ b ∈ src.flatMap byteBits, b < 2 := by
  intro b hb
  obtain ⟨c, -, hc⟩ := List.mem_flatMap.mp hb
  obtain ⟨i, -, rfl⟩ := List.mem_map.mp hc
  exact Nat.mod_lt _ (by decide)

/-- A rest that no symbol explains: EOS, or less than a code word and no padding. -/
def IsBad (rest : List Nat) : Prop :=
  Stuck huffWord rest ∧ (eosWord <+: rest ∨ rest.length < huffEosBits ∧ ¬ IsPadding rest)

theorem IsBad.not_padding {rest : List Nat} (h : IsBad rest) : ¬ IsPadding rest := by
  intro hpad
  rcases h.2 with heos | ⟨-, hno⟩
  · have hlen := heos.length_le
    have hshort := hpad.1
    have height : eosWord.length = 30 := length_bitsOf _ _
    omega
  · exact hno hpad

/-- What each outcome of the decoder says about its input. -/
def Decodes (cap : Nat) (bits : List Nat) : Except Error Bytes → Prop
  | .ok s => s.length ≤ cap ∧ ∃ pad, IsPadding pad ∧ bits = s.flatMap huffWord ++ pad
  | .error .buffer =>
    ∃ (s : Bytes) (rest : List Nat), s.length = cap + 1 ∧ bits = s.flatMap huffWord ++ rest
  | .error .malformed =>
    ∃ (s : Bytes) (rest : List Nat),
      s.length ≤ cap ∧ IsBad rest ∧ bits = s.flatMap huffWord ++ rest
  | .error .range => False

theorem huffmanDecode_reads (src : Bytes) (cap : Nat) :
    Decodes cap (src.flatMap byteBits) (huffmanDecode src cap) := by
  have hrun := (Walk.start cap).run (byteBits_lt src)
  rw [List.nil_append] at hrun
  unfold huffmanDecode
  split
  next e he =>
    rw [he] at hrun
    cases e with
    | buffer => exact hrun
    | malformed =>
      obtain ⟨s, rest, hlen, hbits⟩ := hrun
      exact ⟨s, eosWord ++ rest, hlen, ⟨eos_stuck rest, .inl (List.prefix_append _ _)⟩, hbits⟩
    | range => exact hrun.elim
  next st hst =>
    rw [hst] at hrun
    have hlen : st.out.reverse.length ≤ cap := by
      rw [List.length_reverse]
      exact hrun.room
    have hpad := isPadding_bitsOf hrun.fits
    have hbad : ¬ IsPadding (bitsOf st.nbits st.code) →
        Decodes cap (src.flatMap byteBits) (.error .malformed) := fun hno =>
      ⟨st.out.reverse, bitsOf st.nbits st.code, hlen,
        ⟨hrun.missed.stuck hrun.fits, .inr ⟨by simpa using hrun.short, hno⟩⟩, hrun.read⟩
    split
    next hlong =>
      refine hbad ?_
      rw [hpad]
      omega
    next hshort =>
    split
    next hones =>
      refine hbad ?_
      rw [hpad]
      exact fun h => hones.2 h.2
    next hones =>
      refine ⟨hlen, bitsOf st.nbits st.code, hpad.mpr ⟨by omega, ?_⟩, hrun.read⟩
      by_cases hzero : st.nbits = 0
      · have hfits := hrun.fits
        rw [hzero] at hfits ⊢
        omega
      · by_contra hcode
        exact hones ⟨by omega, hcode⟩

/-- The outcomes exclude each other. -/
theorem Decodes.unique {cap : Nat} {bits : List Nat} {x y : Except Error Bytes}
    (hx : Decodes cap bits x) (hy : Decodes cap bits y) : x = y := by
  -- a reading that stops at a stuck rest is the longest one
  have hlong : ∀ {s t : Bytes} {v w : List Nat}, bits = s.flatMap huffWord ++ v →
      bits = t.flatMap huffWord ++ w → Stuck huffWord w → s.length = cap + 1 →
      t.length ≤ cap → False := by
    intro s t v w hs ht hw hlen hle
    have hpre := (huffWord_free.reading_le (hs.symm.trans ht) hw).length_le
    omega
  match x, y, hx, hy with
  | .ok s, .ok t, ⟨_, v, hv, hs⟩, ⟨_, w, hw, ht⟩ =>
    rw [(huffWord_free.unique (hs.symm.trans ht) hv.stuck hw.stuck).1]
  | .error .buffer, .error .buffer, _, _ => rfl
  | .error .malformed, .error .malformed, _, _ => rfl
  | .ok s, .error .buffer, ⟨hle, v, hv, hs⟩, ⟨t, w, hlen, ht⟩ =>
    exact (hlong ht hs hv.stuck hlen hle).elim
  | .error .buffer, .ok t, ⟨s, v, hlen, hs⟩, ⟨hle, w, hw, ht⟩ =>
    exact (hlong hs ht hw.stuck hlen hle).elim
  | .error .buffer, .error .malformed, ⟨s, v, hlen, hs⟩, ⟨t, w, hle, hw, ht⟩ =>
    exact (hlong hs ht hw.1 hlen hle).elim
  | .error .malformed, .error .buffer, ⟨s, v, hle, hv, hs⟩, ⟨t, w, hlen, ht⟩ =>
    exact (hlong ht hs hv.1 hlen hle).elim
  | .ok s, .error .malformed, ⟨_, v, hv, hs⟩, ⟨t, w, _, hw, ht⟩ =>
    have hrest := (huffWord_free.unique (hs.symm.trans ht) hv.stuck hw.1).2
    exact absurd (hrest ▸ hv) hw.not_padding
  | .error .malformed, .ok t, ⟨s, v, _, hv, hs⟩, ⟨_, w, hw, ht⟩ =>
    have hrest := (huffWord_free.unique (hs.symm.trans ht) hv.1 hw.stuck).2
    exact absurd (hrest ▸ hw) hv.not_padding

/-- The decoder answers with the symbols exactly when the input is their code words and a
padding and they fit, with a full buffer exactly when the input starts with the code words of
more symbols than fit, and with malformed input exactly when after symbols that fit neither a
code word nor a padding follows. Its table lookup stays inside the table. -/
theorem huffman_exact (src : Bytes) (cap : Nat) :
    (∀ s, huffmanDecode src cap = .ok s ↔ s.length ≤ cap ∧
      ∃ pad, IsPadding pad ∧ src.flatMap byteBits = s.flatMap huffWord ++ pad) ∧
    (huffmanDecode src cap = .error .buffer ↔ ∃ (s : Bytes) (rest : List Nat),
      s.length = cap + 1 ∧ src.flatMap byteBits = s.flatMap huffWord ++ rest) ∧
    (huffmanDecode src cap = .error .malformed ↔ ∃ (s : Bytes) (rest : List Nat),
      s.length ≤ cap ∧ IsBad rest ∧ src.flatMap byteBits = s.flatMap huffWord ++ rest) ∧
    huffmanDecode src cap ≠ .error .range ∧
    ∀ bits bit st r, bits ++ [bit] <+: src.flatMap byteBits → huffBits cap {} bits = .ok st →
      huffHit st bit = some r → 2 * st.code + bit < 2 ^ 32 ∧ r.firstCode ≤ 2 * st.code + bit ∧
        r.firstIndex + (2 * st.code + bit - r.firstCode) < huffSymbols.length := by
  have hreads := huffmanDecode_reads src cap
  have hiff : ∀ x, huffmanDecode src cap = x ↔ Decodes cap (src.flatMap byteBits) x := by
    intro x
    exact ⟨fun h => h ▸ hreads, fun h => hreads.unique h⟩
  refine ⟨fun s => hiff (.ok s), hiff (.error .buffer), hiff (.error .malformed),
    fun h => (hiff (.error .range)).mp h, ?_⟩
  intro bits bit st r hpre hst hhit
  have hbit : ∀ b ∈ bits ++ [bit], b < 2 := fun b hb => byteBits_lt src b (hpre.subset hb)
  have hwalk := (Walk.start cap).run fun b hb => hbit b (List.mem_append_left _ hb)
  rw [List.nil_append, hst] at hwalk
  obtain ⟨hr, -, hle, hlt⟩ := hwalk.hit hhit
  obtain ⟨hidx, -⟩ := huffLengths_entry r hr (2 * st.code + bit - r.firstCode) (by omega)
  obtain ⟨hmax, hend, -⟩ := huffLengths_bits r hr
  have hpow : 2 ^ r.bits ≤ 2 ^ 32 := Nat.pow_le_pow_right (by decide) (by omega)
  exact ⟨by omega, hle, hidx⟩

/-- The string of the first example of the RFC's own appendix, decoded. -/
example : huffmanDecode [0xf1, 0xe3, 0xc2, 0xe5, 0xf2, 0x3a, 0x6b, 0xa0, 0xab, 0x90, 0xf4, 0xff]
    15 = .ok (ascii "www.example.com") := by
  decide +kernel

end Wtquic.Qpack
