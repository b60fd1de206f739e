-- SUMMARY: Static-only QPACK: prefixed integers, Huffman strings, field sections.
import Wtquic.Proto.QpackTables

namespace Wtquic.Qpack

/-! # Static-only QPACK

The model of `qpack_static.c`. A decode position is the list of the bytes left;
the scratch buffer is the number of literal bytes it already holds. -/

/-- `WTQ_QPACK_MAX_INT`. -/
def maxInt : Nat := 2 ^ 62 - 1

/-- The error half of `wtq_qpack_status_t` for the section codec. -/
inductive Error where
  | buffer
  | malformed
  | range
  deriving DecidableEq, Repr

/-! ## Prefixed integers -/

/-- More continuation bytes than any 62-bit value needs. -/
def maxDigits : Nat := 10

/-- The `do ... while` of `int_encoded_len`: continuation bytes of a value. -/
def tailLen : Nat → Nat → Nat
  | 0, _ => 0
  | fuel + 1, value => if value / 128 = 0 then 1 else 1 + tailLen fuel (value / 128)

/-- `int_encoded_len`. -/
def intEncodedLen (value prefixBits : Nat) : Nat :=
  let maxPrefix := 2 ^ prefixBits - 1
  if value < maxPrefix then 1 else 1 + tailLen maxDigits (value - maxPrefix)

/-- The continuation bytes of a prefixed integer. -/
def intTail : Nat → Nat → Bytes
  | 0, _ => []
  | fuel + 1, value =>
    if value ≥ 128 then UInt8.ofNat (128 + value % 128) :: intTail fuel (value / 128)
    else [UInt8.ofNat value]

/-- `wtq_qpack_int_encode`. -/
def intEncode (value : Nat) (firstByteFlags : UInt8) (prefixBits cap : Nat) :
    Except Error Bytes :=
  if prefixBits < 3 ∨ prefixBits > 8 ∨ value > maxInt then .error .range
  else
    let maxPrefix := 2 ^ prefixBits - 1
    if cap < intEncodedLen value prefixBits then .error .buffer
    else if value < maxPrefix then .ok [firstByteFlags ||| UInt8.ofNat value]
    else
      .ok ((firstByteFlags ||| UInt8.ofNat maxPrefix) :: intTail maxDigits (value - maxPrefix))

/-- The outcomes of an integer decode. -/
inductive IntResult where
  | ok (value consumed : Nat)
  | needMore
  | malformed
  deriving DecidableEq, Repr

/-- The continuation loop of `wtq_qpack_int_decode`. -/
def intDecodeTail : Bytes → Nat → Nat → Nat → IntResult
  | [], _, _, _ => .needMore
  | b :: rest, shift, v, i =>
    let chunk := b.toNat % 128
    if shift > 62 ∨ (shift > 0 ∧ chunk > maxInt / 2 ^ shift) then .malformed
    else
      let v := v + chunk * 2 ^ shift
      if v > maxInt then .malformed
      else if b.toNat < 128 then .ok v (i + 1)
      else intDecodeTail rest (shift + 7) v (i + 1)

/-- `wtq_qpack_int_decode`. -/
def intDecode (src : Bytes) (prefixBits : Nat) : IntResult :=
  if prefixBits < 3 ∨ prefixBits > 8 then .malformed
  else
    match src with
    | [] => .needMore
    | b :: rest =>
      let v := b.toNat % 2 ^ prefixBits
      if v = 2 ^ prefixBits - 1 then intDecodeTail rest 0 v 1 else .ok v 1

/-! ## Static table -/

/-- `wtq_qpack_static_get`. -/
def staticGet (index : Nat) : Option (Bytes × Bytes) := staticTable[index]?

/-- `wtq_qpack_static_find`. -/
def staticFind (name value : Bytes) : Option Nat :=
  staticTable.findIdx? fun e => e.1 == name && e.2 == value

/-- `wtq_qpack_static_find_name`. -/
def staticFindName (name : Bytes) : Option Nat :=
  staticTable.findIdx? fun e => e.1 == name

/-! ## Huffman strings -/

/-- The decoder's walk: the code read so far, its length, the table row reached,
and the symbols written (newest first). -/
structure HuffState where
  code : Nat := 0
  nbits : Nat := 0
  row : List HuffRow := huffLengths
  out : Bytes := []
  deriving DecidableEq, Repr

/-- One input bit of `huffman_decode`. -/
def huffBit (cap : Nat) (st : HuffState) (bit : Nat) : Except Error HuffState :=
  let code := 2 * st.code + bit
  let nbits := st.nbits + 1
  let row := st.row.dropWhile fun r => r.bits < nbits
  let hit := match row with
    | r :: _ => if r.bits = nbits ∧ code < r.firstCode + r.count then some r else none
    | [] => none
  match hit with
  | some r =>
    if st.out.length ≥ cap then .error .buffer
    else
      .ok { out := huffSymbols.getD (r.firstIndex + (code - r.firstCode)) 0 :: st.out }
  | none =>
    if nbits ≥ huffEosBits then .error .malformed
    else .ok { code, nbits, row, out := st.out }

/-- The bits of a byte, most significant first. -/
def byteBits (b : UInt8) : List Nat :=
  [7, 6, 5, 4, 3, 2, 1, 0].map fun i => b.toNat / 2 ^ i % 2

def huffBits (cap : Nat) : HuffState → List Nat → Except Error HuffState
  | st, [] => .ok st
  | st, bit :: bits =>
    match huffBit cap st bit with
    | .error e => .error e
    | .ok st => huffBits cap st bits

/-- `huffman_decode`. The padding is at most seven bits, all ones. -/
def huffmanDecode (src : Bytes) (cap : Nat) : Except Error Bytes :=
  match huffBits cap {} (src.flatMap byteBits) with
  | .error e => .error e
  | .ok st =>
    if st.nbits > 7 then .error .malformed
    else if st.nbits > 0 ∧ st.code ≠ 2 ^ st.nbits - 1 then .error .malformed
    else .ok st.out.reverse

/-- `decode_string`: the decoded literal and the bytes after it. `cap` is the room
left in the scratch buffer. -/
def decodeString (src : Bytes) (prefixBits cap : Nat) : Except Error (Bytes × Bytes) :=
  match src with
  | [] => .error .malformed
  | b :: _ =>
    let huffman := b.toNat / 2 ^ prefixBits % 2 = 1
    match intDecode src prefixBits with
    | .ok slen c =>
      let rest := src.drop c
      if slen > rest.length then .error .malformed
      else if huffman then
        match huffmanDecode (rest.take slen) cap with
        | .error e => .error e
        | .ok s => .ok (s, rest.drop slen)
      else if slen > cap then .error .buffer
      else .ok (rest.take slen, rest.drop slen)
    | _ => .error .malformed

/-! ## Field sections -/

/-- `wtq_qpack_field_t`. -/
structure Field where
  name : Bytes
  value : Bytes
  neverIndex : Bool := false
  deriving DecidableEq, Repr

/-- One field line: the field, the bytes after it, and the scratch bytes it used. -/
def decodeField (src : Bytes) (cap : Nat) : Except Error (Field × Bytes × Nat) :=
  match src with
  | [] => .error .malformed
  | b :: _ =>
    let bit (k : Nat) : Bool := b.toNat / 2 ^ k % 2 == 1
    if bit 7 then
      -- indexed field line: static entries only
      if !bit 6 then .error .malformed
      else
        match intDecode src 6 with
        | .ok idx c =>
          match staticGet idx with
          | none => .error .malformed
          | some (name, value) => .ok ({ name, value }, src.drop c, 0)
        | _ => .error .malformed
    else if bit 6 then
      -- literal with a static name reference
      if !bit 4 then .error .malformed
      else
        match intDecode src 4 with
        | .ok idx c =>
          match staticGet idx with
          | none => .error .malformed
          | some (name, _) =>
            match decodeString (src.drop c) 7 cap with
            | .error e => .error e
            | .ok (value, rest) =>
              .ok ({ name, value, neverIndex := bit 5 }, rest, value.length)
        | _ => .error .malformed
    else if bit 5 then
      -- literal with a literal name
      match decodeString src 3 cap with
      | .error e => .error e
      | .ok (name, rest) =>
        match decodeString rest 7 (cap - name.length) with
        | .error e => .error e
        | .ok (value, rest) =>
          .ok ({ name, value, neverIndex := bit 4 }, rest, name.length + value.length)
    else .error .malformed

/-- The field loop. Every field line consumes a byte, so `fuel = len` suffices. -/
def decodeFields (maxFields scratchCap : Nat) :
    Nat → Bytes → Nat → Nat → Except Error (List Field × Nat)
  | _, [], _, used => .ok ([], used)
  | 0, _ :: _, _, _ => .error .malformed
  | fuel + 1, src, count, used =>
    match decodeField src (scratchCap - used) with
    | .error e => .error e
    | .ok (f, rest, n) =>
      if count ≥ maxFields then .error .buffer
      else
        match decodeFields maxFields scratchCap fuel rest (count + 1) (used + n) with
        | .error e => .error e
        | .ok (fs, used) => .ok (f :: fs, used)

/-- `wtq_qpack_decode_section`: the fields, and the scratch bytes their literals
use. Literals are written one after the other, so that is also the offset
`scratch_high_water` finds. -/
def decodeSection (src : Bytes) (maxFields scratchCap : Nat) :
    Except Error (List Field × Nat) :=
  match intDecode src 8 with
  | .ok ric c =>
    if ric ≠ 0 then .error .malformed
    else
      match src.drop c with
      | [] => .error .malformed
      | b :: rest =>
        match intDecode (b :: rest) 7 with
        | .ok deltaBase c =>
          if b.toNat ≥ 128 ∧ ric ≤ deltaBase then .error .malformed
          else
            decodeFields maxFields scratchCap ((b :: rest).drop c).length
              ((b :: rest).drop c) 0 0
        | _ => .error .malformed
  | _ => .error .malformed

/-- `field_encoded_len`. -/
def fieldEncodedLen (f : Field) : Nat :=
  match staticFind f.name f.value with
  | some idx => intEncodedLen idx 6
  | none =>
    match staticFindName f.name with
    | some nidx =>
      intEncodedLen nidx 4 + intEncodedLen f.value.length 7 + f.value.length
    | none =>
      intEncodedLen f.name.length 3 + f.name.length
        + intEncodedLen f.value.length 7 + f.value.length

/-- One field line of the encoder; `cap` is the room left. -/
def encodeField (f : Field) (cap : Nat) : Except Error Bytes :=
  match staticFind f.name f.value with
  | some idx => intEncode idx 0xc0 6 cap
  | none =>
    match staticFindName f.name with
    | some nidx => do
      let i ← intEncode nidx (0x40 ||| (if f.neverIndex then 0x20 else 0) ||| 0x10) 4 cap
      let l ← intEncode f.value.length 0x00 7 (cap - i.length)
      return i ++ l ++ f.value
    | none => do
      let n ← intEncode f.name.length (0x20 ||| (if f.neverIndex then 0x10 else 0)) 3 cap
      let l ← intEncode f.value.length 0x00 7 (cap - n.length - f.name.length)
      return n ++ f.name ++ l ++ f.value

def encodeFields : List Field → Nat → Except Error Bytes
  | [], _ => .ok []
  | f :: fs, cap => do
    let line ← encodeField f cap
    let tail ← encodeFields fs (cap - line.length)
    return line ++ tail

/-- `wtq_qpack_encode_section`. -/
def encodeSection (fields : List Field) (cap : Nat) : Except Error Bytes :=
  if fields.any fun f => f.name.length > maxInt || f.value.length > maxInt then .error .range
  else if cap < 2 + (fields.map fieldEncodedLen).sum then .error .buffer
  else do
    let body ← encodeFields fields (cap - 2)
    return 0x00 :: 0x00 :: body

end Wtquic.Qpack
