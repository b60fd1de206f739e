-- SUMMARY: Field sections: what the encoder writes, the decoder reads back.
import Wtquic.Proto.QpackInt

namespace Wtquic.Qpack

/-! # Field sections -/

/-! ## Flags and prefixes -/

/-- Flags above the prefix and a value in it do not meet. -/
theorem toNat_or_low {flags : UInt8} {p v : Nat} (hp : p ≤ 8) (hf : flags.toNat % 2 ^ p = 0)
    (hv : v < 2 ^ p) : (flags ||| UInt8.ofNat v).toNat = flags.toNat + v := by
  have hpow : 2 ^ p ≤ 256 := by simpa using Nat.pow_le_pow_right (n := 2) (by omega) hp
  have hbyte : (UInt8.ofNat v).toNat = v := by
    simp
    omega
  have hflags : flags.toNat = 2 ^ p * (flags.toNat / 2 ^ p) := by
    have := Nat.div_add_mod flags.toNat (2 ^ p)
    omega
  rw [UInt8.toNat_or, hbyte, hflags, Nat.two_pow_add_eq_or_of_lt hv]

/-- The first byte of an encoded integer shows the flags. -/
theorem intEncode_head {value p : Nat} {flags : UInt8} {cap : Nat} {enc : Bytes} (hp : p ≤ 8)
    (hf : flags.toNat % 2 ^ p = 0) (h : intEncode value flags p cap = .ok enc) :
    ∃ b tail, enc = b :: tail ∧ b.toNat / 2 ^ p = flags.toNat / 2 ^ p := by
  have hpow : 0 < 2 ^ p := Nat.two_pow_pos p
  have hdiv : ∀ v < 2 ^ p, (flags.toNat + v) / 2 ^ p = flags.toNat / 2 ^ p := by
    intro v hv
    obtain ⟨k, hk⟩ := Nat.dvd_of_mod_eq_zero hf
    rw [hk, Nat.mul_add_div hpow, Nat.div_eq_of_lt hv, Nat.mul_div_cancel_left _ hpow, Nat.add_zero]
  unfold intEncode at h
  split at h
  · cases h
  dsimp only at h
  split at h
  · cases h
  split at h
  · next hlt =>
    cases h
    exact ⟨_, _, rfl, by rw [toNat_or_low hp hf (by omega), hdiv _ (by omega)]⟩
  · cases h
    exact ⟨_, _, rfl, by rw [toNat_or_low hp hf (by omega), hdiv _ (by omega)]⟩

/-! ## String literals -/

/-- A plain literal is read back. `flags` has the H bit clear. -/
theorem decodeString_plain {s : Bytes} {flags : UInt8} {p cap room : Nat} {enc : Bytes}
    (rest : Bytes) (hp : 3 ≤ p) (hp' : p < 8) (hf : flags.toNat % 2 ^ p = 0)
    (hplain : flags.toNat / 2 ^ p % 2 = 0) (h : intEncode s.length flags p cap = .ok enc)
    (hroom : s.length ≤ room) : decodeString (enc ++ s ++ rest) p room = .ok (s, rest) := by
  obtain ⟨b, tail, rfl, hb⟩ := intEncode_head (by omega) hf h
  have hread := (intDecode_encode hp (by omega) hf h).1 (s ++ rest)
  rw [List.append_assoc]
  unfold decodeString
  rw [hread]
  simp only [List.cons_append, hb, hplain]
  have hdrop : (b :: (tail ++ (s ++ rest))).drop (b :: tail).length = s ++ rest := by
    rw [← List.cons_append, List.drop_left]
  rw [hdrop, if_neg (by simp), if_neg (by simp), if_neg (Nat.not_lt.mpr hroom), List.take_left,
    List.drop_left]

/-! ## Field lines -/

/-- The scratch bytes a field line uses: those of its literals. -/
def Field.literalLen (f : Field) : Nat :=
  match staticFind f.name f.value with
  | some _ => 0
  | none =>
    match staticFindName f.name with
    | some _ => f.value.length
    | none => f.name.length + f.value.length

theorem staticFind_some {name value : Bytes} {idx : Nat} (h : staticFind name value = some idx) :
    staticGet idx = some (name, value) ∧ idx ≤ maxInt := by
  obtain ⟨hlt, hp, -⟩ := List.findIdx?_eq_some_iff_getElem.mp h
  simp only [Bool.and_eq_true, beq_iff_eq] at hp
  have hlen : staticTable.length = 99 := by decide
  refine ⟨?_, by simp only [maxInt]; omega⟩
  rw [staticGet, List.getElem?_eq_getElem hlt, ← hp.1, ← hp.2]

theorem staticFindName_some {name : Bytes} {idx : Nat} (h : staticFindName name = some idx) :
    ∃ value, staticGet idx = some (name, value) ∧ idx ≤ maxInt := by
  obtain ⟨hlt, hp, -⟩ := List.findIdx?_eq_some_iff_getElem.mp h
  simp only [beq_iff_eq] at hp
  have hlen : staticTable.length = 99 := by decide
  refine ⟨staticTable[idx].2, ?_, by simp only [maxInt]; omega⟩
  rw [staticGet, List.getElem?_eq_getElem hlt, ← hp]

/-- The result of a step that went well. -/
theorem bind_ok {α β : Type} {x : Except Error α} {f : α → Except Error β} {b : β}
    (h : (x >>= f) = .ok b) : ∃ a, x = .ok a ∧ f a = .ok b := by
  cases x with
  | error e => cases h
  | ok a => exact ⟨a, rfl, h⟩

/-- An indexed field line. -/
theorem decodeField_indexed {name value : Bytes} {idx cap room : Nat} {line : Bytes}
    (rest : Bytes) (hget : staticGet idx = some (name, value))
    (h : intEncode idx 0xc0 6 cap = .ok line) :
    decodeField (line ++ rest) room = .ok ({ name, value }, rest, 0) := by
  obtain ⟨b, tail, rfl, hb⟩ := intEncode_head (by decide) (by decide) h
  have hread := (intDecode_encode (by decide) (by decide) (by decide) h).1 rest
  have hthree : b.toNat / 64 = 3 := hb
  unfold decodeField
  rw [List.cons_append] at hread ⊢
  simp only [hread]
  rw [if_pos (by simp; omega), if_neg (by simp; omega)]
  simp only [hget]
  rw [← List.cons_append, List.drop_left]

/-- A literal with a static name. -/
theorem decodeField_named {name value value' : Bytes} {idx cap cap' room : Nat} {never : Bool}
    {i l : Bytes} (rest : Bytes) (hget : staticGet idx = some (name, value'))
    (hi : intEncode idx (0x40 ||| (if never then 0x20 else 0) ||| 0x10) 4 cap = .ok i)
    (hl : intEncode value.length 0x00 7 cap' = .ok l) (hroom : value.length ≤ room) :
    decodeField (i ++ (l ++ value ++ rest)) room
      = .ok ({ name, value, neverIndex := never }, rest, value.length) := by
  have hflags : (0x40 ||| (if never then 0x20 else 0) ||| 0x10 : UInt8).toNat % 2 ^ 4 = 0 ∧
      (0x40 ||| (if never then 0x20 else 0) ||| 0x10 : UInt8).toNat / 2 ^ 4
        = if never then 7 else 5 := by
    cases never <;> decide
  obtain ⟨b, tail, rfl, hb⟩ := intEncode_head (by decide) hflags.1 hi
  have hread := (intDecode_encode (by decide) (by decide) hflags.1 hi).1 (l ++ value ++ rest)
  have hvalue := decodeString_plain rest (by decide) (by decide) (by decide) (by decide) hl hroom
  have hbits : b.toNat / 16 = if never then 7 else 5 := hb.trans hflags.2
  have hnever : (b.toNat / 2 ^ 5 % 2 == 1) = never := by
    cases never <;> simp at hbits <;> simp <;> omega
  have hfive : b.toNat / 16 = 7 ∨ b.toNat / 16 = 5 := by
    cases never <;> simp_all
  unfold decodeField
  rw [List.cons_append] at hread ⊢
  simp only [hread, hnever]
  rw [if_neg (by simp; omega), if_pos (by simp; omega), if_neg (by simp; omega)]
  simp only [hget]
  rw [← List.cons_append, List.drop_left, hvalue]

/-- A literal with a literal name. -/
theorem decodeField_literal {name value : Bytes} {cap cap' room : Nat} {never : Bool}
    {n l : Bytes} (rest : Bytes)
    (hn : intEncode name.length (0x20 ||| (if never then 0x10 else 0)) 3 cap = .ok n)
    (hl : intEncode value.length 0x00 7 cap' = .ok l) (hroom : name.length + value.length ≤ room) :
    decodeField (n ++ name ++ (l ++ value ++ rest)) room
      = .ok ({ name, value, neverIndex := never }, rest, name.length + value.length) := by
  have hflags : (0x20 ||| (if never then 0x10 else 0) : UInt8).toNat % 2 ^ 3 = 0 ∧
      (0x20 ||| (if never then 0x10 else 0) : UInt8).toNat / 2 ^ 3 = if never then 6 else 4 := by
    cases never <;> decide
  have hplain : (0x20 ||| (if never then 0x10 else 0) : UInt8).toNat / 2 ^ 3 % 2 = 0 := by
    rw [hflags.2]
    cases never <;> rfl
  have hname := decodeString_plain (l ++ value ++ rest) (by decide) (by decide) hflags.1 hplain hn
    (show name.length ≤ room by omega)
  have hvalue := decodeString_plain rest (by decide) (by decide) (by decide) (by decide) hl
    (show value.length ≤ room - name.length by omega)
  obtain ⟨b, tail, rfl, hb⟩ := intEncode_head (by decide) hflags.1 hn
  have hbits : b.toNat / 8 = if never then 6 else 4 := hb.trans hflags.2
  have hnever : (b.toNat / 2 ^ 4 % 2 == 1) = never := by
    cases never <;> simp at hbits <;> simp <;> omega
  have hfour : b.toNat / 8 = 6 ∨ b.toNat / 8 = 4 := by
    cases never <;> simp_all
  unfold decodeField
  rw [List.cons_append, List.cons_append] at hname ⊢
  simp only [hnever]
  rw [if_neg (by simp; omega), if_neg (by simp; omega), if_pos (by simp; omega), hname]
  simp only [hvalue]

/-- The field line that the encoder writes has the length that was computed before, and the
decoder reads the field back from it. -/
theorem decodeField_encode {f : Field} {cap room : Nat} {line : Bytes} (rest : Bytes)
    (h : encodeField f cap = .ok line) (hroom : f.literalLen ≤ room) :
    ∃ n, decodeField (line ++ rest) room
      = .ok ({ name := f.name, value := f.value, neverIndex := n }, rest, f.literalLen) := by
  unfold encodeField at h
  unfold Field.literalLen at hroom ⊢
  cases hfind : staticFind f.name f.value with
  | some idx =>
    simp only [hfind] at h ⊢
    exact ⟨_, decodeField_indexed rest (staticFind_some hfind).1 h⟩
  | none =>
    simp only [hfind] at h hroom ⊢
    cases hname : staticFindName f.name with
    | some nidx =>
      simp only [hname] at h hroom ⊢
      obtain ⟨value, hget, -⟩ := staticFindName_some hname
      obtain ⟨i, hi, h⟩ := bind_ok h
      obtain ⟨l, hl, h⟩ := bind_ok h
      cases h
      rw [List.append_assoc i, List.append_assoc i]
      exact ⟨_, decodeField_named rest hget hi hl hroom⟩
    | none =>
      simp only [hname] at h hroom ⊢
      obtain ⟨n, hn, h⟩ := bind_ok h
      obtain ⟨l, hl, h⟩ := bind_ok h
      cases h
      rw [List.append_assoc (n ++ f.name), List.append_assoc (n ++ f.name)]
      exact ⟨_, decodeField_literal rest hn hl hroom⟩

theorem encodeField_length {f : Field} {cap : Nat} {line : Bytes}
    (h : encodeField f cap = .ok line) : line.length = fieldEncodedLen f ∧ 0 < line.length := by
  have hpos : ∀ value p, 0 < intEncodedLen value p := by
    intro value p
    unfold intEncodedLen
    dsimp only
    split <;> omega
  unfold encodeField at h
  unfold fieldEncodedLen
  cases hfind : staticFind f.name f.value with
  | some idx =>
    simp only [hfind] at h ⊢
    have hlen := intEncode_length h
    exact ⟨hlen, hlen ▸ hpos _ _⟩
  | none =>
    simp only [hfind] at h ⊢
    cases hname : staticFindName f.name with
    | some nidx =>
      simp only [hname] at h ⊢
      obtain ⟨i, hi, h⟩ := bind_ok h
      obtain ⟨l, hl, h⟩ := bind_ok h
      cases h
      have hli := intEncode_length hi
      have := hpos nidx 4
      rw [List.length_append, List.length_append, hli, intEncode_length hl]
      exact ⟨rfl, by omega⟩
    | none =>
      simp only [hname] at h ⊢
      obtain ⟨n, hn, h⟩ := bind_ok h
      obtain ⟨l, hl, h⟩ := bind_ok h
      cases h
      have hln := intEncode_length hn
      have := hpos f.name.length 3
      rw [List.length_append, List.length_append, List.length_append, hln, intEncode_length hl]
      exact ⟨rfl, by omega⟩

/-- With the room that was computed before, no part of a field line fails. -/
theorem encodeField_ok {f : Field} {cap : Nat} (hn : f.name.length ≤ maxInt)
    (hv : f.value.length ≤ maxInt) (hcap : fieldEncodedLen f ≤ cap) :
    ∃ line, encodeField f cap = .ok line := by
  have hint : ∀ value flags p cap, 3 ≤ p → p ≤ 8 → value ≤ maxInt →
      intEncodedLen value p ≤ cap → ∃ enc, intEncode value flags p cap = .ok enc :=
    fun value flags p cap hp hp' hv hcap => ⟨_, intEncode_eq flags hp hp' hv hcap⟩
  unfold encodeField
  unfold fieldEncodedLen at hcap
  cases hfind : staticFind f.name f.value with
  | some idx =>
    simp only [hfind] at hcap ⊢
    exact hint _ _ _ _ (by decide) (by decide) (staticFind_some hfind).2 hcap
  | none =>
    simp only [hfind] at hcap ⊢
    cases hname : staticFindName f.name with
    | some nidx =>
      simp only [hname] at hcap ⊢
      obtain ⟨value, -, hidx⟩ := staticFindName_some hname
      obtain ⟨i, hi⟩ := hint nidx (0x40 ||| (if f.neverIndex then 0x20 else 0) ||| 0x10) 4 cap
        (by decide) (by decide) hidx (by omega)
      have hlen := intEncode_length hi
      obtain ⟨l, hl⟩ := hint f.value.length 0x00 7 (cap - i.length) (by decide) (by decide) hv
        (by omega)
      exact ⟨i ++ l ++ f.value, by simp only [hi, hl, bind, Except.bind, pure, Except.pure]⟩
    | none =>
      simp only [hname] at hcap ⊢
      obtain ⟨n, hn'⟩ := hint f.name.length (0x20 ||| (if f.neverIndex then 0x10 else 0)) 3 cap
        (by decide) (by decide) hn (by omega)
      have hlen := intEncode_length hn'
      obtain ⟨l, hl⟩ := hint f.value.length 0x00 7 (cap - n.length - f.name.length) (by decide)
        (by decide) hv (by omega)
      exact ⟨n ++ f.name ++ l ++ f.value, by simp only [hn', hl, bind, Except.bind, pure, Except.pure]⟩

/-! ## Sections -/

/-- What a field list costs. -/
def fieldsLen (fields : List Field) : Nat := (fields.map fieldEncodedLen).sum

/-- The scratch bytes that the literals of a field list use. -/
def literalsLen (fields : List Field) : Nat := (fields.map Field.literalLen).sum

/-- The bytes of a field. -/
def Field.bytes (f : Field) : Bytes × Bytes := (f.name, f.value)

theorem encodeFields_ok {fields : List Field} {cap : Nat}
    (hf : ∀ f ∈ fields, f.name.length ≤ maxInt ∧ f.value.length ≤ maxInt)
    (hcap : fieldsLen fields ≤ cap) : ∃ body, encodeFields fields cap = .ok body := by
  induction fields generalizing cap with
  | nil => exact ⟨[], rfl⟩
  | cons f fs ih =>
    simp only [fieldsLen, List.map_cons, List.sum_cons] at hcap ih
    obtain ⟨hn, hv⟩ := hf f List.mem_cons_self
    have hroom : fieldEncodedLen f ≤ cap := by omega
    obtain ⟨line, hline⟩ := encodeField_ok hn hv hroom
    have hlen := (encodeField_length hline).1
    have hrest : (fs.map fieldEncodedLen).sum ≤ cap - line.length := by omega
    obtain ⟨tail, htail⟩ := ih (fun g hg => hf g (List.mem_cons_of_mem f hg)) hrest
    refine ⟨line ++ tail, ?_⟩
    simp only [encodeFields, hline, htail, bind, Except.bind, pure, Except.pure]

theorem encodeFields_length {fields : List Field} {cap : Nat} {body : Bytes}
    (h : encodeFields fields cap = .ok body) : body.length = fieldsLen fields := by
  induction fields generalizing cap body with
  | nil =>
    cases h
    rfl
  | cons f fs ih =>
    rw [encodeFields] at h
    obtain ⟨line, hline, h⟩ := bind_ok h
    obtain ⟨tail, htail, h⟩ := bind_ok h
    cases h
    have hlen := (encodeField_length hline).1
    simp only [List.length_append, hlen, ih htail, fieldsLen, List.map_cons, List.sum_cons]

/-- The lines of a field list are read back one by one. -/
theorem decodeFields_encode {fields : List Field} {cap : Nat} {body : Bytes}
    (h : encodeFields fields cap = .ok body) {maxFields scratchCap fuel count used : Nat}
    (hfuel : body.length ≤ fuel) (hcount : count + fields.length ≤ maxFields)
    (hused : used + literalsLen fields ≤ scratchCap) :
    ∃ fs, decodeFields maxFields scratchCap fuel body count used
        = .ok (fs, used + literalsLen fields) ∧
      fs.map Field.bytes = fields.map Field.bytes := by
  induction fields generalizing cap fuel count used body with
  | nil =>
    cases h
    refine ⟨[], ?_, rfl⟩
    cases fuel <;> rfl
  | cons f fs ih =>
    rw [encodeFields] at h
    obtain ⟨line, hline, h⟩ := bind_ok h
    obtain ⟨tail, htail, h⟩ := bind_ok h
    cases h
    obtain ⟨-, hpos⟩ := encodeField_length hline
    have hsum : literalsLen (f :: fs) = f.literalLen + literalsLen fs := rfl
    rw [hsum] at hused ⊢
    simp only [List.length_cons, List.length_append] at hfuel hcount
    have hroom : f.literalLen ≤ scratchCap - used := by omega
    obtain ⟨never, hfield⟩ := decodeField_encode tail hline hroom
    cases fuel with
    | zero => omega
    | succ fuel =>
      obtain ⟨b, bs, hcons⟩ := List.exists_cons_of_length_pos hpos
      obtain ⟨gs, hrest, hbytes⟩ := ih htail (show tail.length ≤ fuel by omega)
        (show count + 1 + fs.length ≤ maxFields by omega)
        (show used + f.literalLen + literalsLen fs ≤ scratchCap by omega)
      refine ⟨{ name := f.name, value := f.value, neverIndex := never } :: gs, ?_, ?_⟩
      · rw [hcons, List.cons_append] at hfield ⊢
        simp only [decodeFields, hfield]
        rw [if_neg (by omega), hrest]
        dsimp only
        rw [Nat.add_assoc]
      · simp only [List.map_cons, hbytes]
        rfl

theorem literalLen_le (f : Field) : f.literalLen ≤ fieldEncodedLen f := by
  unfold Field.literalLen fieldEncodedLen
  cases staticFind f.name f.value with
  | some idx => exact Nat.zero_le _
  | none =>
    cases staticFindName f.name with
    | some nidx => exact Nat.le_add_left _ _
    | none =>
      dsimp only
      omega

theorem literalsLen_le (fields : List Field) : literalsLen fields ≤ fieldsLen fields := by
  induction fields with
  | nil => exact Nat.le_refl 0
  | cons f fs ih => exact Nat.add_le_add (literalLen_le f) ih

/-- An encoded section has the length computed beforehand, and decodes to the same fields. -/
theorem decodeSection_encode {fields : List Field} {cap : Nat} {enc : Bytes}
    (h : encodeSection fields cap = .ok enc) : enc.length = 2 + fieldsLen fields ∧
      ∀ maxFields scratchCap, fields.length ≤ maxFields → literalsLen fields ≤ scratchCap →
        ∃ fs, decodeSection enc maxFields scratchCap = .ok (fs, literalsLen fields) ∧
          fs.map Field.bytes = fields.map Field.bytes := by
  unfold encodeSection at h
  split at h
  · cases h
  split at h
  · cases h
  obtain ⟨body, hbody, h⟩ := bind_ok h
  cases h
  refine ⟨?_, fun maxFields scratchCap hcount hused => ?_⟩
  · simp only [List.length_cons, encodeFields_length hbody]
    omega
  · obtain ⟨fs, hfs, hbytes⟩ := decodeFields_encode hbody (Nat.le_refl _)
      (show 0 + fields.length ≤ maxFields by omega)
      (show 0 + literalsLen fields ≤ scratchCap by omega)
    rw [Nat.zero_add] at hfs
    exact ⟨fs, hfs, hbytes⟩

/-- A field section is encoded when its lengths are in range and it fits; it then has the
length computed beforehand, and decoding it with room for its fields and its literals gives
back the same fields in the same order. -/
theorem section_codec (fields : List Field) (cap : Nat) :
    ((∃ enc, encodeSection fields cap = .ok enc) ↔
      (∀ f ∈ fields, f.name.length ≤ maxInt ∧ f.value.length ≤ maxInt) ∧
        2 + fieldsLen fields ≤ cap) ∧
    ∀ enc, encodeSection fields cap = .ok enc →
      enc.length = 2 + fieldsLen fields ∧
        ∀ maxFields scratchCap, fields.length ≤ maxFields → literalsLen fields ≤ scratchCap →
          ∃ fs, decodeSection enc maxFields scratchCap = .ok (fs, literalsLen fields) ∧
            fs.map Field.bytes = fields.map Field.bytes := by
  have hrange : (fields.any fun f => f.name.length > maxInt || f.value.length > maxInt) = false ↔
      ∀ f ∈ fields, f.name.length ≤ maxInt ∧ f.value.length ≤ maxInt := by
    simp
  constructor
  · constructor
    · rintro ⟨enc, h⟩
      unfold encodeSection at h
      split at h
      · cases h
      next hlen =>
      split at h
      · cases h
      next hcap =>
      exact ⟨hrange.mp (by simpa using hlen), Nat.not_lt.mp hcap⟩
    · rintro ⟨hlen, hcap⟩
      have hroom : fieldsLen fields ≤ cap - 2 := by omega
      obtain ⟨body, hbody⟩ := encodeFields_ok hlen hroom
      refine ⟨0x00 :: 0x00 :: body, ?_⟩
      unfold encodeSection
      rw [if_neg (by simpa using hrange.mpr hlen), if_neg (by exact Nat.not_lt.mpr hcap), hbody]
      rfl
  · exact fun enc h => decodeSection_encode h

/-- The section of a request with a path of its own. -/
theorem section_codec_path :
    ∃ enc fs, encodeSection [{ name := ascii ":method", value := ascii "CONNECT" },
        { name := ascii ":path", value := ascii "/chat" }] 512 = .ok enc ∧
      decodeSection enc 2 5 = .ok (fs, 5) ∧
      fs.map Field.bytes = [(ascii ":method", ascii "CONNECT"), (ascii ":path", ascii "/chat")] := by
  obtain ⟨hok, hread⟩ := section_codec [{ name := ascii ":method", value := ascii "CONNECT" },
    { name := ascii ":path", value := ascii "/chat" }] 512
  obtain ⟨enc, henc⟩ := hok.mpr (by decide)
  obtain ⟨fs, hfs, hbytes⟩ := (hread enc henc).2 2 5 (by decide) (by decide)
  exact ⟨enc, fs, henc, hfs, hbytes⟩

end Wtquic.Qpack
