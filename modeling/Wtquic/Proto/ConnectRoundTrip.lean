-- SUMMARY: Generated CONNECT requests and responses are read back as they were meant.
import Wtquic.Proto.ConnectRequest
import Wtquic.Proto.ConnectWalk
import Wtquic.Proto.SfGrammar
import Wtquic.Proto.SfRoom

namespace Wtquic.Connect

open Qpack (Field)

/-! # Round trips

The encoders check what they are given, the decoders check every field again. What passes the
former passes the latter, and the Structured Field values give back their strings. -/

/-! ## Values -/

theorem valueBytesValid_visible {first : Bool} {v : Bytes} (h : ∀ c ∈ v, 0x21 ≤ c ∧ c ≠ 0x7F) :
    valueBytesValid first v = true := by
  induction v generalizing first with
  | nil => rfl
  | cons c v ih =>
    obtain ⟨hc, hv⟩ := List.forall_mem_cons.mp h
    have hsp : ¬(c = 32 ∨ c = 9) := by
      rintro (rfl | rfl) <;> exact absurd hc.1 (by decide)
    have hctl : ¬(c < 0x21 ∨ c = 0x7F) := by
      rintro (hlt | hdel)
      · exact absurd hlt (UInt8.not_lt.mpr hc.1)
      · exact hc.2 hdel
    rw [valueBytesValid, if_neg hsp, if_neg hctl]
    exact ih hv

/-- Spaces inside a value are fine when something visible follows. -/
theorem valueBytesValid_inner {w tail : Bytes} (h : ∀ c ∈ w, 0x20 ≤ c ∧ c ≠ 0x7F)
    (htail : tail ≠ []) (hvalid : valueBytesValid false tail = true) :
    valueBytesValid false (w ++ tail) = true := by
  induction w with
  | nil => exact hvalid
  | cons c w ih =>
    obtain ⟨hc, hw⟩ := List.forall_mem_cons.mp h
    rw [List.cons_append, valueBytesValid]
    split
    · simp [htail, ih hw]
    · next hsp =>
      have hctl : ¬(c < 0x21 ∨ c = 0x7F) := by
        rintro (hlt | hdel)
        · refine hsp (.inl (UInt8.le_antisymm ?_ hc.1))
          rw [UInt8.le_iff_toNat_le]
          rw [UInt8.lt_iff_toNat_lt] at hlt
          exact Nat.le_of_lt_succ hlt
        · exact hc.2 hdel
      rw [if_neg hctl]
      exact ih hw

theorem valueIsValid_quoted {w : Bytes} (h : ∀ c ∈ w, 0x20 ≤ c ∧ c ≠ 0x7F) :
    valueIsValid (34 :: w ++ [34]) = true := by
  have hw : valueBytesValid false (w ++ [34]) = true :=
    valueBytesValid_inner h (List.cons_ne_nil _ _) (by decide)
  rw [List.cons_append, valueIsValid, valueBytesValid, if_neg (by decide), if_neg (by decide)]
  exact hw

theorem isTokenChar_visible {c : UInt8} (h : isTokenChar c = true) : 0x21 ≤ c ∧ c ≠ 0x7F := by
  have hmark : ∀ c ∈ ascii "!#$%&'*+-.^_`|~", (0x21 : UInt8) ≤ c ∧ c ≠ 0x7F := by
    decide +kernel
  unfold isTokenChar at h
  simp only [Bool.or_eq_true, Bool.and_eq_true, decide_eq_true_eq, List.contains_iff_mem] at h
  obtain ((⟨hlo, hhi⟩ | ⟨hlo, hhi⟩) | ⟨hlo, hhi⟩) | hmem := h
  case inr => exact hmark c hmem
  all_goals
    refine ⟨UInt8.le_trans (by decide) hlo, ?_⟩
    rintro rfl
    exact absurd hhi (by decide)

theorem valueIsValid_token {v : Bytes} (h : valueIsToken v = true) : valueIsValid v = true := by
  simp only [valueIsToken, Bool.and_eq_true, List.all_eq_true] at h
  exact valueBytesValid_visible fun c hc => isTokenChar_visible (h.2 c hc)

/-! ## Structured Field values -/

theorem escape_plain {s : Bytes} (h : Sf.stringValid s = true) :
    ∀ c ∈ s.flatMap Sf.escape, 0x20 ≤ c ∧ c ≠ 0x7F := by
  intro c hc
  obtain ⟨b, hb, hcb⟩ := List.mem_flatMap.mp hc
  have hbyte := List.all_eq_true.mp h b hb
  simp only [Sf.isStringByte, Bool.and_eq_true, decide_eq_true_eq] at hbyte
  have hplain : 0x20 ≤ b ∧ b ≠ 0x7F := by
    refine ⟨hbyte.1, ?_⟩
    rintro rfl
    exact absurd hbyte.2 (by decide)
  unfold Sf.escape at hcb
  split at hcb
  · obtain rfl | hcb := List.mem_cons.mp hcb
    · decide
    · rw [List.mem_singleton.mp hcb]
      exact hplain
  · rw [List.mem_singleton.mp hcb]
    exact hplain

/-- An encoded list begins and ends with a quote. -/
theorem encodeMembers_quoted {ss : List Bytes} (hne : ss ≠ [])
    (h : ∀ s ∈ ss, Sf.stringValid s = true) :
    ∃ w, Sf.encodeMembers ss = 34 :: w ++ [34] ∧ ∀ c ∈ w, 0x20 ≤ c ∧ c ≠ 0x7F := by
  induction ss with
  | nil => exact absurd rfl hne
  | cons s ss ih =>
    obtain ⟨hs, hss⟩ := List.forall_mem_cons.mp h
    cases ss with
    | nil => exact ⟨s.flatMap Sf.escape, rfl, escape_plain hs⟩
    | cons t ss =>
      obtain ⟨w, hw, hplain⟩ := ih (List.cons_ne_nil t ss) hss
      refine ⟨s.flatMap Sf.escape ++ [34, 44, 32, 34] ++ w, ?_, ?_⟩
      · rw [Sf.encodeMembers, hw]
        · simp
        · exact List.cons_ne_nil t ss
      · intro c hc
        simp only [List.mem_append, or_assoc] at hc
        obtain hc | hc | hc := hc
        · exact escape_plain hs c hc
        · have hsep : ∀ c ∈ ([34, 44, 32, 34] : Bytes), (0x20 : UInt8) ≤ c ∧ c ≠ 0x7F := by
            decide +kernel
          exact hsep c hc
        · exact hplain c hc

/-- The encoded list of an offer is read back, strictly or leniently. -/
theorem stringParseList_encode {ss : List Bytes} (hne : ss ≠ [])
    (h : ∀ s ∈ ss, Sf.stringValid s = true) (lenientTokens : Bool) {room maxMembers : Nat}
    (hroom : (ss.map List.length).sum ≤ room) (hcount : ss.length ≤ maxMembers) :
    Sf.stringParseList (Sf.encodeMembers ss) lenientTokens room maxMembers = .ok ss := by
  obtain ⟨hmembers, -⟩ := Sf.members_encode hne h
  have hsp : Sf.Sp [] := nofun
  have hows : Sf.Ows [] := nofun
  have hlist := Sf.SfList.members hsp hmembers hows
  rw [List.nil_append, List.append_nil] at hlist
  have hstrict := (Sf.stringParseList_iff _ _ _ _).mpr ⟨hlist, hroom, hcount⟩
  cases lenientTokens with
  | false => exact hstrict
  | true => exact Sf.stringParseList_lenient hstrict

theorem stringParseItem_encode {s : Bytes} (h : Sf.stringValid s = true) (lenientTokens : Bool)
    {room : Nat} (hroom : s.length ≤ room) :
    Sf.stringParseItem (34 :: s.flatMap Sf.escape ++ [34]) lenientTokens room = .ok s := by
  have hsp : Sf.Sp [] := nofun
  have hitem := Sf.SfItem.mk hsp (Sf.member_encode h) hsp
  rw [List.nil_append, List.append_nil] at hitem
  have hstrict := (Sf.stringParseItem_iff _ _ _).mpr ⟨hitem, hroom⟩
  cases lenientTokens with
  | false => exact hstrict
  | true => exact Sf.stringParseItem_lenient hstrict

/-! ## The generated fields -/

/-- Pseudo-headers and then regular fields. -/
theorem layout_pseudoFirst (m n : Nat) :
    (List.replicate m true ++ List.replicate n false).Pairwise fun a b => b = true → a = true := by
  refine List.pairwise_append.mpr ⟨List.pairwise_replicate.mpr ?_,
    List.pairwise_replicate.mpr ?_, ?_⟩
  · exact .inr id
  · exact .inr id
  · intro a ha b _ _
    exact List.eq_of_mem_replicate ha

/-- The names of the generated fields pass the walk. -/
theorem names_ok :
    (∀ name ∈ [ascii ":method", ascii ":scheme", ascii ":authority", ascii ":path",
      ascii ":protocol", ascii ":status"], nameIsValid name = true) ∧
    ∀ name ∈ [ascii "origin", ascii "sec-webtransport-http3-draft02",
      ascii "wt-available-protocols", ascii "sec-webtransport-http3-draft", ascii "wt-protocol"],
      nameIsValid name = true ∧ isForbidden name = false ∧ name ≠ ascii "te" := by
  decide +kernel

theorem requestFields_walk {authority path : Bytes} {origin : Option Bytes} {token : Bytes}
    {mark : Bool} {offer : Option Bytes} (hauthority : valueIsValid authority = true)
    (hpath : valueIsValid path = true) (horigin : origin.all valueIsValid = true)
    (htoken : valueIsToken token = true) (hoffer : ∀ s ∈ offer, valueIsValid s = true) :
    walkFields true false (requestFields authority path origin token mark offer) = true := by
  obtain ⟨hpseudo, hregular⟩ := names_ok
  refine walkFields_iff.mpr ⟨?_, ?_, nofun⟩
  · simp only [requestFields, List.forall_mem_append, List.forall_mem_cons]
    refine ⟨⟨⟨⟨?_, ?_, ?_, ?_, ?_, nofun⟩, ?_⟩, ?_⟩, ?_⟩
    · exact .pseudo rfl (hpseudo _ (by simp)) (by decide)
    · exact .pseudo rfl (hpseudo _ (by simp)) (by decide)
    · exact .pseudo rfl (hpseudo _ (by simp)) hauthority
    · exact .pseudo rfl (hpseudo _ (by simp)) hpath
    · exact .pseudo rfl (hpseudo _ (by simp)) (valueIsValid_token htoken)
    · cases origin with
      | none => exact nofun
      | some o =>
        dsimp only
        split
        · exact nofun
        · obtain ⟨hname, hforbidden, hte⟩ := hregular (ascii "origin") (by simp)
          exact List.forall_mem_singleton.mpr (.regular hname horigin hforbidden hte)
    · cases mark with
      | false => exact nofun
      | true =>
        obtain ⟨hname, hforbidden, hte⟩ :=
          hregular (ascii "sec-webtransport-http3-draft02") (by simp)
        exact List.forall_mem_singleton.mpr (.regular hname (by decide) hforbidden hte)
    · cases offer with
      | none => exact nofun
      | some s =>
        obtain ⟨hname, hforbidden, hte⟩ := hregular (ascii "wt-available-protocols") (by simp)
        exact List.forall_mem_singleton.mpr (.regular hname (hoffer s rfl) hforbidden hte)
  · have hlayout : ∃ n, (requestFields authority path origin token mark offer).map isPseudo
        = List.replicate 5 true ++ List.replicate n false := by
      cases origin with
      | none =>
        cases mark <;> cases offer
        exacts [⟨0, rfl⟩, ⟨1, rfl⟩, ⟨1, rfl⟩, ⟨2, rfl⟩]
      | some o =>
        cases o with
        | nil =>
          cases mark <;> cases offer
          exacts [⟨0, rfl⟩, ⟨1, rfl⟩, ⟨1, rfl⟩, ⟨2, rfl⟩]
        | cons b o =>
          cases mark <;> cases offer
          exacts [⟨1, rfl⟩, ⟨2, rfl⟩, ⟨2, rfl⟩, ⟨3, rfl⟩]
    obtain ⟨n, hlayout⟩ := hlayout
    rw [pseudoFirst_iff, hlayout]
    exact layout_pseudoFirst 5 n

theorem responseFields_walk {status : Nat} {mark : Bool} {selected : Option Bytes}
    (hstatus : valueIsValid (statusDigits status) = true)
    (hselected : ∀ s ∈ selected, valueIsValid s = true) :
    walkFields false false (responseFields status mark selected) = true := by
  obtain ⟨hpseudo, hregular⟩ := names_ok
  refine walkFields_iff.mpr ⟨?_, ?_, nofun⟩
  · simp only [responseFields, List.forall_mem_append, List.forall_mem_singleton]
    refine ⟨⟨?_, ?_⟩, ?_⟩
    · exact .pseudo rfl (hpseudo _ (by simp)) hstatus
    · cases mark with
      | false => exact nofun
      | true =>
        obtain ⟨hname, hforbidden, hte⟩ :=
          hregular (ascii "sec-webtransport-http3-draft") (by simp)
        exact List.forall_mem_singleton.mpr (.regular hname (by decide) hforbidden hte)
    · cases selected with
      | none => exact nofun
      | some s =>
        obtain ⟨hname, hforbidden, hte⟩ := hregular (ascii "wt-protocol") (by simp)
        exact List.forall_mem_singleton.mpr (.regular hname (hselected s rfl) hforbidden hte)
  · have hlayout : ∃ n, (responseFields status mark selected).map isPseudo
        = List.replicate 1 true ++ List.replicate n false := by
      cases mark <;> cases selected
      exacts [⟨0, rfl⟩, ⟨1, rfl⟩, ⟨1, rfl⟩, ⟨2, rfl⟩]
    obtain ⟨n, hlayout⟩ := hlayout
    rw [pseudoFirst_iff, hlayout]
    exact layout_pseudoFirst 1 n

theorem requestFields_length (authority path : Bytes) (origin : Option Bytes) (token : Bytes)
    (mark : Bool) (offer : Option Bytes) :
    (requestFields authority path origin token mark offer).length ≤ maxFields := by
  unfold requestFields maxFields
  cases origin with
  | none => cases mark <;> cases offer <;> simp
  | some o => cases mark <;> cases offer <;> simp <;> split <;> simp

theorem responseFields_length (status : Nat) (mark : Bool) (selected : Option Bytes) :
    (responseFields status mark selected).length ≤ maxFields := by
  unfold responseFields maxFields
  cases mark <;> cases selected <;> simp

/-- An encoded section that passes the walk gets through `walk_init`. -/
theorem walkInit_encode {fields : List Field} {cap scratchCap : Nat} {sec : Bytes}
    {requestHeaders : Bool} (h : Qpack.encodeSection fields cap = .ok sec)
    (hcount : fields.length ≤ maxFields) (hscratch : Qpack.literalsLen fields ≤ scratchCap)
    (hwalk : walkFields requestHeaders false fields = true) :
    ∃ fs, walkInit sec scratchCap requestHeaders = .ok (fs, Qpack.literalsLen fields) ∧
      fs.map Field.bytes = fields.map Field.bytes := by
  obtain ⟨-, hread⟩ := Qpack.decodeSection_encode h
  obtain ⟨fs, hfs, hbytes⟩ := hread maxFields scratchCap hcount hscratch
  refine ⟨fs, ?_, hbytes⟩
  unfold walkInit
  rw [hfs]
  dsimp only
  rw [if_pos (by rwa [walkFields_bytes hbytes])]

/-! ## Requests -/

/-- The scratch bytes that a decoder of the request uses: the literals of the section, and the
unescaped protocols behind them. -/
def requestScratch (authority path : Bytes) (origin : Option Bytes) (protocols : List Bytes)
    (token : Bytes) (mark : Bool) : Nat :=
  Qpack.literalsLen (requestFields authority path origin (profileToken token) mark
    (offerValue protocols)) + (protocols.map List.length).sum

/-- Does a decoder with these options take the token for WebTransport? -/
def Opts.admits (opts : Opts) (token : Bytes) : Prop :=
  token = protocolToken ∨ token = protocolTokenLegacy ∧ opts.acceptLegacyProtocol = true

theorem offerValue_valid {protocols : List Bytes}
    (h : ∀ p ∈ protocols, p ≠ [] ∧ Sf.stringValid p = true) :
    ∀ s ∈ offerValue protocols, valueIsValid s = true := by
  intro s hs
  unfold offerValue at hs
  split at hs
  · cases hs
  · next hne =>
    obtain rfl : Sf.encodeMembers protocols = s := Option.some.inj hs
    obtain ⟨w, hw, hplain⟩ := encodeMembers_quoted (by simpa using hne) fun p hp => (h p hp).2
    rw [hw]
    exact valueIsValid_quoted hplain

theorem parseProtocolList_encode {protocols : List Bytes} (hne : protocols ≠ [])
    (h : ∀ p ∈ protocols, p ≠ [] ∧ Sf.stringValid p = true) (opts : Opts)
    {maxProtocols room : Nat} (hcount : protocols.length ≤ maxProtocols)
    (hroom : (protocols.map List.length).sum ≤ room) :
    parseProtocolList (Sf.encodeMembers protocols) opts maxProtocols room = .ok protocols := by
  have hparse := stringParseList_encode hne (fun p hp => (h p hp).2) opts.lenientSfTokens hroom
    hcount
  have hnonempty : ¬protocols.any (·.isEmpty) = true := by
    intro hany
    obtain ⟨p, hp, hnil⟩ := List.any_eq_true.mp hany
    exact (h p hp).1 (List.isEmpty_iff.mp hnil)
  unfold parseProtocolList
  rw [hparse]
  dsimp only
  rw [if_neg hnonempty]

theorem requestSlots_judge {authority path : Bytes} {origin : Option Bytes}
    {protocols : List Bytes} {token : Bytes} {mark : Bool} {opts : Opts} {maxProtocols room : Nat}
    (hauthority : authority ≠ []) (hpath : path ≠ []) (htoken : valueIsToken token = true)
    (hprotocols : ∀ p ∈ protocols, p ≠ [] ∧ Sf.stringValid p = true)
    (hadmits : opts.admits token) (hcount : protocols.length ≤ maxProtocols)
    (hroom : (protocols.map List.length).sum ≤ room) :
    (requestSlots authority path origin token mark (offerValue protocols)).judge opts maxProtocols
        room = .ok
      { authority, path, origin := origin.filter fun o => !o.isEmpty,
        legacyProtocol := token ≠ protocolToken,
        d02Marker := if mark then some (ascii "1") else none, protocols } := by
  have hwell : (requestSlots authority path origin token mark
      (offerValue protocols)).syntaxOk = true := by
    have hconst : valueIsToken (ascii "CONNECT") = true ∧ schemeIsValid (ascii "https") = true := by
      decide
    simp [RequestSlots.syntaxOk, requestSlots, htoken, hconst]
  have hpseudo : ¬(token ≠ protocolToken ∧
      (!(opts.acceptLegacyProtocol && token == protocolTokenLegacy)) = true) := by
    rintro ⟨hprofile, hlegacy⟩
    obtain htoken | ⟨htoken, haccept⟩ := hadmits
    · exact hprofile htoken
    · simp [htoken, haccept] at hlegacy
  have hempty : ¬(authority.isEmpty || path.isEmpty) = true := by
    simp [hauthority, hpath]
  unfold RequestSlots.judge
  rw [hwell, if_neg (by decide), if_neg (fun h => h rfl)]
  dsimp only [requestSlots]
  rw [if_neg hpseudo, if_neg (fun h => h rfl), if_neg hempty]
  unfold offerValue
  split
  · next hnone =>
    have hnil : protocols = [] := by
      by_contra hne
      rw [if_neg (by simpa using hne)] at hnone
      cases hnone
    rw [hnil]
  · next value hvalue =>
    have hne : protocols ≠ [] := by
      rintro rfl
      cases hvalue
    rw [if_neg (by simpa using hne)] at hvalue
    cases hvalue
    rw [parseProtocolList_encode hne hprotocols opts hcount hroom]

theorem decodeRequest_of_encode {authority path : Bytes} {origin : Option Bytes}
    {protocols : List Bytes} {token : Bytes} {mark : Bool} {cap : Nat} {sec : Bytes}
    (h : encodeRequestD02 authority path origin protocols token mark cap = .ok sec)
    {opts : Opts} {maxProtocols scratchCap : Nat} (hadmits : opts.admits (profileToken token))
    (hcount : protocols.length ≤ maxProtocols)
    (hscratch : requestScratch authority path origin protocols token mark ≤ scratchCap) :
    decodeRequest sec opts maxProtocols scratchCap = .ok
      { authority, path, origin := origin.filter fun o => !o.isEmpty,
        legacyProtocol := profileToken token ≠ protocolToken,
        d02Marker := if mark then some (ascii "1") else none, protocols } := by
  obtain ⟨⟨hauthority, hpath, htoken⟩, ⟨hvauthority, hvpath, hvorigin⟩, hprotocols, hsec⟩ :=
    encodeRequestD02_ok h
  unfold requestScratch at hscratch
  obtain ⟨fs, hwalk, hbytes⟩ := walkInit_encode hsec (requestFields_length ..)
    (show Qpack.literalsLen _ ≤ scratchCap by omega)
    (requestFields_walk hvauthority hvpath hvorigin htoken (offerValue_valid hprotocols))
  unfold decodeRequest
  rw [hwalk]
  dsimp only
  rw [RequestSlots.fill_bytes hbytes, requestFields_fill]
  exact requestSlots_judge hauthority hpath htoken hprotocols hadmits hcount (by omega)

/-! ## Responses -/

/-- The Structured Field item of a selection. -/
def selectedValue (selected : Option Bytes) : Option Bytes :=
  selected.map fun p => 34 :: p.flatMap Sf.escape ++ [34]

/-- The scratch bytes that a decoder of the response uses. -/
def responseScratch (status : Nat) (selected : Option Bytes) (mark : Bool) : Nat :=
  Qpack.literalsLen (responseFields status mark (selectedValue selected))
    + (selected.getD []).length

theorem stageSelected_ok {selected value : Option Bytes} (h : stageSelected selected = .ok value) :
    value = selectedValue selected ∧ ∀ p ∈ selected, p ≠ [] ∧ Sf.stringValid p = true := by
  cases selected with
  | none =>
    cases h
    exact ⟨rfl, nofun⟩
  | some p =>
    rw [stageSelected] at h
    split at h
    · cases h
    next hvalid =>
    split at h
    · next s hs =>
      cases h
      constructor
      · unfold Sf.stringEncodeItem at hs
        split at hs
        · cases hs
        split at hs
        · cases hs
        · cases hs
          rfl
      · rintro _ ⟨⟩
        simpa [not_or, List.isEmpty_iff] using hvalid
    all_goals cases h

theorem encodeResponseEx_ok {status : Nat} {selected : Option Bytes} {mark : Bool} {cap : Nat}
    {sec : Bytes} (h : encodeResponseEx status selected mark cap = .ok sec) :
    (100 ≤ status ∧ status ≤ 999) ∧ (∀ p ∈ selected, p ≠ [] ∧ Sf.stringValid p = true) ∧
      Qpack.encodeSection (responseFields status mark (selectedValue selected)) cap = .ok sec := by
  unfold encodeResponseEx at h
  split at h
  · cases h
  next hrange =>
  split at h
  · cases h
  next value hvalue =>
  obtain ⟨rfl, hselected⟩ := stageSelected_ok hvalue
  exact ⟨by omega, hselected, ofQpack_ok h⟩

theorem digit_toNat {n : Nat} (h : n ≤ 9) : (UInt8.ofNat (48 + n)).toNat = 48 + n := by
  rw [UInt8.toNat_ofNat']
  omega

theorem digit_range {n : Nat} (h : n ≤ 9) :
    48 ≤ UInt8.ofNat (48 + n) ∧ UInt8.ofNat (48 + n) ≤ 57 := by
  rw [UInt8.le_iff_toNat_le, UInt8.le_iff_toNat_le, digit_toNat h]
  exact ⟨Nat.le_add_right 48 n, Nat.add_le_add_left h 48⟩

theorem parseStatus_digits {status : Nat} (hlo : 100 ≤ status) (hhi : status ≤ 999) :
    parseStatus (statusDigits status) = some status := by
  have ha : status / 100 ≤ 9 := by omega
  have hb : status / 10 % 10 ≤ 9 := by omega
  have hc : status % 10 ≤ 9 := by omega
  have hdigits : (statusDigits status).all (fun d => 48 ≤ d && d ≤ 57) = true := by
    simp only [statusDigits, List.all_cons, List.all_nil, digit_range ha, digit_range hb,
      digit_range hc, decide_true, Bool.and_self]
  unfold parseStatus statusDigits
  unfold statusDigits at hdigits
  dsimp only
  rw [if_pos hdigits, digit_toNat ha, digit_toNat hb, digit_toNat hc]
  rw [show (48 + status / 100 - 48) * 100 + (48 + status / 10 % 10 - 48) * 10
    + (48 + status % 10 - 48) = status by omega, if_neg (by omega)]

theorem valueIsValid_statusDigits {status : Nat} (hhi : status ≤ 999) :
    valueIsValid (statusDigits status) = true := by
  have hvisible : ∀ n ≤ 9, (0x21 : UInt8) ≤ UInt8.ofNat (48 + n) ∧ UInt8.ofNat (48 + n) ≠ 0x7F := by
    decide
  refine valueBytesValid_visible ?_
  simp only [statusDigits, List.forall_mem_cons]
  exact ⟨hvisible _ (by omega), hvisible _ (by omega), hvisible _ (by omega), nofun⟩

theorem responseFields_fill (status : Nat) (mark : Bool) (selected : Option Bytes) :
    (responseFields status mark selected).foldlM ResponseSlots.put {} = some
      { status := some (statusDigits status),
        rmark := if mark then some (ascii "draft02") else none, wtp := selected } := by
  cases mark <;> cases selected <;> rfl

theorem decodeResponse_of_encode {status : Nat} {selected : Option Bytes} {mark : Bool} {cap : Nat}
    {sec : Bytes} (h : encodeResponseEx status selected mark cap = .ok sec) {opts : Opts}
    {scratchCap : Nat} (hscratch : responseScratch status selected mark ≤ scratchCap) :
    decodeResponse sec opts scratchCap = .ok
      { status, protocol := selected,
        d02Marker := if mark then some (ascii "draft02") else none } := by
  obtain ⟨⟨hlo, hhi⟩, hselected, hsec⟩ := encodeResponseEx_ok h
  unfold responseScratch at hscratch
  have hvalid : ∀ s ∈ selectedValue selected, valueIsValid s = true := by
    intro s hs
    obtain ⟨p, hp, rfl⟩ := Option.map_eq_some_iff.mp hs
    exact valueIsValid_quoted (escape_plain (hselected p hp).2)
  obtain ⟨fs, hwalk, hbytes⟩ := walkInit_encode hsec (responseFields_length ..)
    (show Qpack.literalsLen _ ≤ scratchCap by omega)
    (responseFields_walk (valueIsValid_statusDigits hhi) hvalid)
  unfold decodeResponse
  rw [hwalk]
  dsimp only
  rw [ResponseSlots.fill_bytes hbytes, responseFields_fill]
  dsimp only [Option.bind_some]
  rw [parseStatus_digits hlo hhi]
  cases selected with
  | none => rfl
  | some p =>
    obtain ⟨hne, hstring⟩ := hselected p rfl
    have hroom : p.length ≤
        scratchCap - Qpack.literalsLen (responseFields status mark (selectedValue (some p))) := by
      rw [Option.getD_some] at hscratch
      omega
    dsimp only [selectedValue, Option.map_some] at hroom ⊢
    rw [stringParseItem_encode hstring opts.lenientSfTokens hroom]
    dsimp only
    rw [if_neg (by simpa using hne)]

/-! ## Both directions -/

/-- What the request encoder accepts is decoded, by a decoder that admits its token and has room
for it, to the same authority, path, origin, marker and protocols. What the response encoder
accepts is decoded to the same status, selection and marker. -/
theorem connect_round_trip :
    (∀ authority path origin protocols token mark cap sec,
      encodeRequestD02 authority path origin protocols token mark cap = .ok sec →
      ∀ (opts : Opts) maxProtocols scratchCap,
        opts.admits (profileToken token) → protocols.length ≤ maxProtocols →
        requestScratch authority path origin protocols token mark ≤ scratchCap →
        decodeRequest sec opts maxProtocols scratchCap = .ok
          { authority, path, origin := origin.filter fun o => !o.isEmpty,
            legacyProtocol := profileToken token ≠ protocolToken,
            d02Marker := if mark then some (ascii "1") else none, protocols }) ∧
    ∀ status selected mark cap sec,
      encodeResponseEx status selected mark cap = .ok sec →
      ∀ opts scratchCap, responseScratch status selected mark ≤ scratchCap →
        decodeResponse sec opts scratchCap = .ok
          { status, protocol := selected,
            d02Marker := if mark then some (ascii "draft02") else none } := by
  constructor
  · intro authority path origin protocols token mark cap sec h opts maxProtocols scratchCap
      hadmits hcount hscratch
    exact decodeRequest_of_encode h hadmits hcount hscratch
  · intro status selected mark cap sec h opts scratchCap hscratch
    exact decodeResponse_of_encode h hscratch

end Wtquic.Connect
