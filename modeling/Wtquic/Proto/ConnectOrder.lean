-- SUMMARY: The outcome of decoding a request or a response does not depend on the field order.
import Wtquic.Lib.Slots
import Wtquic.Proto.ConnectRequest
import Wtquic.Proto.ConnectWalk
import Wtquic.Proto.SfRoom
import Mathlib.Data.List.Perm.Basic

namespace Wtquic.Connect

open Qpack (Field)

/-! # Field order

The decoders file the fields in one pass and judge what was filed afterwards. The filing commutes,
the walk asks of each field alone, and the verdict sees the slots only. -/

/-! ## Slots -/

/-- The slots of a request. -/
inductive RequestSlot where
  | method
  | scheme
  | authority
  | path
  | protocol
  | origin
  | d02Marker
  | wtap
  | host
  deriving DecidableEq, Repr

def RequestSlots.get (s : RequestSlots) : RequestSlot → Option Bytes
  | .method => s.method
  | .scheme => s.scheme
  | .authority => s.authority
  | .path => s.path
  | .protocol => s.protocol
  | .origin => s.origin
  | .d02Marker => s.d02Marker
  | .wtap => s.wtap
  | .host => s.host

/-- The slot that a field name belongs to; an unknown pseudo-header has no place at all, an
unknown regular field is passed over. -/
def requestSlot (f : Field) : Option (Option RequestSlot) :=
  if isPseudo f then
    if f.name = ascii ":method" then some (some .method)
    else if f.name = ascii ":scheme" then some (some .scheme)
    else if f.name = ascii ":authority" then some (some .authority)
    else if f.name = ascii ":path" then some (some .path)
    else if f.name = ascii ":protocol" then some (some .protocol)
    else none
  else if f.name = ascii "origin" then some (some .origin)
  else if f.name = ascii "sec-webtransport-http3-draft02" then some (some .d02Marker)
  else if f.name = ascii "wt-available-protocols" then some (some .wtap)
  else if f.name = ascii "host" then some (some .host)
  else some none

theorem RequestSlots.get_injective : Function.Injective RequestSlots.get := by
  intro s t h
  have hget := congrFun h
  cases s
  cases t
  simp only [mk.injEq]
  exact ⟨hget .method, hget .scheme, hget .authority, hget .path, hget .protocol, hget .origin,
    hget .d02Marker, hget .wtap, hget .host⟩

/-- Filling one slot of a record, seen through its slots. -/
theorem fillOnce_get {σ κ : Type} [DecidableEq κ] {get : σ → κ → Option Bytes} {s : σ} {k : κ}
    {set : Option Bytes → σ} {v : Bytes}
    (hset : ∀ v, get (set v) = Function.update (get s) k v) :
    ((fillOnce (get s k) v).map set).map get =
      if (get s k).isSome then none else some (Function.update (get s) k (some v)) := by
  unfold fillOnce
  split
  · rfl
  · rw [Option.map_some, Option.map_some, hset]

theorem RequestSlots.fill {s : RequestSlots} {v : Bytes} (k : RequestSlot)
    {set : Option Bytes → RequestSlots}
    (hset : ∀ v i, (set v).get i = Function.update s.get k v i) :
    ((fillOnce (s.get k) v).map set).map get =
      if (s.get k).isSome then none else some (Function.update s.get k (some v)) :=
  fillOnce_get fun v => funext (hset v)

theorem RequestSlots.put_get (s : RequestSlots) (f : Field) :
    (s.put f).map get = fileItem requestSlot Field.value s.get f := by
  unfold put fileItem requestSlot
  split
  · split
    · exact fill .method fun v k => by cases k <;> rfl
    split
    · exact fill .scheme fun v k => by cases k <;> rfl
    split
    · exact fill .authority fun v k => by cases k <;> rfl
    split
    · exact fill .path fun v k => by cases k <;> rfl
    split
    · exact fill .protocol fun v k => by cases k <;> rfl
    · rfl
  split
  · exact fill .origin fun v k => by cases k <;> rfl
  split
  · exact fill .d02Marker fun v k => by cases k <;> rfl
  split
  · exact fill .wtap fun v k => by cases k <;> rfl
  split
  · exact fill .host fun v k => by cases k <;> rfl
  · rfl

theorem RequestSlots.fill_perm {fs gs : List Field} (h : fs.Perm gs) (s : RequestSlots) :
    fs.foldlM put s = gs.foldlM put s := by
  refine Option.map_injective get_injective ?_
  rw [foldlM_map_some put_get, foldlM_map_some put_get, foldlM_perm fileItem_comm h]

/-- The slots of a response. -/
inductive ResponseSlot where
  | status
  | rmark
  | wtp
  deriving DecidableEq, Repr

def ResponseSlots.get (s : ResponseSlots) : ResponseSlot → Option Bytes
  | .status => s.status
  | .rmark => s.rmark
  | .wtp => s.wtp

def responseSlot (f : Field) : Option (Option ResponseSlot) :=
  if isPseudo f then
    if f.name = ascii ":status" then some (some .status) else none
  else if f.name = ascii "sec-webtransport-http3-draft" then some (some .rmark)
  else if f.name = ascii "wt-protocol" then some (some .wtp)
  else some none

theorem ResponseSlots.get_injective : Function.Injective ResponseSlots.get := by
  intro s t h
  have hget := congrFun h
  cases s
  cases t
  simp only [mk.injEq]
  exact ⟨hget .status, hget .rmark, hget .wtp⟩

theorem ResponseSlots.fill {s : ResponseSlots} {v : Bytes} (k : ResponseSlot)
    {set : Option Bytes → ResponseSlots}
    (hset : ∀ v i, (set v).get i = Function.update s.get k v i) :
    ((fillOnce (s.get k) v).map set).map get =
      if (s.get k).isSome then none else some (Function.update s.get k (some v)) :=
  fillOnce_get fun v => funext (hset v)

theorem ResponseSlots.put_get (s : ResponseSlots) (f : Field) :
    (s.put f).map get = fileItem responseSlot Field.value s.get f := by
  unfold put fileItem responseSlot
  split
  · split
    · exact fill .status fun v k => by cases k <;> rfl
    · rfl
  split
  · exact fill .rmark fun v k => by cases k <;> rfl
  split
  · exact fill .wtp fun v k => by cases k <;> rfl
  · rfl

theorem ResponseSlots.fill_perm {fs gs : List Field} (h : fs.Perm gs) (s : ResponseSlots) :
    fs.foldlM put s = gs.foldlM put s := by
  refine Option.map_injective get_injective ?_
  rw [foldlM_map_some put_get, foldlM_map_some put_get, foldlM_perm fileItem_comm h]

/-! ## Shuffled fields -/

/-- The same fields with pseudo-headers permuted among themselves and regular fields permuted
among themselves. -/
structure Shuffled (fs gs : List Field) : Prop where
  layout : fs.map isPseudo = gs.map isPseudo
  pseudo : ((fs.filter isPseudo).map Field.bytes).Perm ((gs.filter isPseudo).map Field.bytes)
  regular : ((fs.filter fun f => !isPseudo f).map Field.bytes).Perm
    ((gs.filter fun f => !isPseudo f).map Field.bytes)

/-- A field of given bytes. -/
def ofBytes (b : Bytes × Bytes) : Field := { name := b.1, value := b.2 }

theorem map_ofBytes (fs : List Field) :
    ((fs.map Field.bytes).map ofBytes).map Field.bytes = fs.map Field.bytes := by
  rw [List.map_map]
  exact List.map_id _

namespace Shuffled

variable {fs gs : List Field}

theorem perm (h : Shuffled fs gs) :
    ((fs.map Field.bytes).map ofBytes).Perm ((gs.map Field.bytes).map ofBytes) := by
  have hsplit : ∀ fs : List Field, ((fs.filter isPseudo).map Field.bytes ++
      (fs.filter fun f => !isPseudo f).map Field.bytes).Perm (fs.map Field.bytes) := by
    intro fs
    rw [← List.map_append]
    exact (List.filter_append_perm isPseudo fs).map Field.bytes
  exact ((hsplit fs).symm.trans ((h.pseudo.append h.regular).trans (hsplit gs))).map ofBytes

theorem fill_request (h : Shuffled fs gs) (s : RequestSlots) :
    fs.foldlM RequestSlots.put s = gs.foldlM RequestSlots.put s := by
  rw [← RequestSlots.fill_bytes (map_ofBytes fs), ← RequestSlots.fill_bytes (map_ofBytes gs),
    RequestSlots.fill_perm h.perm]

theorem fill_response (h : Shuffled fs gs) (s : ResponseSlots) :
    fs.foldlM ResponseSlots.put s = gs.foldlM ResponseSlots.put s := by
  rw [← ResponseSlots.fill_bytes (map_ofBytes fs), ← ResponseSlots.fill_bytes (map_ofBytes gs),
    ResponseSlots.fill_perm h.perm]

theorem walk (h : Shuffled fs gs) (requestHeaders : Bool) :
    walkFields requestHeaders false fs = walkFields requestHeaders false gs := by
  have hok : ∀ fs : List Field, (∀ f ∈ fs, FieldOk requestHeaders f) ↔
      ∀ f ∈ (fs.map Field.bytes).map ofBytes, FieldOk requestHeaders f := by
    intro fs
    rw [List.map_map, List.forall_mem_map]
    rfl
  have hfields : (∀ f ∈ fs, FieldOk requestHeaders f) ↔ ∀ f ∈ gs, FieldOk requestHeaders f := by
    rw [hok fs, hok gs]
    exact forall_congr' fun f => imp_congr_left h.perm.mem_iff
  have hfirst : PseudoFirst fs ↔ PseudoFirst gs := by
    rw [pseudoFirst_iff, pseudoFirst_iff, h.layout]
  rw [Bool.eq_iff_iff, walkFields_iff, walkFields_iff, hfields, hfirst]
  simp

end Shuffled

/-! ## The verdict on a field list -/

/-- What `wtq_connect_decode_request` says about the fields of a section. -/
def judgeRequest (fs : List Field) (opts : Opts) (maxProtocols room : Nat) :
    Except Error Request :=
  if walkFields true false fs then
    match fs.foldlM RequestSlots.put {} with
    | none => .error .malformed
    | some s => s.judge opts maxProtocols room
  else .error .malformed

theorem decodeRequest_judge {sec : Bytes} {cap off : Nat} {fs : List Field}
    (h : Qpack.decodeSection sec maxFields cap = .ok (fs, off)) (opts : Opts)
    (maxProtocols : Nat) :
    decodeRequest sec opts maxProtocols cap = judgeRequest fs opts maxProtocols (cap - off) := by
  unfold decodeRequest walkInit judgeRequest
  rw [h]
  dsimp only
  cases walkFields true false fs <;> rfl

/-- What a response decoder makes of the filed fields. -/
def ResponseSlots.judge (s : ResponseSlots) (opts : Opts) (room : Nat) : Except Error Response :=
  match s.status.bind parseStatus with
  | none => .error .malformed
  | some status =>
    match s.wtp with
    | none => .ok { status, protocol := none, d02Marker := s.rmark }
    | some value =>
      match Sf.stringParseItem value opts.lenientSfTokens room with
      | .error .buffer => .error .buffer
      | .error .malformed => .ok { status, protocol := none, d02Marker := s.rmark }
      | .ok v =>
        .ok { status, protocol := if v.isEmpty then none else some v, d02Marker := s.rmark }

/-- What `wtq_connect_decode_response` says about the fields of a section. -/
def judgeResponse (fs : List Field) (opts : Opts) (room : Nat) : Except Error Response :=
  if walkFields false false fs then
    match fs.foldlM ResponseSlots.put {} with
    | none => .error .malformed
    | some s => s.judge opts room
  else .error .malformed

theorem decodeResponse_judge {sec : Bytes} {cap off : Nat} {fs : List Field}
    (h : Qpack.decodeSection sec maxFields cap = .ok (fs, off)) (opts : Opts) :
    decodeResponse sec opts cap = judgeResponse fs opts (cap - off) := by
  unfold decodeResponse walkInit judgeResponse
  rw [h]
  dsimp only
  cases walkFields false false fs <;> rfl

/-! ## Room -/

theorem parseProtocolList_room {value : Bytes} {opts : Opts} {maxProtocols cap cap' : Nat}
    (h : parseProtocolList value opts maxProtocols cap ≠ .error .buffer) (hcap : cap ≤ cap') :
    parseProtocolList value opts maxProtocols cap' =
      parseProtocolList value opts maxProtocols cap := by
  unfold parseProtocolList at h ⊢
  rw [Sf.stringParseList_room _ hcap]
  intro hparse
  rw [hparse] at h
  exact h rfl

theorem RequestSlots.judge_room {s : RequestSlots} {opts : Opts} {maxProtocols cap cap' : Nat}
    (h : s.judge opts maxProtocols cap ≠ .error .buffer) (hcap : cap ≤ cap') :
    s.judge opts maxProtocols cap' = s.judge opts maxProtocols cap := by
  unfold judge at h ⊢
  split
  · rfl
  next hwell =>
  rw [if_neg hwell] at h
  split
  · rfl
  next hmethod =>
  rw [if_neg hmethod] at h
  split
  · rfl
  next protocol hprotocol =>
  rw [hprotocol] at h
  split
  · next scheme authority path hscheme hauthority hpath =>
    rw [hscheme, hauthority, hpath] at h
    dsimp only at h ⊢
    split
    · rfl
    next hadmits =>
    rw [if_neg hadmits] at h
    split
    · rfl
    next hhttps =>
    rw [if_neg hhttps] at h
    split
    · rfl
    next hempty =>
    rw [if_neg hempty] at h
    cases hwtap : s.wtap with
    | none => rfl
    | some value =>
      rw [hwtap] at h
      dsimp only at h ⊢
      rw [parseProtocolList_room _ hcap]
      intro hparse
      rw [hparse] at h
      exact h rfl
  · rfl

theorem judgeRequest_room {fs : List Field} {opts : Opts} {maxProtocols cap cap' : Nat}
    (h : judgeRequest fs opts maxProtocols cap ≠ .error .buffer) (hcap : cap ≤ cap') :
    judgeRequest fs opts maxProtocols cap' = judgeRequest fs opts maxProtocols cap := by
  unfold judgeRequest at h ⊢
  split
  · next hwalk =>
    rw [if_pos hwalk] at h
    cases hfill : fs.foldlM RequestSlots.put {} with
    | none => rfl
    | some s =>
      rw [hfill] at h
      exact RequestSlots.judge_room h hcap
  · rfl

theorem ResponseSlots.judge_room {s : ResponseSlots} {opts : Opts} {cap cap' : Nat}
    (h : s.judge opts cap ≠ .error .buffer) (hcap : cap ≤ cap') :
    s.judge opts cap' = s.judge opts cap := by
  unfold judge at h ⊢
  cases hstatus : s.status.bind parseStatus with
  | none => rfl
  | some status =>
    rw [hstatus] at h
    cases hwtp : s.wtp with
    | none => rfl
    | some value =>
      rw [hwtp] at h
      dsimp only at h ⊢
      rw [Sf.stringParseItem_room _ hcap]
      intro hparse
      rw [hparse] at h
      exact h rfl

theorem judgeResponse_room {fs : List Field} {opts : Opts} {cap cap' : Nat}
    (h : judgeResponse fs opts cap ≠ .error .buffer) (hcap : cap ≤ cap') :
    judgeResponse fs opts cap' = judgeResponse fs opts cap := by
  unfold judgeResponse at h ⊢
  split
  · next hwalk =>
    rw [if_pos hwalk] at h
    cases hfill : fs.foldlM ResponseSlots.put {} with
    | none => rfl
    | some s =>
      rw [hfill] at h
      exact ResponseSlots.judge_room h hcap
  · rfl

/-- Two verdicts that had the room they needed agree. -/
theorem verdict_eq {ε α : Type} {e : ε} {judge : Nat → Except ε α} {room room' : Nat}
    (hroom : ∀ {cap cap'}, judge cap ≠ .error e → cap ≤ cap' → judge cap' = judge cap)
    (h : room = room' ∨ judge room ≠ .error e ∧ judge room' ≠ .error e) :
    judge room = judge room' := by
  obtain rfl | ⟨h, h'⟩ := h
  · rfl
  · obtain hle | hle := Nat.le_total room room'
    · exact (hroom h hle).symm
    · exact hroom h' hle

theorem Shuffled.judgeRequest {fs gs : List Field} (h : Shuffled fs gs) (opts : Opts)
    (maxProtocols room : Nat) :
    judgeRequest fs opts maxProtocols room = judgeRequest gs opts maxProtocols room := by
  rw [Connect.judgeRequest, Connect.judgeRequest, h.walk, h.fill_request]

theorem Shuffled.judgeResponse {fs gs : List Field} (h : Shuffled fs gs) (opts : Opts)
    (room : Nat) : judgeResponse fs opts room = judgeResponse gs opts room := by
  rw [Connect.judgeResponse, Connect.judgeResponse, h.walk, h.fill_response]

/-! ## Violations -/

/-- A name that is empty, or a bare colon, or holds a byte that field names do not have. -/
inductive InvalidName : Bytes → Prop where
  | empty : InvalidName []
  | colon : InvalidName [58]
  | upper {name : Bytes} {c : UInt8} (hc : c ∈ name) (h : 65 ≤ c ∧ c ≤ 90) : InvalidName name
  | byte {pre post : Bytes} {c : UInt8} (hc : isTchar c = false) (hcolon : c ≠ 58 ∨ pre ≠ []) :
      InvalidName (pre ++ c :: post)

/-- A value with a control byte, or with white space at one of its ends. -/
inductive InvalidValue : Bytes → Prop where
  | control {v : Bytes} {c : UInt8} (hc : c ∈ v) (h : c < 0x20 ∧ c ≠ 9 ∨ c = 0x7F) : InvalidValue v
  | leading {v : Bytes} {c : UInt8} (h : c = 32 ∨ c = 9) : InvalidValue (c :: v)
  | trailing {v : Bytes} {c : UInt8} (h : c = 32 ∨ c = 9) : InvalidValue (v ++ [c])

/-- What a kind of message may carry. -/
structure Rules where
  /-- The pseudo-headers it defines. -/
  pseudo : List Bytes
  /-- The regular fields that may stand only once. -/
  singletons : List Bytes
  requestHeaders : Bool

def requestRules : Rules where
  pseudo := [ascii ":method", ascii ":scheme", ascii ":authority", ascii ":path",
    ascii ":protocol"]
  singletons := [ascii "origin", ascii "sec-webtransport-http3-draft02",
    ascii "wt-available-protocols", ascii "host"]
  requestHeaders := true

def responseRules : Rules where
  pseudo := [ascii ":status"]
  singletons := [ascii "sec-webtransport-http3-draft", ascii "wt-protocol"]
  requestHeaders := false

/-- The connection-specific fields. -/
def forbiddenNames : List Bytes :=
  [ascii "connection", ascii "keep-alive", ascii "proxy-connection", ascii "transfer-encoding",
    ascii "upgrade"]

/-- A field list that breaks one of the rules, wherever the offending field stands. -/
inductive Violation (r : Rules) (fs : List Field) : Prop where
  | name {f : Field} (hf : f ∈ fs) (h : InvalidName f.name)
  | value {f : Field} (hf : f ∈ fs) (h : InvalidValue f.value)
  | late {f g : Field} (h : [f, g].Sublist fs) (hf : isPseudo f = false) (hg : isPseudo g = true)
  | unknown {f : Field} (hf : f ∈ fs) (hp : isPseudo f = true) (h : f.name ∉ r.pseudo)
  | repeated {f g : Field} (h : [f, g].Sublist fs) (hname : f.name = g.name)
      (hone : f.name ∈ r.pseudo ++ r.singletons)
  | forbidden {f : Field} (hf : f ∈ fs) (h : f.name ∈ forbiddenNames)
  | te {f : Field} (hf : f ∈ fs) (hname : f.name = ascii "te")
      (h : r.requestHeaders = false ∨ teIsTrailers f.value = false)

/-- A Host that is not the `:authority`. -/
def HostDisagrees (fs : List Field) : Prop :=
  ∃ f ∈ fs, ∃ g ∈ fs, f.name = ascii "host" ∧ g.name = ascii ":authority" ∧
    spanIeq f.value g.value = false

theorem InvalidName.not_valid {name : Bytes} (h : InvalidName name) : nameIsValid name = false := by
  -- A valid name holds tchars behind an optional colon.
  have hbad : ∀ {pre post : Bytes} {c : UInt8}, isTchar c = false → (c ≠ 58 ∨ pre ≠ []) →
      nameIsValid (pre ++ c :: post) = false := by
    intro pre post c hc hcolon
    cases pre with
    | nil =>
      have hne : c ≠ 58 := hcolon.resolve_right fun h => h rfl
      simp [nameIsValid, hne, hc]
    | cons b pre =>
      by_cases hb : b = 58 <;> simp [nameIsValid, hb, hc]
  cases h with
  | empty => rfl
  | colon => rfl
  | upper hc h =>
    obtain ⟨pre, post, rfl⟩ := List.append_of_mem hc
    refine hbad ?_ (.inl ?_)
    · simp [isTchar, h]
    · rintro rfl
      exact absurd h.1 (by decide)
  | byte hc hcolon => exact hbad hc hcolon

theorem valueBytesValid_control {first : Bool} {v : Bytes} (h : valueBytesValid first v = true) :
    ∀ c ∈ v, ¬(c < 0x20 ∧ c ≠ 9 ∨ c = 0x7F) := by
  induction v generalizing first with
  | nil => exact nofun
  | cons b v ih =>
    rw [valueBytesValid] at h
    split at h
    · next hsp =>
      simp only [Bool.and_eq_true] at h
      refine List.forall_mem_cons.mpr ⟨?_, ih h.2⟩
      rintro (⟨hlt, hne⟩ | hdel)
      · obtain rfl | rfl := hsp
        · exact absurd hlt (by decide)
        · exact hne rfl
      · obtain rfl | rfl := hsp <;> exact absurd hdel (by decide)
    · split at h
      · cases h
      · next hctl =>
        refine List.forall_mem_cons.mpr ⟨?_, ih h⟩
        rintro (⟨hlt, -⟩ | hdel)
        · exact hctl (.inl (UInt8.lt_trans hlt (by decide)))
        · exact hctl (.inr hdel)

theorem valueBytesValid_trailing {first : Bool} {v : Bytes} {c : UInt8} (h : c = 32 ∨ c = 9) :
    valueBytesValid first (v ++ [c]) = false := by
  induction v generalizing first with
  | nil => simp [valueBytesValid, h]
  | cons b v ih =>
    rw [List.cons_append, valueBytesValid, ih]
    simp

theorem InvalidValue.not_valid {v : Bytes} (h : InvalidValue v) : valueIsValid v = false := by
  cases h with
  | control hc h =>
    cases hv : valueIsValid v with
    | false => rfl
    | true => exact absurd h (valueBytesValid_control hv _ hc)
  | leading h => simp [valueIsValid, valueBytesValid, h]
  | trailing h => exact valueBytesValid_trailing h

theorem isForbidden_of_mem {name : Bytes} (h : name ∈ forbiddenNames) :
    isForbidden name = true := by
  simp only [forbiddenNames, List.mem_cons, List.not_mem_nil, or_false] at h
  unfold isForbidden
  obtain h | h | h | h | h := h <;>
    simp only [h, beq_self_eq_true, Bool.or_true, Bool.true_or]

theorem forbiddenNames_regular {f : Field} (h : f.name ∈ forbiddenNames) : isPseudo f = false := by
  have hhead : ∀ name ∈ forbiddenNames, (name.head? == some 58) = false := by decide
  exact hhead f.name h

/-- A violation that the walk lets pass is caught by the filing. -/
theorem Violation.fill_none {r : Rules} {fs : List Field} {κ : Type} [DecidableEq κ]
    {key : Field → Option (Option κ)} (h : Violation r fs)
    (hwalk : walkFields r.requestHeaders false fs = true)
    (hname : ∀ {f g : Field}, f.name = g.name → key f = key g)
    (hpseudo : ∀ {f : Field}, isPseudo f = true → f.name ∉ r.pseudo → key f = none)
    (hslot : ∀ {f : Field}, f.name ∈ r.pseudo ++ r.singletons → ∃ k, key f = some (some k))
    (s : κ → Option Bytes) : fs.foldlM (fileItem key Field.value) s = none := by
  obtain ⟨hok, hfirst, -⟩ := walkFields_iff.mp hwalk
  cases hfill : fs.foldlM (fileItem key Field.value) s with
  | none => rfl
  | some s' =>
    obtain ⟨hkey, hnodup, -, -⟩ := fileItems_some hfill
    cases h with
    | name hf h =>
      have hvalid := (hok _ hf).1
      rw [h.not_valid] at hvalid
      cases hvalid
    | value hf h =>
      have hvalid := (hok _ hf).2.1
      rw [h.not_valid] at hvalid
      cases hvalid
    | late h hf hg =>
      have hpair := List.Pairwise.sublist h hfirst
      have hlate := (List.pairwise_pair.mp hpair) hg
      rw [hf] at hlate
      cases hlate
    | unknown hf hp h => exact absurd (hpseudo hp h) (hkey _ hf)
    | repeated h hsame hone =>
      obtain ⟨k, hk⟩ := hslot hone
      have hslots := (h.filterMap fun a => (key a).join).nodup hnodup
      simp [← hname hsame, hk] at hslots
    | forbidden hf h =>
      have hregular := (hok _ hf).2.2 (forbiddenNames_regular h)
      rw [isForbidden_of_mem h] at hregular
      cases hregular.1
    | @te f hf hte h =>
      have hregular : isPseudo f = false := by
        unfold isPseudo
        rw [hte]
        rfl
      obtain ⟨hheaders, htrailers⟩ := ((hok _ hf).2.2 hregular).2 hte
      obtain h | h := h
      · rw [h] at hheaders
        cases hheaders
      · rw [h] at htrailers
        cases htrailers

theorem isPseudo_congr {f g : Field} (h : f.name = g.name) : isPseudo f = isPseudo g := by
  rw [isPseudo, isPseudo, h]

theorem requestSlot_congr {f g : Field} (h : f.name = g.name) : requestSlot f = requestSlot g := by
  rw [requestSlot, requestSlot, isPseudo_congr h, h]

theorem responseSlot_congr {f g : Field} (h : f.name = g.name) :
    responseSlot f = responseSlot g := by
  rw [responseSlot, responseSlot, isPseudo_congr h, h]

theorem requestSlot_unknown {f : Field} (hp : isPseudo f = true)
    (h : f.name ∉ requestRules.pseudo) : requestSlot f = none := by
  simp only [requestRules, List.mem_cons, List.not_mem_nil, or_false, not_or] at h
  obtain ⟨hmethod, hscheme, hauthority, hpath, hprotocol⟩ := h
  rw [requestSlot, if_pos hp, if_neg hmethod, if_neg hscheme, if_neg hauthority, if_neg hpath,
    if_neg hprotocol]

theorem responseSlot_unknown {f : Field} (hp : isPseudo f = true)
    (h : f.name ∉ responseRules.pseudo) : responseSlot f = none := by
  simp only [responseRules, List.mem_singleton] at h
  rw [responseSlot, if_pos hp, if_neg h]

/-- A table of names that all have slots. -/
theorem known_slot {κ : Type} {key : Field → Option (Option κ)} {names : List Bytes}
    (hname : ∀ {f g : Field}, f.name = g.name → key f = key g)
    (hslot : ∀ name ∈ names, (key { name, value := [] }).any Option.isSome = true) {f : Field}
    (h : f.name ∈ names) : ∃ k, key f = some (some k) := by
  have hsome := hslot f.name h
  rw [show key { name := f.name, value := [] } = key f from hname rfl] at hsome
  cases hk : key f with
  | none =>
    rw [hk] at hsome
    cases hsome
  | some k =>
    rw [hk] at hsome
    obtain ⟨k, rfl⟩ := Option.isSome_iff_exists.mp hsome
    exact ⟨k, rfl⟩

theorem requestSlot_known {f : Field}
    (h : f.name ∈ requestRules.pseudo ++ requestRules.singletons) :
    ∃ k, requestSlot f = some (some k) :=
  known_slot requestSlot_congr (by decide +kernel) h

theorem responseSlot_known {f : Field}
    (h : f.name ∈ responseRules.pseudo ++ responseRules.singletons) :
    ∃ k, responseSlot f = some (some k) :=
  known_slot responseSlot_congr (by decide +kernel) h

/-- What was filed under a name is its value. -/
theorem RequestSlots.get_of_fill {fs : List Field} {s : RequestSlots}
    (h : fs.foldlM put {} = some s) {f : Field} (hf : f ∈ fs) {k : RequestSlot}
    (hk : requestSlot f = some (some k)) : s.get k = some f.value := by
  have hget := foldlM_map_some put_get fs {}
  rw [h] at hget
  obtain ⟨-, -, hslots, -⟩ := fileItems_some hget.symm
  exact (hslots f hf k hk).2

theorem HostDisagrees.syntaxOk {fs : List Field} {s : RequestSlots} (h : HostDisagrees fs)
    (hfill : fs.foldlM RequestSlots.put {} = some s) : s.syntaxOk = false := by
  obtain ⟨f, hf, g, hg, hfname, hgname, hne⟩ := h
  have hslots : requestSlot { name := ascii "host", value := [] } = some (some .host) ∧
      requestSlot { name := ascii ":authority", value := [] } = some (some .authority) := by
    decide +kernel
  have hfslot : requestSlot f = some (some .host) := (requestSlot_congr hfname).trans hslots.1
  have hgslot : requestSlot g = some (some .authority) := (requestSlot_congr hgname).trans hslots.2
  have hhost : s.host = some f.value := RequestSlots.get_of_fill hfill hf hfslot
  have hauthority : s.authority = some g.value := RequestSlots.get_of_fill hfill hg hgslot
  simp [RequestSlots.syntaxOk, hhost, hauthority, hne]

theorem judgeRequest_violation {fs : List Field} (h : Violation requestRules fs ∨ HostDisagrees fs)
    (opts : Opts) (maxProtocols room : Nat) :
    judgeRequest fs opts maxProtocols room = .error .malformed := by
  unfold judgeRequest
  split
  · next hwalk =>
    cases hfill : fs.foldlM RequestSlots.put {} with
    | none => rfl
    | some s =>
      obtain h | h := h
      · have hnone := h.fill_none hwalk requestSlot_congr requestSlot_unknown requestSlot_known
          (RequestSlots.get {})
        rw [← foldlM_map_some RequestSlots.put_get, hfill] at hnone
        cases hnone
      · dsimp only
        rw [RequestSlots.judge, h.syntaxOk hfill]
        rfl
  · rfl

theorem judgeResponse_violation {fs : List Field} (h : Violation responseRules fs) (opts : Opts)
    (room : Nat) : judgeResponse fs opts room = .error .malformed := by
  unfold judgeResponse
  split
  · next hwalk =>
    cases hfill : fs.foldlM ResponseSlots.put {} with
    | none => rfl
    | some s =>
      have hnone := h.fill_none hwalk responseSlot_congr responseSlot_unknown responseSlot_known
        (ResponseSlots.get {})
      rw [← foldlM_map_some ResponseSlots.put_get, hfill] at hnone
      cases hnone
  · rfl

/-- Permuting the pseudo-headers among themselves and the regular fields among themselves does not
change what the decoders say, unless one of the sections exceeds their limits; and a field list
that breaks a rule of the message is malformed, wherever it does. -/
theorem field_order :
    (∀ fs gs, Shuffled fs gs → ∀ sec sec' cap cap' off off',
      Qpack.decodeSection sec maxFields cap = .ok (fs, off) →
      Qpack.decodeSection sec' maxFields cap' = .ok (gs, off') →
      (∀ opts maxProtocols,
        (cap - off = cap' - off' ∨ decodeRequest sec opts maxProtocols cap ≠ .error .buffer ∧
          decodeRequest sec' opts maxProtocols cap' ≠ .error .buffer) →
        decodeRequest sec opts maxProtocols cap = decodeRequest sec' opts maxProtocols cap') ∧
      ∀ opts,
        (cap - off = cap' - off' ∨ decodeResponse sec opts cap ≠ .error .buffer ∧
          decodeResponse sec' opts cap' ≠ .error .buffer) →
        decodeResponse sec opts cap = decodeResponse sec' opts cap') ∧
    ∀ fs sec cap off, Qpack.decodeSection sec maxFields cap = .ok (fs, off) →
      (Violation requestRules fs ∨ HostDisagrees fs → ∀ opts maxProtocols,
        decodeRequest sec opts maxProtocols cap = .error .malformed) ∧
      (Violation responseRules fs → ∀ opts, decodeResponse sec opts cap = .error .malformed) := by
  constructor
  · intro fs gs h sec sec' cap cap' off off' hsec hsec'
    constructor
    · intro opts maxProtocols hroom
      rw [decodeRequest_judge hsec, decodeRequest_judge hsec', ← h.judgeRequest] at hroom ⊢
      exact verdict_eq judgeRequest_room hroom
    · intro opts hroom
      rw [decodeResponse_judge hsec, decodeResponse_judge hsec', ← h.judgeResponse] at hroom ⊢
      exact verdict_eq judgeResponse_room hroom
  · intro fs sec cap off hsec
    constructor
    · intro h opts maxProtocols
      rw [decodeRequest_judge hsec, judgeRequest_violation h]
    · intro h opts
      rw [decodeResponse_judge hsec, judgeResponse_violation h]

end Wtquic.Connect
