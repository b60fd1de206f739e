-- SUMMARY: A generated CONNECT request read back by the server-side decoder.
import Wtquic.Proto.Connect
import Wtquic.Proto.QpackSection

namespace Wtquic.Connect

open Qpack (Field)

/-! # Reading a generated request back -/

/-- Filing a field reads its name and its value only. -/
theorem RequestSlots.put_bytes {f g : Field} (h : f.bytes = g.bytes) (s : RequestSlots) :
    s.put f = s.put g := by
  cases f
  cases g
  cases h
  rfl

theorem RequestSlots.fill_bytes {fs gs : List Field}
    (h : fs.map Field.bytes = gs.map Field.bytes) (s : RequestSlots) :
    fs.foldlM put s = gs.foldlM put s := by
  induction fs generalizing gs s with
  | nil =>
    cases gs with
    | nil => rfl
    | cons g gs => cases h
  | cons f fs ih =>
    cases gs with
    | nil => cases h
    | cons g gs =>
      simp only [List.map_cons, List.cons.injEq] at h
      rw [List.foldlM_cons, List.foldlM_cons, put_bytes h.1]
      exact congrArg _ (funext fun s => ih h.2 s)

theorem ResponseSlots.fill_bytes {fs gs : List Field}
    (h : fs.map Field.bytes = gs.map Field.bytes) (s : ResponseSlots) :
    fs.foldlM put s = gs.foldlM put s := by
  induction fs generalizing gs s with
  | nil =>
    cases gs with
    | nil => rfl
    | cons g gs => cases h
  | cons f fs ih =>
    cases gs with
    | nil => cases h
    | cons g gs =>
      simp only [List.map_cons, List.cons.injEq] at h
      obtain ⟨hbytes, htail⟩ := h
      rw [List.foldlM_cons, List.foldlM_cons]
      cases f
      cases g
      cases hbytes
      exact congrArg _ (funext fun s => ih htail s)

/-- The slots a generated request fills. -/
def requestSlots (authority path : Bytes) (origin : Option Bytes) (token : Bytes)
    (emitD02Marker : Bool) (offer : Option Bytes) : RequestSlots where
  method := some (ascii "CONNECT")
  scheme := some (ascii "https")
  authority := some authority
  path := some path
  protocol := some token
  origin := origin.filter fun o => !o.isEmpty
  d02Marker := if emitD02Marker then some (ascii "1") else none
  wtap := offer

theorem requestFields_fill (authority path : Bytes) (origin : Option Bytes) (token : Bytes)
    (mark : Bool) (offer : Option Bytes) :
    (requestFields authority path origin token mark offer).foldlM RequestSlots.put {}
      = some (requestSlots authority path origin token mark offer) := by
  cases origin with
  | none => cases mark <;> cases offer <;> rfl
  | some o =>
    cases o with
    | nil => cases mark <;> cases offer <;> rfl
    | cons b o => cases mark <;> cases offer <;> rfl

/-- A judged request carries the filed authority, path and origin. -/
theorem RequestSlots.judge_ok {s : RequestSlots} {opts : Opts} {maxProtocols cap : Nat}
    {rq : Request} (h : s.judge opts maxProtocols cap = .ok rq) :
    s.authority = some rq.authority ∧ s.path = some rq.path ∧ s.origin = rq.origin := by
  unfold judge at h
  split at h
  · cases h
  split at h
  · cases h
  split at h
  · cases h
  split at h
  next scheme authority path hscheme hauthority hpath =>
    dsimp only at h
    split at h
    · cases h
    split at h
    · cases h
    split at h
    · cases h
    split at h
    · cases h
      exact ⟨hauthority, hpath, rfl⟩
    split at h
    · cases h
    · cases h
      exact ⟨hauthority, hpath, rfl⟩
  · cases h

theorem ofQpack_ok {r : Except Qpack.Error Bytes} {bs : Bytes} (h : ofQpack r = .ok bs) :
    r = .ok bs := by
  unfold ofQpack at h
  split at h
  · cases h
    rfl
  all_goals cases h

/-- The `:protocol` token that goes on the wire. -/
def profileToken (token : Bytes) : Bytes := if token.isEmpty then protocolToken else token

/-- The Structured Field list of an offer. -/
def offerValue (protocols : List Bytes) : Option Bytes :=
  if protocols.isEmpty then none else some (Sf.encodeMembers protocols)

theorem stageOffer_ok {protocols : List Bytes} {offer : Option Bytes}
    (h : stageOffer protocols = .ok offer) :
    offer = offerValue protocols ∧ ∀ p ∈ protocols, p ≠ [] ∧ Sf.stringValid p = true := by
  unfold stageOffer at h
  unfold offerValue
  split at h
  · next hempty =>
    cases h
    rw [if_pos hempty, List.isEmpty_iff.mp hempty]
    exact ⟨rfl, nofun⟩
  next hempty =>
  split at h
  · cases h
  next hvalid =>
  split at h
  · next value hvalue =>
    cases h
    rw [if_neg hempty]
    constructor
    · unfold Sf.stringEncodeList at hvalue
      split at hvalue
      · cases hvalue
      split at hvalue
      · cases hvalue
      split at hvalue
      · cases hvalue
      · cases hvalue
        rfl
    · simpa [not_or, List.isEmpty_iff] using hvalid
  all_goals cases h

/-- What an accepted request was checked for, and what it was made of. -/
theorem encodeRequestD02_ok {authority path : Bytes} {origin : Option Bytes}
    {protocols : List Bytes} {token : Bytes} {mark : Bool} {cap : Nat} {sec : Bytes}
    (h : encodeRequestD02 authority path origin protocols token mark cap = .ok sec) :
    (authority ≠ [] ∧ path ≠ [] ∧ valueIsToken (profileToken token) = true) ∧
    (valueIsValid authority = true ∧ valueIsValid path = true ∧
      origin.all valueIsValid = true) ∧
    (∀ p ∈ protocols, p ≠ [] ∧ Sf.stringValid p = true) ∧
    Qpack.encodeSection (requestFields authority path origin (profileToken token) mark
      (offerValue protocols)) cap = .ok sec := by
  unfold encodeRequestD02 at h
  split at h
  · cases h
  next hempty =>
  dsimp only at h
  rw [← profileToken] at h
  split at h
  · cases h
  next htoken =>
  split at h
  · cases h
  next hvalues =>
  split at h
  · cases h
  next offer hoffer =>
  obtain ⟨rfl, hprotocols⟩ := stageOffer_ok hoffer
  have htoken : valueIsToken (profileToken token) = true := by simpa using htoken
  refine ⟨⟨?_, ?_, htoken⟩, ?_, hprotocols, ofQpack_ok h⟩
  · rintro rfl
    exact hempty rfl
  · rintro rfl
    exact hempty (Bool.or_true _)
  · simpa [not_or, and_assoc] using hvalues

/-- A request that was generated within `scratchCap` bytes and is accepted by the decoder is
accepted with the authority, the path and the non-empty origin it was generated from. -/
theorem decodeRequest_encode {authority path : Bytes} {origin : Option Bytes}
    {protocols : List Bytes} {token : Bytes} {mark : Bool} {cap scratchCap maxProtocols : Nat}
    {sec : Bytes} {opts : Opts} {rq : Request}
    (h : encodeRequestD02 authority path origin protocols token mark cap = .ok sec)
    (hlen : sec.length ≤ scratchCap)
    (hr : decodeRequest sec opts maxProtocols scratchCap = .ok rq) :
    rq.authority = authority ∧ rq.path = path ∧ rq.origin = origin.filter fun o => !o.isEmpty := by
  obtain ⟨-, -, -, hsec⟩ := encodeRequestD02_ok h
  generalize profileToken token = token, offerValue protocols = offer at hsec
  obtain ⟨hsize, hread⟩ := Qpack.decodeSection_encode hsec
  have hcount : (requestFields authority path origin token mark offer).length ≤ maxFields := by
    unfold requestFields maxFields
    cases origin with
    | none => cases mark <;> cases offer <;> simp
    | some o => cases mark <;> cases offer <;> simp <;> split <;> simp
  have hroom := Qpack.literalsLen_le (requestFields authority path origin token mark offer)
  obtain ⟨fs, hfs, hbytes⟩ := hread maxFields scratchCap hcount (by omega)
  have hfill : fs.foldlM RequestSlots.put {}
      = some (requestSlots authority path origin token mark offer) := by
    rw [RequestSlots.fill_bytes hbytes, requestFields_fill]
  unfold decodeRequest walkInit at hr
  rw [hfs] at hr
  dsimp only at hr
  split at hr
  · cases hr
  next hwalk =>
    split at hwalk
    · cases hwalk
      rw [hfill] at hr
      dsimp only at hr
      obtain ⟨hauthority, hpath, horigin⟩ := RequestSlots.judge_ok hr
      exact ⟨(Option.some.inj hauthority).symm, (Option.some.inj hpath).symm, horigin.symm⟩
    · cases hwalk

end Wtquic.Connect
