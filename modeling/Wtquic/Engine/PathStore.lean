-- SUMMARY: The served-path table in the connection's own buffers: checks with null pointers, copy loop, read-back.
import Wtquic.Lib.Cells
import Wtquic.Engine.App

namespace Wtquic.Engine

open Cells

/-! # Storage of the served paths

`wtq_conn_server_set_paths` down to the buffers it writes. A pointer argument may be null, every
write says where it goes, and a write that would leave its buffer or a null pointer that is read
has no result. -/

/-! ## Arguments -/

/-- A pointer and a count. -/
inductive ArrayArg (α : Type) where
  | null (count : Nat)
  | items (xs : List α)
  deriving DecidableEq, Repr

namespace ArrayArg

variable {α : Type}

def count : ArrayArg α → Nat
  | .null n => n
  | .items xs => xs.length

def isNull : ArrayArg α → Bool
  | .null _ => true
  | .items _ => false

def list : ArrayArg α → List α
  | .null _ => []
  | .items xs => xs

end ArrayArg

/-- Follow every pointer of an array. -/
def derefAll {α : Type} : List (Option α) → Option (List α)
  | [] => some []
  | none :: _ => none
  | some x :: xs =>
    match derefAll xs with
    | none => none
    | some xs => some (x :: xs)

/-- `wtq_server_path_cfg_t` as the caller hands it over. -/
structure PathArg where
  path : Option Bytes
  protocols : ArrayArg (Option Bytes) := .null 0
  requireProtocol : Bool := false
  originPolicy : OriginPolicy := .unset
  allowedOrigins : ArrayArg (Option Bytes) := .null 0
  deriving DecidableEq, Repr

/-- The strings of a protocol array. -/
def ArrayArg.strings : ArrayArg (Option Bytes) → Option (List Bytes)
  | .null n => if n = 0 then some [] else none
  | .items xs => derefAll xs

/-- The strings of an origin array, which may be absent. -/
def ArrayArg.origins : ArrayArg (Option Bytes) → Option (Option (List Bytes))
  | .null n => if n = 0 then some none else none
  | .items xs => (derefAll xs).map some

/-- The configuration that an argument without a null pointer stands for. -/
def PathArg.cfg (a : PathArg) : Option ServerPathCfg :=
  match a.path, a.protocols.strings, a.allowedOrigins.origins with
  | some path, some protocols, some origins =>
    some { path, protocols, requireProtocol := a.requireProtocol,
           originPolicy := a.originPolicy, origins }
  | _, _, _ => none

/-! ## Checks -/

/-- The loop of `wtq_conn_validate_protocols`. -/
def protocolArgs (storage : Nat) : Nat → List (Option Bytes) → Rc
  | _, [] => .ok
  | _, none :: _ => .invalidArg
  | off, some p :: ps =>
    let rc := protocolCheck p
    if rc ≠ .ok then rc
    else if off + p.length > storage then .tooLarge
    else protocolArgs storage (off + p.length) ps

/-- `wtq_conn_validate_protocols`. -/
def validateProtocolArgs (a : ArrayArg (Option Bytes)) : Rc :=
  if a.count > maxOffered then .tooLarge
  else if a.count > 0 ∧ a.isNull then .invalidArg
  else protocolArgs pathProtoStorage 0 a.list

/-- The loop of `wtq_conn_validate_origin_policy`. -/
def originArgs : List Bytes → Nat → List (Option Bytes) → Rc
  | _, _, [] => .ok
  | _, _, none :: _ => .invalidArg
  | earlier, total, some o :: os =>
    if o.length > originMaxBytes then .tooLarge
    else
      let kind := originParse o
      if kind ≠ .tuple ∧ kind ≠ .null then .invalidArg
      else if o.length = pathOriginStorage ∨ total > pathOriginStorage - (o.length + 1) then
        .tooLarge
      else if earlier.contains o then .invalidArg
      else originArgs (o :: earlier) (total + (o.length + 1)) os

/-- `wtq_conn_validate_origin_policy`. -/
def validateOriginArgs (mode : OriginPolicy) (a : ArrayArg (Option Bytes)) : Rc :=
  if mode = .other then .invalidArg
  else if mode ≠ .allowlist then if !a.isNull ∨ a.count ≠ 0 then .invalidArg else .ok
  else if a.isNull ∨ a.count = 0 then .invalidArg
  else if a.count > maxOrigins then .tooLarge
  else originArgs [] 0 a.list

/-- The checks of one path. -/
def validateArg (profiles : ProfileSet) (a : PathArg) : Rc :=
  match a.path with
  | none => .invalidArg
  | some path =>
    if a.protocols.count > 0 ∧ a.protocols.isNull then .invalidArg
    else if path.isEmpty ∨ path.length > pathCap ∨ a.protocols.count > maxOffered then .tooLarge
    else
      let prc := validateProtocolArgs a.protocols
      if prc ≠ .ok then prc
      else
        let orc := validateOriginArgs a.originPolicy a.allowedOrigins
        if orc ≠ .ok then orc
        else if profiles.d02Rfc9297Compat ∧ a.originPolicy = .unset then .invalidArg
        else .ok

/-- The validation loop, after `total` origin bytes. The origins it measures are followed
without a check of their own. -/
def validateArgs (profiles : ProfileSet) : Nat → List PathArg → Option Rc
  | _, [] => some .ok
  | total, a :: as =>
    let rc := validateArg profiles a
    if rc ≠ .ok then some rc
    else
      match derefAll a.allowedOrigins.list with
      | none => none
      | some os =>
        match originStorage total os with
        | none => some .tooLarge
        | some total => validateArgs profiles total as

/-! ## Buffers -/

/-- `sizeof(proto_buf)`. -/
def protoBufSize : Nat := 256

/-- One entry of `paths[]`. -/
structure StoredPath where
  path : Cells UInt8 pathCap
  pathLen : Nat
  protoBuf : Cells UInt8 protoBufSize
  protos : Cells Span maxOffered
  protoCount : Nat
  require : Bool
  originPolicy : OriginPolicy
  origins : Cells Span maxOrigins
  originCount : Nat

/-- `paths`, `origin_buf` and `path_count` of the connection. -/
structure PathStore where
  paths : Cells StoredPath maxPaths
  originBuf : Cells UInt8 originStorageTotal
  pathCount : Nat

/-- The spans in use of `protos`. -/
def StoredPath.protoSpans (p : StoredPath) : List Span := p.protos.read 0 p.protoCount

/-- The spans in use of `origins`. -/
def StoredPath.originSpans (p : StoredPath) : List Span := p.origins.read 0 p.originCount

/-- What the engine reads of one entry. -/
def StoredPath.entry (originBuf : Cells UInt8 originStorageTotal) (p : StoredPath) :
    PathEntry where
  path := p.path.read 0 p.pathLen
  protos := p.protoSpans.map p.protoBuf.span
  require := p.require
  originPolicy := p.originPolicy
  origins := p.originSpans.map originBuf.span

/-- The entries in use. -/
def PathStore.active (st : PathStore) : List StoredPath := st.paths.read 0 st.pathCount

/-- The table that the engine reads. -/
def PathStore.table (st : PathStore) : PathTable := st.active.map (StoredPath.entry st.originBuf)

/-! ## Copying -/

/-- The body of the copy loop for path `i`, with `off` bytes of `origin_buf` in use. -/
def copyPath (st : PathStore) (i off : Nat) (cfg : ServerPathCfg) : Option (PathStore × Nat) :=
  match st.paths.read i 1 with
  | [p] =>
    match p.path.write 0 cfg.path with
    | none => none
    | some path =>
      match packStrings [] p.protoBuf p.protos 0 0 cfg.protocols with
      | none => none
      | some (protoBuf, protos, _) =>
        match packStrings [0] st.originBuf p.origins off 0 (cfg.origins.getD []) with
        | none => none
        | some (originBuf, origins, off) =>
          let q : StoredPath :=
            { path, pathLen := cfg.path.length, protoBuf, protos,
              protoCount := cfg.protocols.length, require := cfg.requireProtocol,
              originPolicy := cfg.originPolicy, origins,
              originCount := (cfg.origins.getD []).length }
          match st.paths.write i [q] with
          | none => none
          | some paths => some ({ st with paths, originBuf }, off)
  | _ => none

/-- The copy loop. -/
def copyPaths : List PathArg → Nat → Nat → PathStore → Option PathStore
  | [], _, _, st => some st
  | a :: as, i, off, st =>
    match a.cfg with
    | none => none
    | some cfg =>
      match copyPath st i off cfg with
      | none => none
      | some (st, off) => copyPaths as (i + 1) off st

/-- `wtq_conn_server_set_paths` on the buffers; no result when a null pointer is followed or a
write leaves its buffer. -/
def storePaths (c : Conn) (paths : ArrayArg PathArg) (st : PathStore) :
    Option (Rc × PathStore) :=
  if (paths.count > 0 ∧ paths.isNull) ∨ paths.count > maxPaths then some (.invalidArg, st)
  else if c.persp ≠ .server then some (.state, st)
  else
    match validateArgs c.wtProfiles 0 paths.list with
    | none => none
    | some rc =>
      if rc ≠ .ok then some (rc, st)
      else
        match copyPaths paths.list 0 0 st with
        | none => none
        | some st => some (.ok, { st with pathCount := paths.count })

/-! ## The checks against those without null pointers -/

theorem derefAll_map {α : Type} (xs : List α) : derefAll (xs.map some) = some xs := by
  induction xs with
  | nil => rfl
  | cons x xs ih => rw [List.map_cons, derefAll, ih]

theorem derefAll_some {α : Type} {ps : List (Option α)} {xs : List α}
    (h : derefAll ps = some xs) : ps = xs.map some := by
  induction ps generalizing xs with
  | nil =>
    cases h
    rfl
  | cons p ps ih =>
    cases p with
    | none => cases h
    | some x =>
      rw [derefAll] at h
      split at h
      · cases h
      next ys hys =>
        cases h
        rw [List.map_cons, ih hys]

theorem protocolArgs_map (storage off : Nat) (ps : List Bytes) :
    protocolArgs storage off (ps.map some) = validateProtocolsFrom storage off ps := by
  induction ps generalizing off with
  | nil => rfl
  | cons p ps ih => rw [List.map_cons, protocolArgs, validateProtocolsFrom, ih]

theorem originArgs_map (earlier : List Bytes) (total : Nat) (os : List Bytes) :
    originArgs earlier total (os.map some) = validateOriginsFrom earlier total os := by
  induction os generalizing earlier total with
  | nil => rfl
  | cons o os ih =>
    rw [List.map_cons, originArgs, validateOriginsFrom]
    simp only [ih]

theorem protocolArgs_ok {storage off : Nat} {ps : List (Option Bytes)}
    (h : protocolArgs storage off ps = .ok) : ∃ xs, derefAll ps = some xs := by
  induction ps generalizing off with
  | nil => exact ⟨[], rfl⟩
  | cons p ps ih =>
    cases p with
    | none => cases h
    | some p =>
      rw [protocolArgs] at h
      split at h
      next hrc => exact absurd h hrc
      split at h
      · cases h
      obtain ⟨xs, hxs⟩ := ih h
      exact ⟨p :: xs, by rw [derefAll, hxs]⟩

theorem originArgs_ok {earlier : List Bytes} {total : Nat} {os : List (Option Bytes)}
    (h : originArgs earlier total os = .ok) : ∃ xs, derefAll os = some xs := by
  induction os generalizing earlier total with
  | nil => exact ⟨[], rfl⟩
  | cons o os ih =>
    cases o with
    | none => cases h
    | some o =>
      rw [originArgs] at h
      dsimp only at h
      split at h
      · cases h
      split at h
      · cases h
      split at h
      · cases h
      split at h
      · cases h
      obtain ⟨xs, hxs⟩ := ih h
      exact ⟨o :: xs, by rw [derefAll, hxs]⟩

theorem validateProtocolArgs_strings {a : ArrayArg (Option Bytes)} {ps : List Bytes}
    (h : a.strings = some ps) : validateProtocolArgs a = validateProtocols ps ∧
      a.count = ps.length ∧ ¬ (a.count > 0 ∧ a.isNull) := by
  cases a with
  | null n =>
    simp only [ArrayArg.strings] at h
    split at h
    next hn =>
      subst hn
      cases h
      exact ⟨rfl, rfl, by simp [ArrayArg.count]⟩
    next => cases h
  | items xs =>
    have hxs : xs = ps.map some := derefAll_some h
    subst hxs
    refine ⟨?_, by simp [ArrayArg.count], by simp [ArrayArg.isNull]⟩
    simp only [validateProtocolArgs, validateProtocols, ArrayArg.count, ArrayArg.list,
      List.length_map, ArrayArg.isNull, protocolArgs_map, Bool.false_eq_true, and_false, if_false]

theorem validateOriginArgs_origins (mode : OriginPolicy) {a : ArrayArg (Option Bytes)}
    {os : Option (List Bytes)} (h : a.origins = some os) :
    validateOriginArgs mode a = validateOriginPolicy mode os ∧
      derefAll a.list = some (os.getD []) := by
  cases a with
  | null n =>
    simp only [ArrayArg.origins] at h
    split at h
    next hn =>
      subst hn
      cases h
      exact ⟨rfl, rfl⟩
    next => cases h
  | items xs =>
    simp only [ArrayArg.origins, Option.map_eq_some_iff] at h
    obtain ⟨ys, hys, rfl⟩ := h
    have hxs : xs = ys.map some := derefAll_some hys
    subst hxs
    refine ⟨?_, derefAll_map ys⟩
    unfold validateOriginArgs validateOriginPolicy
    simp only [ArrayArg.isNull, ArrayArg.count, ArrayArg.list, List.length_map, originArgs_map,
      Bool.false_eq_true, false_or, Bool.not_false, true_or, if_true, Option.isSome_some,
      List.length_eq_zero_iff, List.isEmpty_iff]

/-- Without a null pointer the checks are those of the configuration. -/
theorem validateArg_cfg (profiles : ProfileSet) {a : PathArg} {cfg : ServerPathCfg}
    (h : a.cfg = some cfg) : validateArg profiles a = validatePath profiles cfg ∧
      derefAll a.allowedOrigins.list = some (cfg.origins.getD []) := by
  unfold PathArg.cfg at h
  split at h
  next path protocols origins hpath hprotocols horigins =>
    cases h
    obtain ⟨hprot, hcount, hnull⟩ := validateProtocolArgs_strings hprotocols
    obtain ⟨horig, hderef⟩ := validateOriginArgs_origins a.originPolicy horigins
    refine ⟨?_, hderef⟩
    unfold validateArg validatePath
    rw [hpath]
    dsimp only
    rw [if_neg hnull, hcount, hprot, horig]
  next => cases h

theorem validateProtocolArgs_ok {a : ArrayArg (Option Bytes)} (hnull : ¬ (a.count > 0 ∧ a.isNull))
    (h : validateProtocolArgs a = .ok) : ∃ ps, a.strings = some ps := by
  cases a with
  | null n =>
    have hn : n = 0 := by
      simp only [ArrayArg.count, ArrayArg.isNull, and_true] at hnull
      omega
    exact ⟨[], if_pos hn⟩
  | items xs =>
    unfold validateProtocolArgs at h
    split at h
    · cases h
    exact protocolArgs_ok h

theorem validateOriginArgs_ok {mode : OriginPolicy} {a : ArrayArg (Option Bytes)}
    (h : validateOriginArgs mode a = .ok) : ∃ os, a.origins = some os := by
  unfold validateOriginArgs at h
  split at h
  · cases h
  cases a with
  | null n =>
    simp only [ArrayArg.isNull, ArrayArg.count, Bool.not_true, Bool.false_eq_true, false_or,
      true_or, if_true] at h
    split at h
    · split at h
      · cases h
      next hn => exact ⟨none, if_pos (not_not.mp hn)⟩
    · cases h
  | items xs =>
    simp only [ArrayArg.isNull, Bool.not_false, true_or, if_true, Bool.false_eq_true,
      false_or] at h
    split at h
    · cases h
    split at h
    · cases h
    split at h
    · cases h
    obtain ⟨ys, hys⟩ := originArgs_ok h
    exact ⟨some ys, by rw [ArrayArg.origins, show derefAll xs = some ys from hys]; rfl⟩

/-- A path that passes the checks has no null pointer. -/
theorem validateArg_ok {profiles : ProfileSet} {a : PathArg}
    (h : validateArg profiles a = .ok) : ∃ cfg, a.cfg = some cfg := by
  unfold validateArg at h
  split at h
  · cases h
  next path hpath =>
  split at h
  · cases h
  next hnull =>
  split at h
  · cases h
  dsimp only at h
  split at h
  next hrc => exact absurd h hrc
  next hprot =>
  split at h
  next hrc => exact absurd h hrc
  next horig =>
  obtain ⟨ps, hps⟩ := validateProtocolArgs_ok hnull (not_not.mp hprot)
  obtain ⟨os, hos⟩ := validateOriginArgs_ok (not_not.mp horig)
  exact ⟨_, by rw [PathArg.cfg, hpath, hps, hos]⟩

/-- The validation loop follows no null pointer. When it ends well there are configurations, and
it is their validation. -/
theorem validateArgs_spec (profiles : ProfileSet) (total : Nat) (as : List PathArg) :
    (∃ rc, validateArgs profiles total as = some rc) ∧
    (∀ cfgs : List ServerPathCfg, as.map PathArg.cfg = cfgs.map some →
      validateArgs profiles total as = some (validatePaths profiles total cfgs)) ∧
    (validateArgs profiles total as = some .ok →
      ∃ cfgs : List ServerPathCfg, as.map PathArg.cfg = cfgs.map some) := by
  induction as generalizing total with
  | nil =>
    refine ⟨⟨.ok, rfl⟩, ?_, fun _ => ⟨[], rfl⟩⟩
    intro cfgs h
    rw [List.map_nil] at h
    rw [List.map_eq_nil_iff.mp h.symm]
    rfl
  | cons a as ih =>
    rw [validateArgs]
    by_cases hok : validateArg profiles a = .ok
    · obtain ⟨cfg, hcfg⟩ := validateArg_ok hok
      obtain ⟨hsame, hderef⟩ := validateArg_cfg profiles hcfg
      rw [if_neg (not_not.mpr hok), hderef]
      dsimp only
      cases hstorage : originStorage total (cfg.origins.getD []) with
      | none =>
        refine ⟨⟨_, rfl⟩, ?_, fun h => nomatch h⟩
        intro cfgs h
        cases cfgs with
        | nil => cases h
        | cons c cs =>
          obtain ⟨hc, hcs⟩ := List.cons.inj h
          rw [hcfg] at hc
          cases hc
          rw [validatePaths]
          dsimp only
          rw [if_neg (by rw [← hsame]; exact not_not.mpr hok), hstorage]
      | some total' =>
        obtain ⟨hdef, hval, hall⟩ := ih total'
        refine ⟨hdef, ?_, ?_⟩
        · intro cfgs h
          cases cfgs with
          | nil => cases h
          | cons c cs =>
            obtain ⟨hc, hcs⟩ := List.cons.inj h
            rw [hcfg] at hc
            cases hc
            rw [validatePaths]
            dsimp only
            rw [if_neg (by rw [← hsame]; exact not_not.mpr hok), hstorage]
            exact hval cs hcs
        · intro h
          obtain ⟨cs, hcs⟩ := hall h
          exact ⟨cfg :: cs, by rw [List.map_cons, List.map_cons, hcfg, hcs]⟩
    · rw [if_pos hok]
      refine ⟨⟨_, rfl⟩, ?_, fun h => absurd (Option.some.inj h) hok⟩
      intro cfgs h
      cases cfgs with
      | nil => cases h
      | cons c cs =>
        obtain ⟨hc, hcs⟩ := List.cons.inj h
        obtain ⟨hsame, -⟩ := validateArg_cfg profiles hc
        rw [validatePaths, hsame]
        rw [if_pos (by rw [← hsame]; exact hok)]

/-! ## What the checks promise the copy loop -/

/-- The origins of a configuration. -/
def ServerPathCfg.allowed (cfg : ServerPathCfg) : List Bytes := cfg.origins.getD []

/-- The configuration of one path fits the entry's own buffers. -/
structure ServerPathCfg.Fits (cfg : ServerPathCfg) : Prop where
  path : cfg.path.length ≤ pathCap
  protoCount : cfg.protocols.length ≤ maxOffered
  protoRoom : room 0 cfg.protocols ≤ protoBufSize
  originCount : cfg.allowed.length ≤ maxOrigins
  originMax : ∀ o ∈ cfg.allowed, o.length ≤ originMaxBytes

theorem validateProtocolsFrom_ok {storage off : Nat} {ps : List Bytes}
    (h : validateProtocolsFrom storage off ps = .ok) (hoff : off ≤ storage) :
    off + room 0 ps ≤ storage := by
  induction ps generalizing off with
  | nil => exact hoff
  | cons p ps ih =>
    rw [validateProtocolsFrom] at h
    split at h
    next hrc => exact absurd h hrc
    split at h
    · cases h
    next hroom =>
    have hrest := ih h (by omega)
    rw [room_cons]
    omega

theorem validateOriginsFrom_ok {earlier : List Bytes} {total : Nat} {os : List Bytes}
    (h : validateOriginsFrom earlier total os = .ok) : ∀ o ∈ os, o.length ≤ originMaxBytes := by
  induction os generalizing earlier total with
  | nil => exact fun o ho => nomatch ho
  | cons x os ih =>
    rw [validateOriginsFrom] at h
    dsimp only at h
    split at h
    · cases h
    next hmax =>
    split at h
    · cases h
    split at h
    · cases h
    split at h
    · cases h
    intro o ho
    rcases List.mem_cons.mp ho with rfl | ho
    · omega
    · exact ih h o ho

theorem validateOriginPolicy_ok {mode : OriginPolicy} {origins : Option (List Bytes)}
    (h : validateOriginPolicy mode origins = .ok) : (origins.getD []).length ≤ maxOrigins ∧
      ∀ o ∈ origins.getD [], o.length ≤ originMaxBytes := by
  unfold validateOriginPolicy at h
  split at h
  · cases h
  split at h
  · split at h
    · cases h
    next hnone =>
      rw [Option.not_isSome_iff_eq_none.mp hnone]
      exact ⟨Nat.zero_le _, fun o ho => nomatch ho⟩
  split at h
  · cases h
  split at h
  · cases h
  split at h
  · cases h
  next hcount => exact ⟨Nat.not_lt.mp hcount, validateOriginsFrom_ok h⟩

theorem validatePath_fits {profiles : ProfileSet} {cfg : ServerPathCfg}
    (h : validatePath profiles cfg = .ok) : cfg.Fits := by
  unfold validatePath at h
  split at h
  · cases h
  next hsize =>
  dsimp only at h
  split at h
  next hrc => exact absurd h hrc
  next hprot =>
  split at h
  next hrc => exact absurd h hrc
  next horig =>
  obtain ⟨-, hpath, hcount⟩ : ¬ cfg.path.isEmpty ∧ ¬ cfg.path.length > pathCap ∧
      ¬ cfg.protocols.length > maxOffered := by simpa only [not_or] using hsize
  obtain ⟨horigins, hmax⟩ := validateOriginPolicy_ok (not_not.mp horig)
  have hroom := not_not.mp hprot
  unfold validateProtocols at hroom
  rw [if_neg hcount] at hroom
  have hfrom := validateProtocolsFrom_ok hroom (Nat.zero_le _)
  rw [Nat.zero_add] at hfrom
  exact {
    path := Nat.not_lt.mp hpath
    protoCount := Nat.not_lt.mp hcount
    protoRoom := hfrom
    originCount := horigins
    originMax := hmax }

theorem originStorage_ok {total total' : Nat} {os : List Bytes}
    (h : originStorage total os = some total') (hmax : ∀ o ∈ os, o.length ≤ originMaxBytes)
    (htotal : total ≤ originStorageTotal) :
    total' = total + room 1 os ∧ total' ≤ originStorageTotal := by
  induction os generalizing total with
  | nil =>
    cases h
    exact ⟨rfl, htotal⟩
  | cons o os ih =>
    rw [originStorage] at h
    split at h
    · cases h
    next hroom =>
    have hlen := hmax o List.mem_cons_self
    have horigin : originMaxBytes < originStorageTotal := by decide
    obtain ⟨heq, hle⟩ := ih h (fun x hx => hmax x (List.mem_cons_of_mem o hx)) (by omega)
    rw [room_cons]
    omega

/-- The running total of the checks bounds all the origins together. -/
theorem validatePaths_fits {profiles : ProfileSet} {total : Nat} {cfgs : List ServerPathCfg}
    (h : validatePaths profiles total cfgs = .ok) (htotal : total ≤ originStorageTotal) :
    (∀ c ∈ cfgs, c.Fits) ∧
      total + room 1 (cfgs.flatMap ServerPathCfg.allowed) ≤ originStorageTotal := by
  induction cfgs generalizing total with
  | nil => exact ⟨fun c hc => (nomatch hc), htotal⟩
  | cons c cs ih =>
    rw [validatePaths] at h
    split at h
    next hrc => exact absurd h hrc
    next hrc =>
    have hfits := validatePath_fits (not_not.mp hrc)
    split at h
    · cases h
    next total' hstorage =>
    obtain ⟨heq, hle⟩ := originStorage_ok hstorage hfits.originMax htotal
    obtain ⟨hall, hroom⟩ := ih h hle
    refine ⟨?_, ?_⟩
    · intro x hx
      rcases List.mem_cons.mp hx with rfl | hx
      · exact hfits
      · exact hall x hx
    · rw [List.flatMap_cons, room_append]
      have hsame : room 1 (c.origins.getD []) = room 1 c.allowed := rfl
      omega

/-! ## The copy loop -/

/-- An entry holds a configuration whose origins start at `off`. -/
structure StoredPath.Holds (originBuf : Cells UInt8 originStorageTotal) (off : Nat)
    (p : StoredPath) (cfg : ServerPathCfg) : Prop where
  entry : p.entry originBuf = cfg.entry
  pathLen : p.pathLen ≤ pathCap
  protoSpans : p.protoSpans = layout 0 0 cfg.protocols
  originSpans : p.originSpans = layout 1 off cfg.allowed

/-- Later writes to `origin_buf` start after the entry's own origins. -/
theorem StoredPath.Holds.keep {ob ob' : Cells UInt8 originStorageTotal} {off : Nat}
    {p : StoredPath} {cfg : ServerPathCfg} (h : p.Holds ob off cfg)
    (hkeep : ∀ o l, o + l ≤ off + room 1 cfg.allowed → ob'.read o l = ob.read o l) :
    p.Holds ob' off cfg where
  pathLen := h.pathLen
  protoSpans := h.protoSpans
  originSpans := h.originSpans
  entry := by
    have hmap : p.originSpans.map ob'.span = p.originSpans.map ob.span := by
      refine List.map_congr_left ?_
      intro s hs
      rw [h.originSpans] at hs
      exact hkeep s.off s.len (layout_within s hs).2
    rw [← h.entry, StoredPath.entry, StoredPath.entry, hmap]

theorem copyPath_ok (st : PathStore) {i off : Nat} {cfg : ServerPathCfg} (hi : i < maxPaths)
    (hfits : cfg.Fits) (hroom : off + room 1 cfg.allowed ≤ originStorageTotal) :
    ∃ st' p, copyPath st i off cfg = some (st', off + room 1 cfg.allowed) ∧
      st'.paths.read i 1 = [p] ∧ p.Holds st'.originBuf off cfg ∧
      (∀ o l, o + l ≤ i → st'.paths.read o l = st.paths.read o l) ∧
      ∀ o l, o + l ≤ off → st'.originBuf.read o l = st.originBuf.read o l := by
  obtain ⟨p, hp⟩ : ∃ p, st.paths.read i 1 = [p] :=
    List.length_eq_one_iff.mp (length_read _ (by omega))
  obtain ⟨path, hpath, hpathRead, -⟩ := p.path.write_ok (show 0 + cfg.path.length ≤ pathCap by
    have := hfits.path
    omega)
  obtain ⟨protoBuf, protos, hprot, -, hprotSpans, -, hprotRead⟩ :=
    packStrings_ok ([] : Bytes) p.protoBuf p.protos
      (show 0 + room 0 cfg.protocols ≤ protoBufSize by have := hfits.protoRoom; omega)
      (show 0 + cfg.protocols.length ≤ maxOffered by have := hfits.protoCount; omega)
  obtain ⟨originBuf, origins, horig, -, horigSpans, hkeep, horigRead⟩ :=
    packStrings_ok ([0] : Bytes) st.originBuf p.origins hroom
      (show 0 + cfg.allowed.length ≤ maxOrigins by have := hfits.originCount; omega)
  obtain ⟨q, hq⟩ : ∃ q : StoredPath, q = {
      path, pathLen := cfg.path.length, protoBuf, protos, protoCount := cfg.protocols.length,
      require := cfg.requireProtocol, originPolicy := cfg.originPolicy, origins,
      originCount := cfg.allowed.length } := ⟨_, rfl⟩
  obtain ⟨paths, hpaths, hself, hframe⟩ :=
    st.paths.write_ok (show i + [q].length ≤ maxPaths from hi)
  refine ⟨{ st with paths, originBuf }, q, ?_, hself, ?_, hframe, hkeep⟩
  · rw [hq] at hpaths
    unfold ServerPathCfg.allowed at hpaths horig ⊢
    simp only [copyPath, hp, hpath, hprot, horig, hpaths]
    rfl
  · subst hq
    have hpathEq : path.read 0 cfg.path.length = cfg.path := hpathRead
    have hprotEq : (protos.read 0 cfg.protocols.length).map protoBuf.span = cfg.protocols := by
      rw [hprotSpans]
      exact hprotRead
    have horigEq : (origins.read 0 cfg.allowed.length).map originBuf.span = cfg.allowed := by
      rw [horigSpans]
      exact horigRead
    exact {
      pathLen := hfits.path
      protoSpans := hprotSpans
      originSpans := horigSpans
      entry := by
        unfold StoredPath.entry StoredPath.protoSpans StoredPath.originSpans
        dsimp only
        rw [hpathEq, hprotEq, horigEq]
        rfl }

/-- Entries hold configurations one by one, the origins of each after those of the last. -/
inductive HoldsAll (originBuf : Cells UInt8 originStorageTotal) :
    Nat → List StoredPath → List ServerPathCfg → Prop where
  | nil {off : Nat} : HoldsAll originBuf off [] []
  | cons {off : Nat} {p : StoredPath} {cfg : ServerPathCfg} {ps : List StoredPath}
      {cfgs : List ServerPathCfg} (h : p.Holds originBuf off cfg)
      (hs : HoldsAll originBuf (off + room 1 cfg.allowed) ps cfgs) :
      HoldsAll originBuf off (p :: ps) (cfg :: cfgs)

theorem copyPaths_ok (st : PathStore) {as : List PathArg} {cfgs : List ServerPathCfg}
    {i off : Nat} (has : as.map PathArg.cfg = cfgs.map some) (hi : i + cfgs.length ≤ maxPaths)
    (hfits : ∀ c ∈ cfgs, c.Fits)
    (hroom : off + room 1 (cfgs.flatMap ServerPathCfg.allowed) ≤ originStorageTotal) :
    ∃ st', copyPaths as i off st = some st' ∧
      HoldsAll st'.originBuf off (st'.paths.read i cfgs.length) cfgs ∧
      (∀ o l, o + l ≤ i → st'.paths.read o l = st.paths.read o l) ∧
      ∀ o l, o + l ≤ off → st'.originBuf.read o l = st.originBuf.read o l := by
  induction cfgs generalizing as st i off with
  | nil =>
    have hnil : as = [] := by simpa using has
    subst hnil
    exact ⟨st, rfl, by simpa using HoldsAll.nil, fun _ _ _ => rfl, fun _ _ _ => rfl⟩
  | cons c cs ih =>
    obtain ⟨a, as, rfl⟩ : ∃ a as', as = a :: as' := by
      cases as with
      | nil => cases has
      | cons a as => exact ⟨a, as, rfl⟩
    obtain ⟨ha, has⟩ := List.cons.inj has
    rw [List.length_cons] at hi
    rw [List.flatMap_cons, room_append] at hroom
    obtain ⟨st₁, p, hcopy, hp, hholds, hbefore, hkeep⟩ :=
      copyPath_ok st (show i < maxPaths by omega) (hfits c List.mem_cons_self)
        (show off + room 1 c.allowed ≤ originStorageTotal by omega)
    obtain ⟨st', hrest, hall, hpaths, hbuf⟩ := ih st₁ has
      (show i + 1 + cs.length ≤ maxPaths by omega)
      (fun x hx => hfits x (List.mem_cons_of_mem c hx))
      (show off + room 1 c.allowed + room 1 (cs.flatMap ServerPathCfg.allowed) ≤
        originStorageTotal by omega)
    refine ⟨st', ?_, ?_, ?_, ?_⟩
    · rw [copyPaths, ha]
      dsimp only
      rw [hcopy]
      exact hrest
    · have hfirst : st'.paths.read i 1 = [p] := by rw [hpaths i 1 (Nat.le_refl _), hp]
      rw [List.length_cons, Nat.add_comm cs.length, read_append, hfirst]
      exact .cons (hholds.keep hbuf) hall
    · intro o l hol
      rw [hpaths o l (by omega), hbefore o l hol]
    · intro o l hol
      rw [hbuf o l (by omega), hkeep o l hol]

/-! ## The table -/

theorem HoldsAll.entries {ob : Cells UInt8 originStorageTotal} {off : Nat} {ps : List StoredPath}
    {cfgs : List ServerPathCfg} (h : HoldsAll ob off ps cfgs) :
    ps.map (StoredPath.entry ob) = cfgs.map ServerPathCfg.entry := by
  induction h with
  | nil => rfl
  | cons h hs ih => rw [List.map_cons, List.map_cons, h.entry, ih]

theorem HoldsAll.originSpans {ob : Cells UInt8 originStorageTotal} {off : Nat}
    {ps : List StoredPath} {cfgs : List ServerPathCfg} (h : HoldsAll ob off ps cfgs) :
    ps.flatMap StoredPath.originSpans =
      layout 1 off (cfgs.flatMap ServerPathCfg.allowed) := by
  induction h with
  | nil => rfl
  | cons h hs ih =>
    rw [List.flatMap_cons, List.flatMap_cons, layout_append, h.originSpans, ih]

/-- No string of the table leaves its buffer and no two share a cell: a path starts its own
buffer, protocols share `proto_buf` of their entry, origins share `origin_buf`. -/
structure PathStore.Apart (st : PathStore) : Prop where
  path : ∀ p ∈ st.active, p.pathLen ≤ pathCap
  protos : ∀ p ∈ st.active, p.protoSpans.Pairwise Span.Apart ∧
    ∀ s ∈ p.protoSpans, s.off + s.len ≤ protoBufSize
  origins : (st.active.flatMap StoredPath.originSpans).Pairwise Span.Apart ∧
    ∀ s ∈ st.active.flatMap StoredPath.originSpans, s.off + s.len ≤ originStorageTotal

theorem HoldsAll.forall {ob : Cells UInt8 originStorageTotal} {off : Nat} {ps : List StoredPath}
    {cfgs : List ServerPathCfg} (h : HoldsAll ob off ps cfgs) :
    ∀ p ∈ ps, ∃ cfg ∈ cfgs, ∃ off, p.Holds ob off cfg := by
  induction h with
  | nil => exact fun p hp => nomatch hp
  | cons h hs ih =>
    intro p hp
    rcases List.mem_cons.mp hp with rfl | hp
    · exact ⟨_, List.mem_cons_self, _, h⟩
    · obtain ⟨cfg, hcfg, off, hholds⟩ := ih p hp
      exact ⟨cfg, List.mem_cons_of_mem _ hcfg, off, hholds⟩

/-- Setting the paths always has a result: no null pointer is followed and no write leaves its
buffer. An error changes nothing. Otherwise every argument has a configuration, the buffers read
back as exactly these, and the strings lie apart. -/
theorem server_paths (c : Conn) (paths : ArrayArg PathArg) (st : PathStore) :
    ∃ rc st', storePaths c paths st = some (rc, st') ∧
      (rc ≠ .ok → st' = st) ∧
      (rc = .ok → ∃ cfgs : List ServerPathCfg, paths.list.map PathArg.cfg = cfgs.map some ∧
        serverSetPaths c st.table cfgs = (.ok, st'.table) ∧
        st'.table = cfgs.map ServerPathCfg.entry ∧ st'.Apart) := by
  unfold storePaths
  split
  · exact ⟨_, _, rfl, fun _ => rfl, fun h => nomatch h⟩
  next hargs =>
  split
  · exact ⟨_, _, rfl, fun _ => rfl, fun h => nomatch h⟩
  next hpersp =>
  obtain ⟨⟨rc, hrc⟩, hval, hcfgs⟩ := validateArgs_spec c.wtProfiles 0 paths.list
  rw [hrc]
  dsimp only
  split
  next hne => exact ⟨rc, st, rfl, fun _ => rfl, fun h => absurd h hne⟩
  next hok =>
  have hok := not_not.mp hok
  subst hok
  obtain ⟨cfgs, hmap⟩ := hcfgs hrc
  have hvalid : validatePaths c.wtProfiles 0 cfgs = .ok := by
    rw [hval cfgs hmap] at hrc
    exact Option.some.inj hrc
  obtain ⟨hfits, hroom⟩ := validatePaths_fits hvalid (Nat.zero_le _)
  have hcount : paths.count = cfgs.length := by
    have hlen : paths.list.length = cfgs.length := by
      simpa using congrArg List.length hmap
    rw [← hlen]
    cases paths with
    | null n =>
      have hn : ¬ n > 0 := fun h => hargs (.inl ⟨h, rfl⟩)
      exact Nat.eq_zero_of_not_pos hn
    | items xs => rfl
  have hmax : cfgs.length ≤ maxPaths := by
    rw [← hcount]
    exact Nat.not_lt.mp fun h => hargs (.inr h)
  obtain ⟨st', hcopy, hall, -, -⟩ :=
    copyPaths_ok st hmap (show 0 + cfgs.length ≤ maxPaths by omega) hfits hroom
  rw [hcopy]
  have htable : PathStore.table { st' with pathCount := paths.count } =
      cfgs.map ServerPathCfg.entry := by
    rw [hcount]
    exact hall.entries
  refine ⟨.ok, _, rfl, fun h => absurd rfl h, fun _ => ⟨cfgs, hmap, ?_, htable, ?_⟩⟩
  · rw [htable]
    simp only [serverSetPaths, if_neg (Nat.not_lt.mpr hmax), if_neg hpersp, hvalid]
    rfl
  · have hactive : PathStore.active { st' with pathCount := paths.count } =
        st'.paths.read 0 cfgs.length := by
      rw [hcount]
      rfl
    refine { path := ?_, protos := ?_, origins := ?_ }
    · intro p hp
      rw [hactive] at hp
      obtain ⟨cfg, -, off, hholds⟩ := hall.forall p hp
      exact hholds.pathLen
    · intro p hp
      rw [hactive] at hp
      obtain ⟨cfg, hcfg, off, hholds⟩ := hall.forall p hp
      rw [hholds.protoSpans]
      refine ⟨layout_apart _ _ _, ?_⟩
      intro s hs
      have hin := (layout_within s hs).2
      have hproto := (hfits cfg hcfg).protoRoom
      omega
    · rw [hactive, hall.originSpans]
      refine ⟨layout_apart _ _ _, ?_⟩
      intro s hs
      have hin := (layout_within s hs).2
      omega

/-- A null path is refused whatever comes before it. -/
example : validateArgs {} 0 [{ path := some (ascii "/a") }] = some .ok ∧
    validateArgs {} 0 [{ path := some (ascii "/a") }, { path := none }] = some .invalidArg := by
  decide +kernel

end Wtquic.Engine
