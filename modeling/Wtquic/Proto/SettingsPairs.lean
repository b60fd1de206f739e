-- SUMMARY: SETTINGS payloads read as lists of pairs, and the profile the two sides agree on.
import Wtquic.Proto.Settings

namespace Wtquic.Settings

/-! # SETTINGS as a list of pairs

A payload carries identifier and value varints. What a decode makes of it depends on the pairs
alone, and not on their order. -/

/-- One setting on the wire. Either varint may be longer than it has to be. -/
structure Pair where
  id : Nat
  value : Nat
  idBytes : Bytes
  valueBytes : Bytes
  idCode : Varint.decode idBytes = some (id, idBytes.length)
  valueCode : Varint.decode valueBytes = some (value, valueBytes.length)

def Pair.entry (p : Pair) : Nat × Nat := (p.id, p.value)

def Pair.bytes (p : Pair) : Bytes := p.idBytes ++ p.valueBytes

def payload (ps : List Pair) : Bytes := ps.flatMap Pair.bytes

/-- The settings whose value is 0 or 1. -/
def isBoolean (id : Nat) : Bool :=
  id = idEnableConnectProtocol || id = idH3Datagram || id = idWtEnabled
    || id = idEnableWebtransportLeg

def isKnown (id : Nat) : Bool :=
  isBoolean id || id = idQpackMaxTableCapacity || id = idMaxFieldSectionSize
    || id = idQpackBlockedStreams || id = idWtMaxSessionsD13 || id = idWtMaxSessionsD07

/-- An entry no payload is rejected for alone. -/
def Admissible (e : Nat × Nat) : Prop :=
  settingIsH2Reserved e.1 = false ∧ (isBoolean e.1 = true → e.2 ≤ 1)

/-- The entries of an accepted payload. -/
structure WellFormed (es : List (Nat × Nat)) : Prop where
  nodup : (es.map Prod.fst).Nodup
  admissible : ∀ e ∈ es, Admissible e

/-- The record that says what the entries say. -/
def record (es : List (Nat × Nat)) : H3Settings where
  qpackMaxTableCapacity := es.lookup idQpackMaxTableCapacity
  maxFieldSectionSize := es.lookup idMaxFieldSectionSize
  qpackBlockedStreams := es.lookup idQpackBlockedStreams
  enableConnectProtocol := es.lookup idEnableConnectProtocol
  h3Datagram := es.lookup idH3Datagram
  wtEnabled := es.lookup idWtEnabled
  wtMaxSessionsD13 := es.lookup idWtMaxSessionsD13
  wtMaxSessionsD07 := es.lookup idWtMaxSessionsD07
  enableWebtransportLeg := es.lookup idEnableWebtransportLeg
  unknownCount := es.countP fun e => !isKnown e.1

/-! ## Storing one entry -/

theorem store_boolean {s : H3Settings} {id value : Nat} (hid : isBoolean id = true)
    (hvalue : 1 < value) : store s id value = .error .setting := by
  simp only [isBoolean, Bool.or_eq_true, decide_eq_true_eq] at hid
  rcases hid with ((rfl | rfl) | rfl) | rfl <;> simp [store, hvalue, idQpackMaxTableCapacity,
    idMaxFieldSectionSize, idQpackBlockedStreams, idEnableConnectProtocol, idH3Datagram,
    idWtEnabled, idWtMaxSessionsD13, idWtMaxSessionsD07, idEnableWebtransportLeg]

theorem lookup_snoc (es : List (Nat × Nat)) (e : Nat × Nat) (id : Nat)
    (hnew : e.1 ∉ es.map Prod.fst) :
    (es ++ [e]).lookup id = if id = e.1 then some e.2 else es.lookup id := by
  induction es with
  | nil =>
    obtain ⟨k, v⟩ := e
    by_cases h : id = k
    · simp [h]
    · simp [List.lookup_cons, beq_false_of_ne h, h]
  | cons x es ih =>
    simp only [List.map_cons, List.mem_cons, not_or] at hnew
    rw [List.cons_append, List.lookup_cons, List.lookup_cons, ih hnew.2]
    by_cases h : id = x.1
    · have hne : id ≠ e.1 := fun h' => hnew.1 (h'.symm.trans h)
      simp [h, Ne.symm hnew.1]
    · simp [beq_false_of_ne h]

/-- A new entry goes to its own field and leaves the others as they were. -/
theorem store_record (es : List (Nat × Nat)) (e : Nat × Nat) (hnew : e.1 ∉ es.map Prod.fst)
    (he : Admissible e) : store (record es) e.1 e.2 = .ok (record (es ++ [e])) := by
  have hbool := he.2
  simp only [record, lookup_snoc es e _ hnew, List.countP_append, List.countP_singleton]
  obtain ⟨id, value⟩ := e
  by_cases hknown : isKnown id = true
  · simp only [isKnown, isBoolean, Bool.or_eq_true, decide_eq_true_eq] at hknown
    rcases hknown with (((((((rfl | rfl) | rfl) | rfl) | rfl) | rfl) | rfl) | rfl) | rfl
    all_goals
      simp [store, isKnown, isBoolean, idQpackMaxTableCapacity, idMaxFieldSectionSize,
        idQpackBlockedStreams, idEnableConnectProtocol, idH3Datagram, idWtEnabled,
        idWtMaxSessionsD13, idWtMaxSessionsD07, idEnableWebtransportLeg] at hbool ⊢
    all_goals exact hbool
  · have hcount : isKnown id = false := by simpa using hknown
    simp only [isKnown, isBoolean, Bool.or_eq_true, decide_eq_true_eq, not_or] at hknown
    obtain ⟨⟨⟨⟨⟨⟨⟨⟨h1, h2⟩, h3⟩, h4⟩, h5⟩, h6⟩, h7⟩, h8⟩, h9⟩ := hknown
    simp [store, hcount, h1, h2, h3, h4, h5, h6, h7, h8, h9, Ne.symm h1,
      Ne.symm h2, Ne.symm h3, Ne.symm h4, Ne.symm h5, Ne.symm h6, Ne.symm h7, Ne.symm h8,
      Ne.symm h9]

/-! ## The prefix already decoded -/

theorem Pair.decode_id (p : Pair) (rest : Bytes) :
    Varint.decode (p.bytes ++ rest) = some (p.id, p.idBytes.length) := by
  rw [Pair.bytes, List.append_assoc]
  exact Varint.decode_append p.idCode _

theorem Pair.decode_value (p : Pair) (rest : Bytes) :
    Varint.decode ((p.bytes ++ rest).drop p.idBytes.length) =
      some (p.value, p.valueBytes.length) := by
  rw [Pair.bytes, List.append_assoc, List.drop_left]
  exact Varint.decode_append p.valueCode _

@[simp] theorem Pair.length_bytes (p : Pair) :
    p.bytes.length = p.idBytes.length + p.valueBytes.length := by
  simp [Pair.bytes]

theorem Pair.length_pos (p : Pair) : 0 < p.bytes.length := by
  have := Varint.decode_le p.idCode
  rw [p.length_bytes]
  omega

@[simp] theorem payload_nil : payload [] = [] := rfl

@[simp] theorem payload_cons (p : Pair) (ps : List Pair) :
    payload (p :: ps) = p.bytes ++ payload ps := by
  simp [payload]

@[simp] theorem payload_append (ps qs : List Pair) :
    payload (ps ++ qs) = payload ps ++ payload qs := by
  simp [payload]

/-- Every pair takes a round of a scan, and every round has a byte. -/
theorem settingSeenBefore_payload {fuel : Nat} {ps : List Pair} (id : Nat)
    (hfuel : (payload ps).length ≤ fuel) :
    settingSeenBefore fuel (payload ps) id = decide (id ∈ ps.map Pair.id) := by
  induction ps generalizing fuel with
  | nil =>
    cases fuel with
    | zero => rfl
    | succ fuel => rfl
  | cons p ps ih =>
    have hpos := p.length_pos
    rw [payload_cons, List.length_append] at hfuel
    obtain ⟨fuel, rfl⟩ : ∃ k, fuel = k + 1 := ⟨fuel - 1, by omega⟩
    obtain ⟨b, bs, hbs⟩ := List.exists_cons_of_length_pos hpos
    have hround : settingSeenBefore (fuel + 1) (p.bytes ++ payload ps) id =
        (decide (p.id = id) || settingSeenBefore fuel (payload ps) id) := by
      have hdrop : (p.bytes ++ payload ps).drop (p.idBytes.length + p.valueBytes.length)
          = payload ps := by
        rw [← p.length_bytes, List.drop_left]
      rw [settingSeenBefore]
      · simp only [p.decode_id, p.decode_value, Option.getD_some, hdrop]
      · simp [hbs]
    rw [payload_cons, hround, ih (by omega)]
    simp [eq_comm]

/-! ## One round of the decode loop -/

theorem decodeLoop_end {bs : Bytes} (fuel : Nat) (s : H3Settings) :
    decodeLoop bs fuel bs.length s = .ok s := by
  unfold decodeLoop
  rw [if_neg (Nat.lt_irrefl _)]

theorem decodeLoop_pair {done rest : List Pair} {p : Pair} {fuel : Nat} {s : H3Settings} :
    decodeLoop (payload (done ++ p :: rest)) (fuel + 1) (payload done).length s =
      if settingIsH2Reserved p.id then .error .setting
      else if p.id ∈ done.map Pair.id then .error .setting
      else
        match store s p.id p.value with
        | .error e => .error e
        | .ok s => decodeLoop (payload (done ++ p :: rest)) fuel (payload (done ++ [p])).length s := by
  have hdrop : (payload (done ++ p :: rest)).drop (payload done).length
      = p.bytes ++ payload rest := by simp
  have htake : (payload (done ++ p :: rest)).take (payload done).length = payload done := by simp
  have hlt : (payload done).length < (payload (done ++ p :: rest)).length := by
    have hpos := p.length_pos
    rw [payload_append, payload_cons, List.length_append, List.length_append]
    omega
  rw [decodeLoop, if_pos hlt, hdrop, p.decode_id]
  dsimp only
  rw [← List.drop_drop, hdrop, p.decode_value, htake,
    settingSeenBefore_payload p.id (Nat.le_refl _)]
  dsimp only
  have hnext : (payload (done ++ [p])).length =
      (payload done).length + p.idBytes.length + p.valueBytes.length := by
    simp [Nat.add_assoc]
  by_cases hseen : p.id ∈ done.map Pair.id
  · simp only [if_pos hseen, decide_eq_true hseen, if_true]
  · cases hstore : store s p.id p.value with
    | error e => simp only [if_neg hseen, decide_eq_false hseen, Bool.false_eq_true, if_false]
    | ok s' =>
      simp only [if_neg hseen, decide_eq_false hseen, hnext, Bool.false_eq_true, if_false]

/-! ## The whole payload -/

def entries (ps : List Pair) : List (Nat × Nat) := ps.map Pair.entry

@[simp] theorem fst_entries (ps : List Pair) : (entries ps).map Prod.fst = ps.map Pair.id := by
  simp [entries, Pair.entry]

/-- The loop behind the pairs `done`: either the rest is fine too, or it is rejected. -/
theorem decodeLoop_payload {done rest : List Pair} {fuel : Nat}
    (hfuel : (payload rest).length ≤ fuel) (hdone : WellFormed (entries done)) :
    (WellFormed (entries (done ++ rest)) ∧
      decodeLoop (payload (done ++ rest)) fuel (payload done).length (record (entries done)) =
        .ok (record (entries (done ++ rest)))) ∨
    (¬ WellFormed (entries (done ++ rest)) ∧
      decodeLoop (payload (done ++ rest)) fuel (payload done).length (record (entries done)) =
        .error .setting) := by
  induction rest generalizing done fuel with
  | nil =>
    left
    rw [List.append_nil]
    exact ⟨hdone, decodeLoop_end fuel _⟩
  | cons p rest ih =>
    have hpos := p.length_pos
    rw [payload_cons, List.length_append] at hfuel
    obtain ⟨fuel, rfl⟩ : ∃ k, fuel = k + 1 := ⟨fuel - 1, by omega⟩
    have hmem : p.entry ∈ entries (done ++ p :: rest) := by simp [entries]
    rw [decodeLoop_pair]
    by_cases hres : settingIsH2Reserved p.id = true
    · right
      refine ⟨fun h => ?_, if_pos hres⟩
      have hfree : settingIsH2Reserved p.id = false := (h.admissible _ hmem).1
      rw [hfree] at hres
      cases hres
    rw [if_neg hres]
    by_cases hseen : p.id ∈ done.map Pair.id
    · right
      refine ⟨fun h => ?_, if_pos hseen⟩
      have hnodup := h.nodup
      rw [fst_entries, List.map_append, List.map_cons, List.nodup_append] at hnodup
      exact hnodup.2.2 p.id hseen p.id (List.mem_cons_self ..) rfl
    rw [if_neg hseen]
    by_cases hbool : isBoolean p.id = true ∧ 1 < p.value
    · right
      rw [store_boolean hbool.1 hbool.2]
      refine ⟨fun h => ?_, rfl⟩
      exact absurd hbool.2 (Nat.not_lt.mpr ((h.admissible _ hmem).2 hbool.1))
    · have hadm : Admissible p.entry :=
        ⟨by simpa [Pair.entry] using hres, fun h => by
          have hle := fun hlt => hbool ⟨h, hlt⟩
          exact Nat.not_lt.mp hle⟩
      have hnext : WellFormed (entries (done ++ [p])) := by
        constructor
        · rw [fst_entries, List.map_append, List.nodup_append]
          have hnodup := hdone.nodup
          rw [fst_entries] at hnodup
          refine ⟨hnodup, by simp, ?_⟩
          intro a ha b hb hab
          obtain rfl : b = p.id := by simpa using hb
          exact hseen (hab ▸ ha)
        · intro e he
          simp only [entries, List.map_append, List.mem_append, List.map_cons, List.map_nil,
            List.mem_singleton] at he
          cases he with
          | inl he => exact hdone.admissible e he
          | inr he => exact he ▸ hadm
      have hstore : store (record (entries done)) p.id p.value =
          .ok (record (entries (done ++ [p]))) := by
        rw [entries, entries, List.map_append]
        exact store_record (entries done) p.entry (by rwa [fst_entries]) hadm
      rw [hstore]
      have hfuel' : (payload rest).length ≤ fuel := by omega
      have hrest := ih hfuel' hnext
      rwa [List.append_assoc] at hrest

theorem wellFormed_nil : WellFormed (entries []) :=
  ⟨List.nodup_nil, fun e he => by simp [entries] at he⟩

theorem decode_payload {ps : List Pair} (h : WellFormed (entries ps)) :
    decode (payload ps) = .ok (record (entries ps)) := by
  cases decodeLoop_payload (Nat.le_refl (payload ps).length) wellFormed_nil with
  | inl hok => exact hok.2
  | inr herr => exact absurd h herr.1

theorem decode_payload_error {ps : List Pair} (h : ¬ WellFormed (entries ps)) :
    decode (payload ps) = .error .setting := by
  cases decodeLoop_payload (Nat.le_refl (payload ps).length) wellFormed_nil with
  | inl hok => exact absurd hok.1 h
  | inr herr => exact herr.2

/-! ## Order and prefixes -/

theorem mem_iff_lookup {es : List (Nat × Nat)} (h : (es.map Prod.fst).Nodup) (id value : Nat) :
    es.lookup id = some value ↔ (id, value) ∈ es := by
  induction es with
  | nil => simp
  | cons e es ih =>
    obtain ⟨k, v⟩ := e
    rw [List.map_cons, List.nodup_cons] at h
    rw [List.lookup_cons]
    by_cases hid : id = k
    · subst hid
      have hout : (id, value) ∉ es := fun hmem => h.1 (List.mem_map.mpr ⟨_, hmem, rfl⟩)
      simp [hout, eq_comm]
    · simp [beq_false_of_ne hid, ih h.2, hid]

theorem lookup_perm {es es' : List (Nat × Nat)} (hp : es.Perm es')
    (h : (es.map Prod.fst).Nodup) (id : Nat) : es.lookup id = es'.lookup id := by
  have h' : (es'.map Prod.fst).Nodup := (hp.map Prod.fst).nodup_iff.mp h
  ext value
  rw [mem_iff_lookup h, mem_iff_lookup h', hp.mem_iff]

theorem WellFormed.perm {es es' : List (Nat × Nat)} (hp : es.Perm es') (h : WellFormed es) :
    WellFormed es' where
  nodup := (hp.map Prod.fst).nodup_iff.mp h.nodup
  admissible e he := h.admissible e (hp.mem_iff.mpr he)

theorem record_perm {es es' : List (Nat × Nat)} (hp : es.Perm es') (h : WellFormed es) :
    record es = record es' := by
  simp only [record, lookup_perm hp h.nodup, hp.countP_eq]

theorem decode_perm {ps qs : List Pair} (hp : ps.Perm qs) :
    decode (payload ps) = decode (payload qs) := by
  have hentries : (entries ps).Perm (entries qs) := hp.map Pair.entry
  by_cases h : WellFormed (entries ps)
  · rw [decode_payload h, decode_payload (h.perm hentries), record_perm hentries h]
  · have h' : ¬ WellFormed (entries qs) := fun h' => h (h'.perm hentries.symm)
    rw [decode_payload_error h, decode_payload_error h']

theorem wellFormed_entries (ps : List Pair) :
    WellFormed (entries ps) ↔ (ps.map Pair.id).Nodup ∧
      (∀ p ∈ ps, settingIsH2Reserved p.id = false) ∧
      ∀ p ∈ ps, isBoolean p.id = true → p.value ≤ 1 := by
  rw [← fst_entries]
  constructor
  · intro h
    have hmem : ∀ p ∈ ps, p.entry ∈ entries ps := fun p hp => List.mem_map_of_mem hp
    exact ⟨h.nodup, fun p hp => (h.admissible _ (hmem p hp)).1,
      fun p hp => (h.admissible _ (hmem p hp)).2⟩
  · intro ⟨hnodup, hres, hbool⟩
    refine ⟨hnodup, fun e he => ?_⟩
    obtain ⟨p, hp, rfl⟩ := List.mem_map.mp he
    exact ⟨hres p hp, hbool p hp⟩

/-- A payload that is rejected stays so, whatever is added behind it. -/
theorem decodeLoop_rejected {a : Bytes} {fuel off : Nat} {s : H3Settings} (more : Nat)
    (hoff : off ≤ a.length) (h : decodeLoop a fuel off s = .error .setting) (b : Bytes) :
    decodeLoop (a ++ b) (fuel + more) off s = .error .setting := by
  induction fuel generalizing off s with
  | zero =>
    unfold decodeLoop at h
    split at h <;> cases h
  | succ fuel ih =>
    rw [Nat.add_right_comm]
    unfold decodeLoop at h ⊢
    split at h
    · next hlt =>
      rw [if_pos (by rw [List.length_append]; omega)]
      dsimp only at h ⊢
      rw [List.drop_append_of_le_length hoff]
      split at h
      · cases h
      · next id c hid =>
        have hc := (Varint.decode_le hid).2
        rw [List.length_drop] at hc
        rw [Varint.decode_append hid]
        dsimp only
        rw [List.drop_append_of_le_length (by omega), List.take_append_of_le_length hoff]
        split at h
        · cases h
        · next value c' hvalue =>
          have hc' := (Varint.decode_le hvalue).2
          rw [List.length_drop] at hc'
          rw [Varint.decode_append hvalue]
          dsimp only
          split at h
          · next hres => rw [if_pos hres]
          · next hres =>
            rw [if_neg hres]
            split at h
            · next hseen => rw [if_pos hseen]
            · next hseen =>
              rw [if_neg hseen]
              cases hstore : store s id value with
              | error e => rwa [hstore] at h
              | ok s' =>
                rw [hstore] at h
                exact ih (by omega) h
    · cases h

theorem decode_take_ne {bs : Bytes} {s : H3Settings} (h : decode bs = .ok s) (n : Nat) :
    decode (bs.take n) ≠ .error .setting := by
  intro hrej
  have hlen : bs.length = (bs.take n).length + (bs.drop n).length := by
    rw [← List.length_append, List.take_append_drop]
  have hall := decodeLoop_rejected (bs.drop n).length (Nat.zero_le _) hrej (bs.drop n)
  rw [List.take_append_drop, ← hlen] at hall
  rw [decode, hall] at h
  cases h

theorem decode_rejected (ps : List Pair) :
    decode (payload ps) = .error .setting ↔
      ¬ (ps.map Pair.id).Nodup ∨ (∃ p ∈ ps, settingIsH2Reserved p.id = true) ∨
        ∃ p ∈ ps, isBoolean p.id = true ∧ 1 < p.value := by
  have hwf : ¬ WellFormed (entries ps) ↔
      ¬ (ps.map Pair.id).Nodup ∨ (∃ p ∈ ps, settingIsH2Reserved p.id = true) ∨
        ∃ p ∈ ps, isBoolean p.id = true ∧ 1 < p.value := by
    rw [wellFormed_entries]
    simp only [not_and_or, not_forall, Bool.not_eq_false, Nat.not_le, exists_prop]
  rw [← hwf]
  constructor
  · intro hrej h
    rw [decode_payload h] at hrej
    cases hrej
  · exact decode_payload_error

theorem decode_payload_complete (ps : List Pair) : decode (payload ps) ≠ .error .needMore := by
  intro hmore
  by_cases h : WellFormed (entries ps)
  · rw [decode_payload h] at hmore
    cases hmore
  · rw [decode_payload_error h] at hmore
    cases hmore

/-! ## What the other side encodes -/

theorem encodePairs_payload {es : List (Nat × Nat)} {cap : Nat}
    (hmax : ∀ e ∈ es, e.1 ≤ Varint.max ∧ e.2 ≤ Varint.max)
    (hcap : (es.map fun e => Varint.len e.1 + Varint.len e.2).sum ≤ cap) :
    ∃ ps : List Pair, entries ps = es ∧ encodePairs cap es = .ok (payload ps) := by
  induction es generalizing cap with
  | nil => exact ⟨[], rfl, rfl⟩
  | cons e es ih =>
    rw [List.map_cons, List.sum_cons] at hcap
    obtain ⟨hid, hvalue⟩ := hmax e (List.mem_cons_self ..)
    obtain ⟨idBytes, hi⟩ := Varint.encode_of_le cap hid (by omega)
    have hilen := Varint.encode_length hi
    obtain ⟨valueBytes, hv⟩ := Varint.encode_of_le (cap - idBytes.length) hvalue (by omega)
    have hvlen := Varint.encode_length hv
    have hcap' : (es.map fun e => Varint.len e.1 + Varint.len e.2).sum ≤
        cap - idBytes.length - valueBytes.length := by omega
    obtain ⟨ps, hps, htail⟩ := ih (fun e' he' => hmax e' (List.mem_cons_of_mem _ he')) hcap'
    refine ⟨⟨e.1, e.2, idBytes, valueBytes, Varint.decode_encode hi, Varint.decode_encode hv⟩ :: ps,
      ?_, ?_⟩
    · simp [entries, Pair.entry, ← hps]
    · rw [encodePairs, hi]
      simp only [bind, Except.bind, hv, htail, pure, Except.pure, payload_cons, Pair.bytes]

theorem wellFormed_buildOutSettings (cfg : EncodeCfg) : WellFormed (buildOutSettings cfg) := by
  obtain ⟨ecp, current, d13, d02⟩ := cfg
  constructor
  · cases ecp <;> cases current <;> cases d13 <;> cases d02 <;> decide
  · unfold Admissible
    cases ecp <;> cases current <;> cases d13 <;> cases d02 <;> decide

theorem buildOutSettings_le_max (cfg : EncodeCfg) :
    ∀ e ∈ buildOutSettings cfg, e.1 ≤ Varint.max ∧ e.2 ≤ Varint.max := by
  obtain ⟨ecp, current, d13, d02⟩ := cfg
  cases ecp <;> cases current <;> cases d13 <;> cases d02 <;> decide

theorem decode_encodePayload {cfg : EncodeCfg} {cap : Nat} (hcap : payloadLen cfg ≤ cap) :
    ∃ bs, encodePayload cfg cap = .ok bs ∧ decode bs = .ok (record (buildOutSettings cfg)) := by
  obtain ⟨ps, hps, henc⟩ := encodePairs_payload (buildOutSettings_le_max cfg) hcap
  refine ⟨payload ps, ?_, ?_⟩
  · rw [encodePayload, if_neg (Nat.not_lt.mpr hcap), henc]
  · rw [decode_payload (hps ▸ wellFormed_buildOutSettings cfg), hps]

/-- The profiles a configuration advertises. -/
def offered (set : ProfileSet) : ProfileSet := if set.isEmpty then ProfileSet.bit .current else set

theorem selectable_record (cfg : EncodeCfg) (peerIsServer : Bool) (set : ProfileSet) (p : Profile)
    (hserver : peerIsServer = true → cfg.enableConnectProtocol = true) :
    selectable (record (buildOutSettings cfg)) peerIsServer set p =
      (set.mem p && (offered cfg.wtProfiles).mem p) := by
  have hdatagram : (record (buildOutSettings cfg)).h3Datagram = some 1 := by
    obtain ⟨ecp, current, d13, d02⟩ := cfg
    cases ecp <;> cases current <;> cases d13 <;> cases d02 <;> rfl
  have hconnect : (record (buildOutSettings cfg)).enableConnectProtocol =
      if cfg.enableConnectProtocol then some 1 else none := by
    obtain ⟨ecp, current, d13, d02⟩ := cfg
    cases ecp <;> cases current <;> cases d13 <;> cases d02 <;> rfl
  have hadvertises : peerAdvertises (record (buildOutSettings cfg)) p =
      (offered cfg.wtProfiles).mem p := by
    obtain ⟨ecp, current, d13, d02⟩ := cfg
    cases p <;> cases ecp <;> cases current <;> cases d13 <;> cases d02 <;> rfl
  rw [selectable, hdatagram, hconnect, hadvertises]
  cases peerIsServer with
  | false => simp
  | true => simp [hserver rfl]

/-- The newest profile in both sets. -/
def newestCommon (a b : ProfileSet) : Option Profile :=
  wtPrecedence.find? fun p => a.mem p && b.mem p

theorem selectProfile_record (cfg : EncodeCfg) (peerIsServer : Bool) (set : ProfileSet)
    (hserver : peerIsServer = true → cfg.enableConnectProtocol = true) :
    selectProfile (record (buildOutSettings cfg)) peerIsServer set =
      newestCommon set (offered cfg.wtProfiles) := by
  rw [selectProfile, newestCommon]
  congr 1
  funext p
  exact selectable_record cfg peerIsServer set p hserver

theorem newestCommon_comm (a b : ProfileSet) : newestCommon a b = newestCommon b a := by
  simp only [newestCommon, Bool.and_comm]

theorem newestCommon_isSome (a b : ProfileSet) :
    (newestCommon a b).isSome ↔ ∃ p, a.mem p = true ∧ b.mem p = true := by
  simp only [newestCommon, List.find?_isSome, Bool.and_eq_true]
  constructor
  · intro ⟨p, _, hp⟩
    exact ⟨p, hp⟩
  · intro ⟨p, hp⟩
    exact ⟨p, by cases p <;> decide, hp⟩

theorem newestCommon_empty {a b : ProfileSet} (ha : a.isEmpty = true) :
    newestCommon a b = none := by
  have hmem : ∀ p, a.mem p = false := by
    simp only [ProfileSet.isEmpty, Bool.and_eq_true, Bool.not_eq_true'] at ha
    intro p
    cases p <;> simp [ProfileSet.mem, ha]
  simp [newestCommon, hmem]

theorem offered_of_nonempty {a : ProfileSet} (ha : a.isEmpty = false) : offered a = a := by
  simp [offered, ha]

/-- Both sides select a profile only where it is the newest one they have in common. -/
theorem newestCommon_offered (a b : ProfileSet) (p : Profile) :
    newestCommon a (offered b) = some p ∧ newestCommon b (offered a) = some p ↔
      newestCommon a b = some p := by
  cases ha : a.isEmpty with
  | true => simp [newestCommon_empty ha]
  | false =>
    cases hb : b.isEmpty with
    | true => simp [newestCommon_comm a b, newestCommon_empty hb]
    | false =>
      rw [offered_of_nonempty ha, offered_of_nonempty hb, newestCommon_comm b a, and_self]

/-- What a payload says depends on its pairs and not on their order, and it is rejected for a
repeated identifier, a reserved one or a boolean above 1 only. Two sides that decode what the
other encoded select the newest common profile, and none when there is no such profile. An empty
set advertises the current profile and selects nothing. -/
theorem settings_exchange :
    (∀ ps : List Pair,
      (∀ qs, ps.Perm qs → decode (payload ps) = decode (payload qs)) ∧
      (decode (payload ps) = .error .setting ↔
        ¬ (ps.map Pair.id).Nodup ∨ (∃ p ∈ ps, settingIsH2Reserved p.id = true) ∨
          ∃ p ∈ ps, isBoolean p.id = true ∧ 1 < p.value) ∧
      decode (payload ps) ≠ .error .needMore) ∧
    (∀ bs s, decode bs = .ok s → ∀ n,
      (∃ s', decode (bs.take n) = .ok s') ∨ decode (bs.take n) = .error .needMore) ∧
    (∀ out bs e, decode bs = .error e → decodeInto out bs = out) ∧
    ∀ (client server : ProfileSet) (ecp : Bool) (capC capS : Nat),
      payloadLen { enableConnectProtocol := ecp, wtProfiles := client } ≤ capC →
      payloadLen { enableConnectProtocol := true, wtProfiles := server } ≤ capS →
      ∃ bsC bsS fromClient fromServer,
        encodePayload { enableConnectProtocol := ecp, wtProfiles := client } capC = .ok bsC ∧
        encodePayload { enableConnectProtocol := true, wtProfiles := server } capS = .ok bsS ∧
        decode bsC = .ok fromClient ∧ decode bsS = .ok fromServer ∧
        (∀ p, selectProfile fromServer true client = some p ∧
            selectProfile fromClient false server = some p ↔
          newestCommon client server = some p) ∧
        ((newestCommon client server).isSome ↔ ∃ p, client.mem p = true ∧ server.mem p = true) ∧
        (client.isEmpty = false → server.isEmpty = false →
          selectProfile fromServer true client = newestCommon client server ∧
          selectProfile fromClient false server = newestCommon client server) := by
  refine ⟨fun ps => ⟨fun qs hp => decode_perm hp, decode_rejected ps, decode_payload_complete ps⟩,
    ?_, ?_, ?_⟩
  · intro bs s h n
    have hne := decode_take_ne h n
    cases hd : decode (bs.take n) with
    | ok s' => exact .inl ⟨s', rfl⟩
    | error e =>
      cases e with
      | needMore => exact .inr rfl
      | setting => exact absurd hd hne
  · intro out bs e h
    rw [decodeInto, h]
  · intro client server ecp capC capS hC hS
    obtain ⟨bsC, hencC, hdecC⟩ := decode_encodePayload hC
    obtain ⟨bsS, hencS, hdecS⟩ := decode_encodePayload hS
    have hselS := selectProfile_record ⟨true, server⟩ true client fun _ => rfl
    have hselC := selectProfile_record ⟨ecp, client⟩ false server nofun
    refine ⟨bsC, bsS, _, _, hencC, hencS, hdecC, hdecS, fun p => ?_, newestCommon_isSome _ _, ?_⟩
    · rw [hselS, hselC]
      exact newestCommon_offered client server p
    · intro hc hs
      rw [hselS, hselC, offered_of_nonempty hc, offered_of_nonempty hs, newestCommon_comm server]
      exact ⟨rfl, rfl⟩

end Wtquic.Settings
