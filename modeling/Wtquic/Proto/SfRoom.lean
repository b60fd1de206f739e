-- SUMMARY: Structured Field parsers with more room, and in lenient mode.
import Wtquic.Proto.SfString

namespace Wtquic.Sf

/-! # Room and leniency

A parse that was not cut short by the size of its output gives the same in a larger one, and what
is accepted strictly is accepted leniently with the same outcome. -/

/-! ## More room -/

theorem putByte_room {c : UInt8} {cap cap' : Nat} {r r' : Except Error (Bytes × Bytes)}
    (h : putByte c cap r ≠ .error .buffer) (hcap : cap ≤ cap')
    (hr : r ≠ .error .buffer → r' = r) : putByte c cap' r' = putByte c cap r := by
  unfold putByte at h ⊢
  split at h
  · exact absurd rfl h
  · next hpos =>
    rw [if_neg (by omega), if_neg hpos, hr]
    rintro rfl
    exact h rfl

theorem parseStringBody_room (inp : Bytes) {cap cap' : Nat}
    (h : parseStringBody inp cap ≠ .error .buffer) (hcap : cap ≤ cap') :
    parseStringBody inp cap' = parseStringBody inp cap := by
  match inp with
  | [] => rfl
  | c :: rest =>
    unfold parseStringBody at h ⊢
    by_cases hq : c = 34
    · rw [if_pos hq, if_pos hq]
    rw [if_neg hq] at h
    rw [if_neg hq, if_neg hq]
    by_cases hb : c = 92
    · rw [if_pos hb] at h
      rw [if_pos hb, if_pos hb]
      match rest with
      | [] => rfl
      | e :: rest =>
        dsimp only at h ⊢
        by_cases he : e ≠ 34 ∧ e ≠ 92
        · rw [if_pos he, if_pos he]
        · rw [if_neg he] at h
          rw [if_neg he, if_neg he]
          exact putByte_room h hcap fun hr => parseStringBody_room rest hr (by omega)
    · rw [if_neg hb] at h
      rw [if_neg hb, if_neg hb]
      by_cases hbyte : isStringByte c = true
      · rw [if_pos hbyte] at h
        rw [if_pos hbyte, if_pos hbyte]
        exact putByte_room h hcap fun hr => parseStringBody_room rest hr (by omega)
      · rw [if_neg hbyte, if_neg hbyte]

theorem parseString_room {inp : Bytes} {cap cap' : Nat}
    (h : parseString inp cap ≠ .error .buffer) (hcap : cap ≤ cap') :
    parseString inp cap' = parseString inp cap := by
  cases inp with
  | nil => rfl
  | cons c rest =>
    rw [parseString] at h ⊢
    rw [parseString]
    split at h
    · next hc =>
      rw [if_pos hc, if_pos hc]
      exact parseStringBody_room rest h hcap
    · next hc => rw [if_neg hc, if_neg hc]

theorem parseTokenLenient_room {inp : Bytes} {cap cap' : Nat}
    (h : parseTokenLenient inp cap ≠ .error .buffer) (hcap : cap ≤ cap') :
    parseTokenLenient inp cap' = parseTokenLenient inp cap := by
  cases inp with
  | nil => rfl
  | cons c rest =>
    unfold parseTokenLenient at h ⊢
    dsimp only at h ⊢
    split at h
    · next hc =>
      rw [if_pos hc, if_pos hc]
      split at h
      · exact absurd rfl h
      · next hlen => rw [if_neg (by omega), if_neg hlen]
    · next hc => rw [if_neg hc, if_neg hc]

/-- The body of a member, before its parameters. -/
def memberBody (inp : Bytes) (lenientTokens : Bool) (cap : Nat) : Except Error (Bytes × Bytes) :=
  match inp with
  | 34 :: _ => parseString inp cap
  | 40 :: _ => .error .malformed
  | _ => if lenientTokens then parseTokenLenient inp cap else .error .malformed

theorem parseMember_eq (inp : Bytes) (lenientTokens : Bool) (cap : Nat) :
    parseMember inp lenientTokens cap =
      match memberBody inp lenientTokens cap with
      | .error e => .error e
      | .ok (s, rest) =>
        match skipParams rest.length rest with
        | .error e => .error e
        | .ok rest => .ok (s, rest) := rfl

theorem memberBody_room {inp : Bytes} {lenientTokens : Bool} {cap cap' : Nat}
    (h : memberBody inp lenientTokens cap ≠ .error .buffer) (hcap : cap ≤ cap') :
    memberBody inp lenientTokens cap' = memberBody inp lenientTokens cap := by
  unfold memberBody at h ⊢
  split at h
  · exact parseString_room h hcap
  · rfl
  · split at h
    · next hl =>
      rw [if_pos hl, if_pos hl]
      exact parseTokenLenient_room h hcap
    · next hl => rw [if_neg hl, if_neg hl]

theorem parseMember_room {inp : Bytes} {lenientTokens : Bool} {cap cap' : Nat}
    (h : parseMember inp lenientTokens cap ≠ .error .buffer) (hcap : cap ≤ cap') :
    parseMember inp lenientTokens cap' = parseMember inp lenientTokens cap := by
  rw [parseMember_eq] at h
  rw [parseMember_eq, parseMember_eq, memberBody_room _ hcap]
  intro hbody
  rw [hbody] at h
  exact h rfl

theorem stringParseItem_room {inp : Bytes} {lenientTokens : Bool} {cap cap' : Nat}
    (h : stringParseItem inp lenientTokens cap ≠ .error .buffer) (hcap : cap ≤ cap') :
    stringParseItem inp lenientTokens cap' = stringParseItem inp lenientTokens cap := by
  unfold stringParseItem at h ⊢
  rw [parseMember_room _ hcap]
  intro hmember
  rw [hmember] at h
  exact h rfl

theorem parseListLoop_room {lenientTokens : Bool} {maxMembers fuel : Nat} {inp : Bytes}
    {cap cap' count : Nat}
    (h : parseListLoop lenientTokens maxMembers fuel inp cap count ≠ .error .buffer)
    (hcap : cap ≤ cap') :
    parseListLoop lenientTokens maxMembers fuel inp cap' count =
      parseListLoop lenientTokens maxMembers fuel inp cap count := by
  induction fuel generalizing inp cap cap' count with
  | zero => rfl
  | succ fuel ih =>
    unfold parseListLoop at h ⊢
    have hmember : parseMember inp lenientTokens cap ≠ .error .buffer := by
      intro hmember
      rw [hmember] at h
      exact h rfl
    rw [parseMember_room hmember hcap]
    cases hm : parseMember inp lenientTokens cap with
    | error e => rfl
    | ok r =>
      obtain ⟨s, rest⟩ := r
      rw [hm] at h
      dsimp only at h ⊢
      split at h
      · exact absurd rfl h
      · next hcount =>
        rw [if_neg hcount, if_neg hcount]
        split at h
        · rfl
        · split at h
          · rfl
          · next rest' _ _ _ =>
            have hloop : parseListLoop lenientTokens maxMembers fuel (skipOws rest')
                (cap - s.length) (count + 1) ≠ .error .buffer := by
              intro hloop
              rw [hloop] at h
              exact h rfl
            rw [ih hloop (by omega)]
        · rfl

/-- Two parses that both fit their outputs agree. -/
theorem stringParseList_room {inp : Bytes} {lenientTokens : Bool} {cap cap' maxMembers : Nat}
    (h : stringParseList inp lenientTokens cap maxMembers ≠ .error .buffer) (hcap : cap ≤ cap') :
    stringParseList inp lenientTokens cap' maxMembers =
      stringParseList inp lenientTokens cap maxMembers := by
  unfold stringParseList at h ⊢
  split at h
  · rfl
  · exact parseListLoop_room h hcap

/-! ## Leniency -/

theorem memberBody_lenient {inp : Bytes} {cap : Nat} {r : Bytes × Bytes}
    (h : memberBody inp false cap = .ok r) : memberBody inp true cap = .ok r := by
  unfold memberBody at h ⊢
  split at h
  · exact h
  · cases h
  · cases h

theorem parseMember_lenient {inp : Bytes} {cap : Nat} {r : Bytes × Bytes}
    (h : parseMember inp false cap = .ok r) : parseMember inp true cap = .ok r := by
  rw [parseMember_eq] at h ⊢
  cases hb : memberBody inp false cap with
  | error e =>
    rw [hb] at h
    cases h
  | ok b =>
    rw [hb] at h
    rw [memberBody_lenient hb]
    exact h

theorem stringParseItem_lenient {inp s : Bytes} {cap : Nat}
    (h : stringParseItem inp false cap = .ok s) : stringParseItem inp true cap = .ok s := by
  unfold stringParseItem at h ⊢
  cases hm : parseMember (skipSp inp) false cap with
  | error e =>
    rw [hm] at h
    cases h
  | ok r =>
    rw [hm] at h
    rw [parseMember_lenient hm]
    exact h

theorem parseListLoop_lenient {maxMembers fuel : Nat} {inp : Bytes} {cap count : Nat}
    {ss : List Bytes} (h : parseListLoop false maxMembers fuel inp cap count = .ok ss) :
    parseListLoop true maxMembers fuel inp cap count = .ok ss := by
  induction fuel generalizing inp cap count ss with
  | zero => cases h
  | succ fuel ih =>
    unfold parseListLoop at h ⊢
    cases hm : parseMember inp false cap with
    | error e =>
      rw [hm] at h
      cases h
    | ok r =>
      obtain ⟨s, rest⟩ := r
      rw [hm] at h
      rw [parseMember_lenient hm]
      dsimp only at h ⊢
      split at h
      · cases h
      · next hcount =>
        rw [if_neg hcount]
        split at h
        · exact h
        · split at h
          · cases h
          · next rest' _ _ _ =>
            cases hl : parseListLoop false maxMembers fuel (skipOws rest') (cap - s.length)
                (count + 1) with
            | error e =>
              rw [hl] at h
              cases h
            | ok ss' =>
              rw [hl] at h
              rw [ih hl]
              exact h
        · cases h

theorem stringParseList_lenient {inp : Bytes} {cap maxMembers : Nat} {ss : List Bytes}
    (h : stringParseList inp false cap maxMembers = .ok ss) :
    stringParseList inp true cap maxMembers = .ok ss := by
  unfold stringParseList at h ⊢
  split at h
  · exact h
  · exact parseListLoop_lenient h

end Wtquic.Sf
