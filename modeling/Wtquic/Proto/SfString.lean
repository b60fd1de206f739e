-- SUMMARY: Structured Field strings: items, lists, ignored parameters, and their encoders.
import Wtquic.Proto.Varint

namespace Wtquic.Sf

/-! # Structured Field strings

The model of `sf_string.c`. A parser position is the list of the bytes that are
left; the output buffer is a budget of bytes it may still write. -/

/-- The error half of `wtq_sf_status_t`. -/
inductive Error where
  | malformed
  | buffer
  deriving DecidableEq, Repr

def isAlpha (c : UInt8) : Bool := (97 ≤ c && c ≤ 122) || (65 ≤ c && c ≤ 90)
def isDigit (c : UInt8) : Bool := 48 ≤ c && c ≤ 57
def isLcalpha (c : UInt8) : Bool := 97 ≤ c && c ≤ 122
def isTchar (c : UInt8) : Bool :=
  isAlpha c || isDigit c || (ascii "!#$%&'*+-.^_`|~").contains c

/-- sf-token tail: tchar, `:` or `/`. -/
def isTokenChar (c : UInt8) : Bool := isTchar c || c == 58 || c == 47

def isBase64Char (c : UInt8) : Bool :=
  isAlpha c || isDigit c || c == 43 || c == 47 || c == 61

/-- `skip_sp`. -/
def skipSp (inp : Bytes) : Bytes := inp.dropWhile (· == 32)

/-- `skip_ows`: SP or HTAB. -/
def skipOws (inp : Bytes) : Bytes := inp.dropWhile fun c => c == 32 || c == 9

/-- A byte a String may carry, escaped or not. -/
def isStringByte (c : UInt8) : Bool := 0x20 ≤ c && c ≤ 0x7e

/-- `wtq_sf_string_valid`. -/
def stringValid (s : Bytes) : Bool := s.all isStringByte

/-! ## Parsing -/

/-- Write one byte in front of the rest of a String, if the output has room. -/
def putByte (c : UInt8) (cap : Nat) (rest : Except Error (Bytes × Bytes)) :
    Except Error (Bytes × Bytes) :=
  if cap = 0 then .error .buffer
  else
    match rest with
    | .error e => .error e
    | .ok (s, tail) => .ok (c :: s, tail)

/-- The body of `parse_string`, after the opening quote: the unescaped bytes, and
the input after the closing quote. `cap` is the room left in the output. -/
def parseStringBody : Bytes → Nat → Except Error (Bytes × Bytes)
  | [], _ => .error .malformed
  | c :: rest, cap =>
    if c = 34 then .ok ([], rest)
    else if c = 92 then
      match rest with
      | [] => .error .malformed
      | e :: rest =>
        if e ≠ 34 ∧ e ≠ 92 then .error .malformed
        else putByte e cap (parseStringBody rest (cap - 1))
    else if isStringByte c then putByte c cap (parseStringBody rest (cap - 1))
    else .error .malformed

/-- `parse_string`. -/
def parseString (inp : Bytes) (cap : Nat) : Except Error (Bytes × Bytes) :=
  match inp with
  | [] => .error .malformed
  | c :: rest => if c = 34 then parseStringBody rest cap else .error .malformed

/-- `parse_token_lenient`: a bare token taken as if it were a String. -/
def parseTokenLenient (inp : Bytes) (cap : Nat) : Except Error (Bytes × Bytes) :=
  match inp with
  | [] => .error .malformed
  | c :: _ =>
    if isAlpha c || c == 42 then
      let tok := inp.takeWhile isTokenChar
      if tok.length > cap then .error .buffer else .ok (tok, inp.drop tok.length)
    else .error .malformed

/-- The String case of `skip_bare_item`, after the opening quote. -/
def skipStringBody : Bytes → Except Error Bytes
  | [] => .error .malformed
  | c :: rest =>
    if c = 92 then
      match rest with
      | [] => .error .malformed
      | e :: rest => if e ≠ 34 ∧ e ≠ 92 then .error .malformed else skipStringBody rest
    else if c = 34 then .ok rest
    else if isStringByte c then skipStringBody rest
    else .error .malformed

/-- The number case of `skip_bare_item`, after an optional sign. -/
def skipNumber (inp : Bytes) : Except Error Bytes :=
  let digits := inp.takeWhile isDigit
  let rest := inp.drop digits.length
  if digits.length = 0 then .error .malformed
  else
    match rest with
    | 46 :: frac =>
      if digits.length > 12 then .error .malformed
      else
        let fracDigits := frac.takeWhile isDigit
        if fracDigits.length = 0 ∨ fracDigits.length > 3 then .error .malformed
        else .ok (frac.drop fracDigits.length)
    | _ => if digits.length > 15 then .error .malformed else .ok rest

/-- `skip_bare_item`. -/
def skipBareItem (inp : Bytes) : Except Error Bytes :=
  match inp with
  | [] => .error .malformed
  | c :: rest =>
    if c = 34 then skipStringBody rest
    else if c = 58 then
      match rest.dropWhile isBase64Char with
      | 58 :: tail => .ok tail
      | _ => .error .malformed
    else if c = 63 then
      match rest with
      | b :: tail => if b = 48 ∨ b = 49 then .ok tail else .error .malformed
      | [] => .error .malformed
    else if c = 45 then skipNumber rest
    else if isDigit c then skipNumber inp
    else if isAlpha c || c == 42 then .ok (rest.dropWhile isTokenChar)
    else .error .malformed

/-- A byte of a parameter key after its first. -/
def isKeyChar (c : UInt8) : Bool :=
  isLcalpha c || isDigit c || c == 95 || c == 45 || c == 46 || c == 42

/-- `skip_params`. Every parameter consumes its `;`, so `fuel = len` suffices. -/
def skipParams : Nat → Bytes → Except Error Bytes
  | 0, inp => .ok inp
  | fuel + 1, inp =>
    match inp with
    | 59 :: rest =>
      match rest.dropWhile (· == 32) with
      | [] => .error .malformed
      | k :: tail =>
        if isLcalpha k || k == 42 then
          match tail.dropWhile isKeyChar with
          | 61 :: value =>
            match skipBareItem value with
            | .error e => .error e
            | .ok rest => skipParams fuel rest
          | rest => skipParams fuel rest
        else .error .malformed
    | _ => .ok inp

/-- `parse_member`: a String (or, leniently, a token) with ignored parameters. -/
def parseMember (inp : Bytes) (lenientTokens : Bool) (cap : Nat) :
    Except Error (Bytes × Bytes) :=
  let body :=
    match inp with
    | 34 :: _ => parseString inp cap
    | 40 :: _ => .error .malformed
    | _ => if lenientTokens then parseTokenLenient inp cap else .error .malformed
  match body with
  | .error e => .error e
  | .ok (s, rest) =>
    match skipParams rest.length rest with
    | .error e => .error e
    | .ok rest => .ok (s, rest)

/-- `wtq_sf_string_parse_item`. -/
def stringParseItem (inp : Bytes) (lenientTokens : Bool) (cap : Nat) : Except Error Bytes :=
  match parseMember (skipSp inp) lenientTokens cap with
  | .error e => .error e
  | .ok (s, rest) => if skipSp rest ≠ [] then .error .malformed else .ok s

/-- The member loop of `wtq_sf_string_parse_list`. Every member consumes a byte,
so `fuel = len + 1` suffices. -/
def parseListLoop (lenientTokens : Bool) (maxMembers : Nat) :
    Nat → Bytes → Nat → Nat → Except Error (List Bytes)
  | 0, _, _, _ => .error .malformed
  | fuel + 1, inp, cap, count =>
    match parseMember inp lenientTokens cap with
    | .error e => .error e
    | .ok (s, rest) =>
      if count ≥ maxMembers then .error .buffer
      else
        match skipOws rest with
        | [] => .ok [s]
        | 44 :: rest =>
          match skipOws rest with
          | [] => .error .malformed
          | rest =>
            match parseListLoop lenientTokens maxMembers fuel rest (cap - s.length) (count + 1) with
            | .error e => .error e
            | .ok ss => .ok (s :: ss)
        | _ => .error .malformed

/-- `wtq_sf_string_parse_list`. -/
def stringParseList (inp : Bytes) (lenientTokens : Bool) (cap maxMembers : Nat) :
    Except Error (List Bytes) :=
  match skipSp inp with
  | [] => .ok []
  | inp => parseListLoop lenientTokens maxMembers (inp.length + 1) inp cap 0

/-! ## Encoding -/

/-- Escape one byte of a String. -/
def escape (c : UInt8) : Bytes := if c = 34 ∨ c = 92 then [92, c] else [c]

def encodedItemLen (s : Bytes) : Nat := 2 + (s.map fun c => (escape c).length).sum

/-- `wtq_sf_string_encode_item`. -/
def stringEncodeItem (s : Bytes) (cap : Nat) : Except Error Bytes :=
  if !stringValid s then .error .malformed
  else if cap < encodedItemLen s then .error .buffer
  else .ok (34 :: s.flatMap escape ++ [34])

/-- The separator length between members. -/
def encodedListLen : List Bytes → Nat
  | [] => 0
  | [s] => encodedItemLen s
  | s :: rest => encodedItemLen s + 2 + encodedListLen rest

/-- The member loop of the list encoder, once the room was checked. -/
def encodeMembers : List Bytes → Bytes
  | [] => []
  | [s] => 34 :: s.flatMap escape ++ [34]
  | s :: rest => (34 :: s.flatMap escape ++ [34]) ++ [44, 32] ++ encodeMembers rest

/-- `wtq_sf_string_encode_list`. -/
def stringEncodeList (members : List Bytes) (cap : Nat) : Except Error Bytes :=
  if members.isEmpty then .error .malformed
  else if !members.all stringValid then .error .malformed
  else if cap < encodedListLen members then .error .buffer
  else .ok (encodeMembers members)

/-- `wtq_sf_string_select`: index of the first offered value that is supported. -/
def stringSelect (offered supported : List Bytes) : Option Nat :=
  offered.findIdx? fun o => supported.contains o

end Wtquic.Sf
