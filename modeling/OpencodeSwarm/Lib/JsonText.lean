/-
  OpencodeSwarm.Lib.JsonText

  The texts `JSON.parse` accepts, by recursive descent.  Every reader returns what
  follows its part.  Two levels of the descent read at least one code unit, so twice
  the length of the text bounds its depth.
-/
import OpencodeSwarm.Lib.JsString

namespace Js

/-! ## Tokens -/

def isJsonSpace (c : CodeUnit) : Bool := c == 0x20 || c == 0x9 || c == 0xA || c == 0xD

def skipJsonSpace (s : JsString) : JsString := s.dropWhile isJsonSpace

def isJsonDigit (c : CodeUnit) : Bool := 0x30 ≤ c && c ≤ 0x39

def isHexDigit (c : CodeUnit) : Bool :=
  isJsonDigit c || (0x41 ≤ c && c ≤ 0x46) || (0x61 ≤ c && c ≤ 0x66)

/-- The body of a string, up to its closing quote. -/
def readJsonString : JsString → Option JsString
  | [] => none
  | 0x22 :: rest => some rest
  | 0x5C :: 0x75 :: a :: b :: c :: d :: rest =>
    if isHexDigit a && isHexDigit b && isHexDigit c && isHexDigit d then readJsonString rest
    else none
  | 0x5C :: escaped :: rest =>
    if escaped ∈ [0x22, 0x5C, 0x2F, 0x62, 0x66, 0x6E, 0x72, 0x74] then readJsonString rest
    else none
  | c :: rest => if c < 0x20 || c == 0x5C then none else readJsonString rest

/-- At least one digit. -/
def readJsonDigits : JsString → Option JsString
  | [] => none
  | c :: rest => if isJsonDigit c then some (rest.dropWhile isJsonDigit) else none

/-- The exponent of a number, if it has one. -/
def readJsonExponent : JsString → Option JsString
  | c :: rest =>
    if c == 0x65 || c == 0x45 then
      match rest with
      | sign :: digits => if sign == 0x2B || sign == 0x2D then readJsonDigits digits
          else readJsonDigits rest
      | [] => none
    else some (c :: rest)
  | [] => some []

/-- The fraction of a number, if it has one, and its exponent. -/
def readJsonFraction : JsString → Option JsString
  | 0x2E :: rest => (readJsonDigits rest).bind readJsonExponent
  | s => readJsonExponent s

/-- A number behind its sign: no digit follows a leading zero. -/
def readJsonUnsigned : JsString → Option JsString
  | 0x30 :: rest => readJsonFraction rest
  | s => (readJsonDigits s).bind readJsonFraction

def readJsonNumber : JsString → Option JsString
  | 0x2D :: rest => readJsonUnsigned rest
  | s => readJsonUnsigned s

/-- A literal name. -/
def readJsonName (name s : JsString) : Option JsString :=
  if name.isPrefixOf s then some (s.drop name.length) else none

/-! ## Values -/

mutual

/-- A value; what follows it. -/
def readJsonValue : Nat → JsString → Option JsString
  | 0, _ => none
  | depth + 1, s =>
    match skipJsonSpace s with
    | [] => none
    | c :: rest =>
      if c == 0x22 then readJsonString rest
      else if c == 0x7B then
        match skipJsonSpace rest with
        | 0x7D :: after => some after
        | members => readJsonMembers depth members
      else if c == 0x5B then
        match skipJsonSpace rest with
        | 0x5D :: after => some after
        | elements => readJsonElements depth elements
      else if c == 0x74 then readJsonName (js "true") (c :: rest)
      else if c == 0x66 then readJsonName (js "false") (c :: rest)
      else if c == 0x6E then readJsonName (js "null") (c :: rest)
      else readJsonNumber (c :: rest)

/-- The members of an object, up to its closing brace. -/
def readJsonMembers : Nat → JsString → Option JsString
  | 0, _ => none
  | depth + 1, s =>
    match skipJsonSpace s with
    | 0x22 :: rest =>
      match (readJsonString rest).map skipJsonSpace with
      | some (0x3A :: value) =>
        match (readJsonValue depth value).map skipJsonSpace with
        | some (0x2C :: members) => readJsonMembers depth members
        | some (0x7D :: after) => some after
        | _ => none
      | _ => none
    | _ => none

/-- The elements of an array, up to its closing bracket. -/
def readJsonElements : Nat → JsString → Option JsString
  | 0, _ => none
  | depth + 1, s =>
    match (readJsonValue depth s).map skipJsonSpace with
    | some (0x2C :: elements) => readJsonElements depth elements
    | some (0x5D :: after) => some after
    | _ => none

end

/-- `JSON.parse(s)` does not throw. -/
def parsesJson (s : JsString) : Bool :=
  (readJsonValue (2 * s.length + 1) s).any fun after => (skipJsonSpace after).isEmpty

example : parsesJson (js " [1.5e3, true, \x7b\x22a\x22: [null, \x22\x5cn\x22]\x7d] ") = true := by
  decide +kernel

example : parsesJson (js "[01]") = false := by decide +kernel

end Js
