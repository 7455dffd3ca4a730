import Edm.Literal
import Edm.Text.Size

/-!
This module contains the reading of literals.
-/

namespace Edm.Literal

def closing? (cs : List Char) : Option (List Char) :=
  match cs.reverse with
  | '\'' :: rest => some rest.reverse
  | _ => none

/-- Read the text after an opening quote, which has to end with a quote of its own. -/
def quotedBody (literal : String) (cs : List Char) : Except Fault (List Char) :=
  match closing? cs with
  | none => .error (.unterminated literal)
  | some body =>
    match undoubleQuotes? body with
    | none => .error (.invalid literal .strayQuote)
    | some text => .ok text

/-- One byte of two digits; a plus may stand in the place of a leading zero. -/
def hexPair? : Char → Char → Option UInt8
  | '+', d => (Text.hexValue? d).map .ofNat
  | c, d => do
    let high ← Text.hexValue? c
    let low ← Text.hexValue? d
    return .ofNat (high * 16 + low)

def hexPairs? : List Char → Option (List UInt8)
  | [] => some []
  | [_] => none
  | c :: d :: cs => do
    let byte ← hexPair? c d
    let bytes ← hexPairs? cs
    return byte :: bytes

def hexBody (literal : String) (cs : List Char) : Except Fault Value :=
  if Text.utf8Size cs % 2 ≠ 0 then .error (.invalid literal .oddHex)
  else
    match hexPairs? cs with
    | some bytes => .ok (.binary bytes)
    | none => .error (.invalid literal .badHex)

def invalidUnless (literal : String) (cause : ε → Cause) (make : α → Value) :
    Except ε α → Except Fault Value
  | .ok a => .ok (make a)
  | .error e => .error (.invalid literal (cause e))

/-- The words that may stand in front of a quoted text, and how the text after them is read. -/
def wordForms (literal : String) : List (String × (List Char → Except Fault Value)) := [
  ("datetimeoffset", fun cs =>
    invalidUnless literal .calendar .dateTimeOffset (Calendar.readOffsetDateTime cs)),
  ("datetime", fun cs =>
    invalidUnless literal .calendar .dateTime
      (match Calendar.readDateTime cs with
        | .ok t => .ok t
        | .error _ => Calendar.readDateTimeToMinute cs)),
  ("time", fun cs => invalidUnless literal .calendar .time (Calendar.readTime cs)),
  ("guid", fun cs => invalidUnless literal .guid .guid (Guid.read cs)),
  ("binary", fun cs => hexBody literal cs)]

def afterWord? (word : String) (cs : List Char) : Option (List Char) :=
  if word.toList.isPrefixOf cs then
    match cs.drop word.length with
    | '\'' :: rest => some rest
    | _ => none
  else none

/-- The integer that a text denotes, if it is a sign and digits and fits 64 bits. -/
def readInt64? (cs : List Char) : Option Int64 :=
  let (negative, ds) := Ieee.splitSign cs
  if !ds.isEmpty && ds.all Char.isDigit then
    let n : Int := Ieee.digitsValue ds
    Numeric.int64? (if negative then -n else n)
  else none

def isNumberChar (c : Char) : Bool :=
  c.isDigit || c = '-' || c = '+' || c = '.' || c = 'e' || c = 'E'

/-- Read a number without a suffix: an integer, a decimal, or a double if it has an exponent. -/
def plainNumber (literal : String) (body : List Char) : Except Fault Value :=
  if body.any fun c => c = 'e' || c = 'E' then
    match Ieee.read? body with
    | some x => .ok (.double x)
    | none => .error (.invalid literal .malformedNumber)
  else if body.contains '.' then
    match Decimal.read? body with
    | some d => .ok (.decimal d)
    | none => .error (.invalid literal .malformedNumber)
  else
    match readInt64? body with
    | some n => .ok (Numeric.integerValue true n)
    | none => .error (.outOfRange literal)

def suffixedNumber (literal : String) (body : List Char) (suffix : Char) : Except Fault Value :=
  let orMalformed : Option Value → Except Fault Value
    | some v => .ok v
    | none => .error (.invalid literal .malformedNumber)
  match suffix.toUpper with
  | 'L' =>
    match readInt64? body with
    | some n => .ok (.int64 n)
    | none => .error (.outOfRange literal)
  | 'M' => orMalformed (((Decimal.read? body).or (Decimal.readScientific? body)).map .decimal)
  | 'D' => orMalformed ((Ieee.read? body).map .double)
  | 'F' => orMalformed ((Ieee.read32? body).map .single)
  | _ => .error (.invalid literal .unknownSuffix)

/-- Read a number; its type shows in its last letter or else in its characters. -/
def number (literal : String) (cs : List Char) : Except Fault Value :=
  let (body, suffix) := match cs.getLast? with
    | some c => if c.isAlpha then (cs.dropLast, some c) else (cs, none)
    | none => (cs, none)
  if body.isEmpty || !body.all isNumberChar then .error (.invalid literal .unrecognized)
  else
    match suffix with
    | some c => suffixedNumber literal body c
    | none => plainNumber literal body

/-- Read a literal; white space around it is ignored. -/
def decode (text : String) : Except Fault Value :=
  let cs := Text.trim text.toList
  let literal := String.ofList cs
  if cs.isEmpty then .error (.invalid literal .empty)
  else if literal = "null" then .ok .null
  else if literal = "true" then .ok (.boolean true)
  else if literal = "false" then .ok (.boolean false)
  else
    match cs with
    | '\'' :: rest => (quotedBody literal rest).map fun s => .string (.ofList s)
    | 'X' :: '\'' :: rest | 'x' :: '\'' :: rest =>
      match closing? rest with
      | some hex => hexBody literal hex
      | none => .error (.unterminated literal)
    | _ =>
      let form := (wordForms literal).findSome? fun (word, read) =>
        (afterWord? word cs).map fun rest => (quotedBody literal rest).bind read
      form.getD (number literal cs)

end Edm.Literal
