import Edm.Guid
import Edm.Calendar.Reader
import Edm.Text.Blank
import Edm.Value.Numeric
import Edm.Value.Text

/-!
This module contains the literals of values in addresses: their writing and their reading. The kind
of a literal shows in its quotes, its leading word or its last letter.
-/

namespace Edm

namespace Literal

inductive Cause where
  | empty
  | strayQuote
  | oddHex
  | badHex
  | unrecognized
  | malformedNumber
  | unknownSuffix
  | calendar (fault : Calendar.Fault)
  | guid (fault : Guid.Fault)
deriving DecidableEq, Repr

def Cause.message : Cause → String
  | .empty => "empty literal"
  | .strayQuote => "unescaped quote inside string"
  | .oddHex => "odd number of hex digits"
  | .badHex => "invalid hex digit"
  | .unrecognized => "unrecognized literal"
  | .malformedNumber => "malformed number"
  | .unknownSuffix => "unknown numeric suffix"
  | .calendar fault => fault.message
  | .guid fault => fault.message

inductive Fault where
  | invalid (literal : String) (cause : Cause)
  | outOfRange (literal : String)
  | unterminated (literal : String)
  | nonFinite
deriving DecidableEq, Repr

def Fault.message : Fault → String
  | .invalid literal cause => s!"invalid literal `{literal}`: {cause.message}"
  | .outOfRange literal => s!"numeric literal out of range: {literal}"
  | .unterminated literal => s!"unterminated quoted literal: {literal}"
  | .nonFinite => "non-finite floating point values have no literal form"

def Fault.inspect : Fault → String
  | .invalid literal cause =>
    "InvalidLiteral \x7b literal: " ++ Text.quoted literal ++ ", message: "
      ++ Text.quoted cause.message ++ " \x7d"
  | .outOfRange literal => "OutOfRange \x7b literal: " ++ Text.quoted literal ++ " \x7d"
  | .unterminated literal => "Unterminated \x7b literal: " ++ Text.quoted literal ++ " \x7d"
  | .nonFinite => "NonFinite"

def doubleQuotes : List Char → List Char
  | [] => []
  | c :: cs => if c = '\'' then '\'' :: '\'' :: doubleQuotes cs else c :: doubleQuotes cs

/-- Undo `doubleQuotes`; a single quote has no meaning. -/
def undoubleQuotes? : List Char → Option (List Char)
  | [] => some []
  | '\'' :: '\'' :: cs => (undoubleQuotes? cs).map ('\'' :: ·)
  | c :: cs => if c = '\'' then none else (undoubleQuotes? cs).map (c :: ·)

theorem undoubleQuotes?_doubleQuotes (cs : List Char) :
    undoubleQuotes? (doubleQuotes cs) = some cs := by
  induction cs with
  | nil => rfl
  | cons c cs ih => by_cases h : c = '\'' <;> simp [doubleQuotes, undoubleQuotes?, h, ih]

def quote (cs : List Char) : List Char := '\'' :: (doubleQuotes cs ++ ['\''])

/-- Write the literal of a value; floats that are not finite have none. -/
def encode (v : Value) : Except Fault String :=
  match v with
  | .int64 n => .ok (toString n.toInt ++ "L")
  | .single x =>
    match Ieee.datum32 x with
    | .finite .. => .ok (Ieee.display32 x ++ "f")
    | _ => .error .nonFinite
  | .double x =>
    match Ieee.datum x with
    | .finite .. => .ok (Ieee.display x ++ "D")
    | _ => .error .nonFinite
  | .decimal d => .ok (d.toText ++ "M")
  | .string s => .ok (.ofList (quote s.toList))
  | .dateTime t => .ok ("datetime'" ++ t.toText ++ "'")
  | .dateTimeOffset t => .ok ("datetimeoffset'" ++ t.toText ++ "'")
  | .time t => .ok ("time'" ++ t.toText ++ "'")
  | .guid g => .ok ("guid'" ++ g.toText ++ "'")
  | .binary bytes => .ok (.ofList ('X' :: '\'' :: (Text.bytesHexUpper bytes ++ ['\''])))
  | v => .ok v.toText

/-- Append the literal of a value to a text, which stays as it was if there is none. -/
def append (buffer : String) (v : Value) : String × Except Fault Unit :=
  match encode v with
  | .ok text => (buffer ++ text, .ok ())
  | .error fault => (buffer, .error fault)

end Literal

end Edm
