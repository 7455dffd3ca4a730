/-!
This module contains JSON documents with a fixed order of members, and their compact and their
indented text.
-/

namespace Edm

/-- A JSON document; numbers are kept as the text to be written. -/
inductive Json where
  | null
  | bool (b : Bool)
  | number (text : String)
  | string (s : String)
  | array (items : List Json)
  | object (members : List (String × Json))

namespace Json

def ofNat (n : Nat) : Json := .number (toString n)

def ofInt (n : Int) : Json := .number (toString n)

def member? (name : String) (value : Option Json) : List (String × Json) :=
  (value.map fun v => (name, v)).toList

def hexFour (n : Nat) : List Char :=
  let digits := Nat.toDigits 16 n
  .replicate (4 - digits.length) '0' ++ digits

/-- A character of a JSON string; only quotes, backslashes and controls are escaped. -/
def escapeChar (c : Char) : List Char :=
  match c with
  | '"' => ['\\', '"']
  | '\\' => ['\\', '\\']
  | '\x08' => ['\\', 'b']
  | '\x0c' => ['\\', 'f']
  | '\n' => ['\\', 'n']
  | '\r' => ['\\', 'r']
  | '\t' => ['\\', 't']
  | c => if c.toNat < 0x20 then '\\' :: 'u' :: hexFour c.toNat else [c]

def quote (s : String) : List Char :=
  '"' :: (s.toList.flatMap escapeChar ++ ['"'])

def lineBreak (level : Nat) : List Char := '\n' :: .replicate (2 * level) ' '

mutual

/-- The text without any white space, put in front of `rest`. -/
def compactOnto (rest : List Char) : Json → List Char
  | .null => "null".toList ++ rest
  | .bool b => (if b then "true" else "false").toList ++ rest
  | .number text => text.toList ++ rest
  | .string s => quote s ++ rest
  | .array [] => '[' :: ']' :: rest
  | .array (item :: items) => '[' :: compactOnto (compactItems (']' :: rest) items) item
  | .object [] => '\x7b' :: '\x7d' :: rest
  | .object ((name, value) :: members) =>
    '\x7b' :: (quote name
      ++ ':' :: compactOnto (compactMembers ('\x7d' :: rest) members) value)

def compactItems (rest : List Char) : List Json → List Char
  | [] => rest
  | item :: items => ',' :: compactOnto (compactItems rest items) item

def compactMembers (rest : List Char) : List (String × Json) → List Char
  | [] => rest
  | (name, value) :: members =>
    ',' :: (quote name ++ ':' :: compactOnto (compactMembers rest members) value)

end

mutual

def indentedOnto (level : Nat) (rest : List Char) : Json → List Char
  | .null => "null".toList ++ rest
  | .bool b => (if b then "true" else "false").toList ++ rest
  | .number text => text.toList ++ rest
  | .string s => quote s ++ rest
  | .array [] => '[' :: ']' :: rest
  | .array (item :: items) =>
    '[' :: (lineBreak (level + 1) ++ indentedOnto (level + 1)
      (indentedItems level (lineBreak level ++ ']' :: rest) items) item)
  | .object [] => '\x7b' :: '\x7d' :: rest
  | .object ((name, value) :: members) =>
    '\x7b' :: (lineBreak (level + 1) ++ (quote name ++ ':' :: ' ' :: indentedOnto (level + 1)
      (indentedMembers level (lineBreak level ++ '\x7d' :: rest) members) value))

def indentedItems (level : Nat) (rest : List Char) : List Json → List Char
  | [] => rest
  | item :: items =>
    ',' :: (lineBreak (level + 1)
      ++ indentedOnto (level + 1) (indentedItems level rest items) item)

def indentedMembers (level : Nat) (rest : List Char) : List (String × Json) → List Char
  | [] => rest
  | (name, value) :: members =>
    ',' :: (lineBreak (level + 1) ++ (quote name
      ++ ':' :: ' ' :: indentedOnto (level + 1) (indentedMembers level rest members) value))

end

def compact (j : Json) : String := .ofList (compactOnto [] j)

def indented (j : Json) : String := .ofList (indentedOnto 0 [] j)

example : (array [.null, .object [("a", .ofNat 1)]]).compact = "[null,\x7b\"a\":1\x7d]" := by
  decide +kernel

end Json

end Edm
