import Edm.Failure
import Edm.Text.CaseMap
import Edm.Value.Text

/-!
This module contains the keys of entities and their texts, which also serve as marks between the
pages of a result.
-/

namespace Edm

inductive Key where
  | single (v : Value)
  | composite (parts : List (String × Value))
deriving Inhabited

namespace Key

/-- The key with the given names and values, none of which may be null. -/
def create (names : List String) (values : List Value) : Except Failure Key :=
  if names.isEmpty ∨ names.length ≠ values.length then
    .error (.invalidKey (.count names.length values.length))
  else
    match (names.zip values).find? fun (_, v) => v.isNull with
    | some (name, _) => .error (.invalidKey (.null name))
    | none =>
      match values with
      | [v] => .ok (.single v)
      | values => .ok (.composite (names.zip values))

def arity : Key → Nat
  | .single _ => 1
  | .composite parts => parts.length

def hasNull : Key → Bool
  | .single v => v.isNull
  | .composite parts => parts.any fun (_, v) => v.isNull

def literal (v : Value) : Except Failure String :=
  match Literal.encode v with
  | .ok text => .ok text
  | .error fault => .error (.codec fault)

def text : Key → Except Failure String
  | .single v => literal v
  | .composite parts => do
    let texts ← parts.mapM fun (name, v) => return name ++ "=" ++ (← literal v)
    return ",".intercalate texts

def display (k : Key) : String :=
  match k.text with
  | .ok text => "(" ++ text ++ ")"
  | .error _ => "(?)"

/--
Whether a key is the one that is looked up. Every part has to be given, in any order and with names
in any case.
-/
def isMatch (own wanted : Key) : Bool :=
  match own, wanted with
  | .single a, .single b => a.looselyEquals b
  | .composite own, .composite wanted =>
    own.all fun (name, v) =>
      (wanted.find? fun (n, _) => Text.equalsIgnoringAsciiCase n name).any fun (_, w) =>
        v.looselyEquals w
  | _, _ => false

def equals : Key → Key → Bool
  | .single a, .single b => a.equals b
  | .composite a, .composite b =>
    a.length == b.length && (a.zip b).all fun ((m, v), (n, w)) => m == n && v.equals w
  | _, _ => false

def toJson : Key → Json
  | .single v => v.toJson
  | .composite parts => .array (parts.map fun (name, v) => .array [.string name, v.toJson])

end Key

end Edm
