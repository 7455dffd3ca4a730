import Edm.Literal
import Edm.Path
import Edm.Value.Numeric

/-!
This module contains the expressions of filters and orderings, and their text. The text puts every
operation in parentheses, so it needs no precedence.
-/

namespace Edm

inductive Comparison where
  | eq
  | ne
  | lt
  | le
  | gt
  | ge
deriving DecidableEq, Repr

inductive BinaryOp where
  | or
  | and
  | comparison (c : Comparison)
  | arithmetic (op : ArithmeticOp)
deriving DecidableEq, Repr

def Comparison.keyword : Comparison → String
  | .eq => "eq"
  | .ne => "ne"
  | .lt => "lt"
  | .le => "le"
  | .gt => "gt"
  | .ge => "ge"

def ArithmeticOp.keyword : ArithmeticOp → String
  | .add => "add"
  | .sub => "sub"
  | .mul => "mul"
  | .div => "div"
  | .mod => "mod"

namespace BinaryOp

def all : List BinaryOp := [
  .comparison .eq, .comparison .ne, .comparison .lt, .comparison .le, .comparison .gt,
  .comparison .ge, .and, .or, .arithmetic .add, .arithmetic .sub, .arithmetic .mul,
  .arithmetic .div, .arithmetic .mod]

def keyword : BinaryOp → String
  | .or => "or"
  | .and => "and"
  | .comparison c => c.keyword
  | .arithmetic op => op.keyword

def ofKeyword? (word : String) : Option BinaryOp := all.find? fun op => op.keyword == word

theorem ofKeyword?_keyword (op : BinaryOp) : ofKeyword? op.keyword = some op := by
  cases op with
  | or => rfl
  | and => rfl
  | comparison c => cases c <;> rfl
  | arithmetic op => cases op <;> rfl

end BinaryOp

inductive Builtin where
  | substringof
  | startswith
  | endswith
  | length
  | indexof
  | substring
  | tolower
  | toupper
  | trim
  | concat
  | replace
  | year
  | month
  | day
  | hour
  | minute
  | second
  | round
  | floor
  | ceiling
deriving DecidableEq, Repr

namespace Builtin

def all : List Builtin := [
  .substringof, .startswith, .endswith, .length, .indexof, .substring, .tolower, .toupper, .trim,
  .concat, .replace, .year, .month, .day, .hour, .minute, .second, .round, .floor, .ceiling]

def name : Builtin → String
  | .substringof => "substringof"
  | .startswith => "startswith"
  | .endswith => "endswith"
  | .length => "length"
  | .indexof => "indexof"
  | .substring => "substring"
  | .tolower => "tolower"
  | .toupper => "toupper"
  | .trim => "trim"
  | .concat => "concat"
  | .replace => "replace"
  | .year => "year"
  | .month => "month"
  | .day => "day"
  | .hour => "hour"
  | .minute => "minute"
  | .second => "second"
  | .round => "round"
  | .floor => "floor"
  | .ceiling => "ceiling"

def ofName? (name : String) : Option Builtin := all.find? fun f => f.name == name

theorem ofName?_name (f : Builtin) : ofName? f.name = some f := by
  cases f <;> rfl

def arity : Builtin → Nat × Nat
  | .substringof | .startswith | .endswith | .indexof | .concat => (2, 2)
  | .substring => (2, 3)
  | .replace => (3, 3)
  | _ => (1, 1)

end Builtin

inductive Expr where
  | literal (v : Value)
  | property (path : Path)
  | not (e : Expr)
  | neg (e : Expr)
  | binary (op : BinaryOp) (lhs rhs : Expr)
  | call (f : Builtin) (args : List Expr)
deriving Inhabited

namespace Expr

/-- A literal is written as such, or as the text of its value if it has no literal form. -/
def literalText (v : Value) : List Char :=
  match Literal.encode v with
  | .ok text => text.toList
  | .error _ => v.toText.toList

mutual

def writeOnto (rest : List Char) : Expr → List Char
  | .literal v => literalText v ++ rest
  | .property path => path.toText.toList ++ rest
  | .not e => "not (".toList ++ writeOnto (')' :: rest) e
  | .neg e => "-(".toList ++ writeOnto (')' :: rest) e
  | .binary op lhs rhs =>
    '(' :: writeOnto (' ' :: (op.keyword.toList ++ ' ' :: writeOnto (')' :: rest) rhs)) lhs
  | .call f [] => f.name.toList ++ '(' :: ')' :: rest
  | .call f (arg :: args) => f.name.toList ++ '(' :: writeOnto (writeArgs (')' :: rest) args) arg

/-- The text of the arguments after the first, put in front of `rest`. -/
def writeArgs (rest : List Char) : List Expr → List Char
  | [] => rest
  | arg :: args => ',' :: ' ' :: writeOnto (writeArgs rest args) arg

end

def toText (e : Expr) : String := .ofList (writeOnto [] e)

end Expr

inductive Direction where
  | ascending
  | descending
deriving DecidableEq, Repr

structure OrderKey where
  expr : Expr
  direction : Direction

end Edm
