import Edm.Expr.Token
import Edm.Literal.Decode

/-!
This module contains the reading of expressions. The operators are, from the loosest to the
tightest: `or`, `and`, the comparisons, `add` and `sub`, and `mul`, `div` and `mod`; all of them
associate to the left, and `not` and `-` bind tighter than any of them.
-/

namespace Edm

def BinaryOp.level : BinaryOp → Nat
  | .or => 0
  | .and => 1
  | .comparison _ => 2
  | .arithmetic .add | .arithmetic .sub => 3
  | .arithmetic _ => 4

namespace Expr

def isConstant (word : String) : Bool :=
  word == "null" || word == "true" || word == "false" || word.toList.contains '\''
    || (word.toList.head?.any fun c => c.isDigit || c == '-')

def ofWord (word : String) (offset : Nat) : Except SyntaxFault Expr :=
  if (BinaryOp.ofKeyword? word).isSome then .error (.unexpected word offset)
  else if isConstant word then
    match Literal.decode word with
    | .ok v => .ok (.literal v)
    | .error fault => .error (.literal fault)
  else .ok (.property (Path.parse word))

abbrev Shorter (α : Type) (n : Nat) : Type :=
  Except SyntaxFault (α × { rest : List Lexeme // rest.length < n })

def closing (ts : List Lexeme) : Shorter Unit ts.length :=
  match ts with
  | [] => .error .unexpectedEnd
  | t :: rest =>
    if t.token = .closing then .ok ((), ⟨rest, Nat.lt_succ_self _⟩) else .error (.ofLexeme t)

/-- Read what stands after an argument: a comma, if another one follows, or the end of the call. -/
def separator (ts : List Lexeme) : Shorter Bool ts.length :=
  match ts with
  | [] => .error .unexpectedEnd
  | t :: rest =>
    match t.token with
    | .comma => .ok (true, ⟨rest, Nat.lt_succ_self _⟩)
    | .closing => .ok (false, ⟨rest, Nat.lt_succ_self _⟩)
    | _ => .error (.ofLexeme t)

mutual

def operand (ts : List Lexeme) : Shorter Expr ts.length :=
  match ts with
  | [] => .error .unexpectedEnd
  | ⟨.word "not", _⟩ :: ts =>
    match operand ts with
    | .error fault => .error fault
    | .ok (e, ⟨rest, h⟩) => .ok (.not e, ⟨rest, by simp only [List.length_cons]; omega⟩)
  | ⟨.word "-", _⟩ :: ts =>
    match operand ts with
    | .error fault => .error fault
    | .ok (e, ⟨rest, h⟩) => .ok (.neg e, ⟨rest, by simp only [List.length_cons]; omega⟩)
  | ⟨.opening, _⟩ :: ts =>
    match operation 0 ts with
    | .error fault => .error fault
    | .ok (e, ⟨rest, h⟩) =>
      match closing rest with
      | .error fault => .error fault
      | .ok (_, ⟨rest', h'⟩) => .ok (e, ⟨rest', by simp only [List.length_cons]; omega⟩)
  | ⟨.word word, _⟩ :: ⟨.opening, _⟩ :: ts =>
    match Builtin.ofName? word with
    | none => .error (.unknownFunction word)
    | some f =>
      match ts with
      | [] => .error .unexpectedEnd
      | ⟨.closing, _⟩ :: rest => .ok (.call f [], ⟨rest, by simp only [List.length_cons]; omega⟩)
      | t :: ts =>
        match arguments (t :: ts) with
        | .error fault => .error fault
        | .ok (args, ⟨rest, h⟩) =>
          .ok (.call f args, ⟨rest, by simp only [List.length_cons] at *; omega⟩)
  | ⟨.word word, offset⟩ :: rest =>
    match ofWord word offset with
    | .error fault => .error fault
    | .ok e => .ok (e, ⟨rest, by simp only [List.length_cons]; omega⟩)
  | other :: _ => .error (.ofLexeme other)
termination_by (ts.length, 0)

def operation (level : Nat) (ts : List Lexeme) : Shorter Expr ts.length :=
  match operand ts with
  | .error fault => .error fault
  | .ok (e, ⟨rest, h⟩) =>
    match operators level e rest with
    | .error fault => .error fault
    | .ok (e, ⟨rest', h'⟩) => .ok (e, ⟨rest', by omega⟩)
termination_by (ts.length, 1)

def operators (level : Nat) (lhs : Expr) (ts : List Lexeme) : Shorter Expr (ts.length + 1) :=
  match ts with
  | ⟨.word word, offset⟩ :: ts =>
    match (BinaryOp.ofKeyword? word).filter fun op => level ≤ op.level with
    | none => .ok (lhs, ⟨⟨.word word, offset⟩ :: ts, by omega⟩)
    | some op =>
      match operation (op.level + 1) ts with
      | .error fault => .error fault
      | .ok (rhs, ⟨rest, h⟩) =>
        match operators level (.binary op lhs rhs) rest with
        | .error fault => .error fault
        | .ok (e, ⟨rest', h'⟩) => .ok (e, ⟨rest', by simp only [List.length_cons]; omega⟩)
  | ts => .ok (lhs, ⟨ts, by omega⟩)
termination_by (ts.length, 2)

def arguments (ts : List Lexeme) : Shorter (List Expr) ts.length :=
  match operation 0 ts with
  | .error fault => .error fault
  | .ok (e, ⟨rest, h⟩) =>
    match separator rest with
    | .error fault => .error fault
    | .ok (false, ⟨rest', h'⟩) => .ok ([e], ⟨rest', by omega⟩)
    | .ok (true, ⟨rest', h'⟩) =>
      match arguments rest' with
      | .error fault => .error fault
      | .ok (args, ⟨rest'', h''⟩) => .ok (e :: args, ⟨rest'', by omega⟩)
termination_by (ts.length, 3)

end

def parse (text : String) : Except SyntaxFault Expr := do
  let ts ← tokens text
  match operation 0 ts with
  | .error fault => .error fault
  | .ok (e, ⟨[], _⟩) => .ok e
  | .ok (_, ⟨other :: _, _⟩) => .error (.ofLexeme other)

end Expr

namespace OrderKey

def words (cs : List Char) : List String :=
  ((cs.splitOnP Text.isBlank).filter fun word => !word.isEmpty).map .ofList

/-- Read a path and an optional direction; faults are located by the position in the list. -/
def ofPart (part : List Char) (index : Nat) : Except Expr.SyntaxFault OrderKey :=
  let key (path : String) (direction : Direction) : OrderKey :=
    ⟨.property (Path.parse path), direction⟩
  match words part with
  | [] => .error .unexpectedEnd
  | [path] => .ok (key path .ascending)
  | path :: word :: rest =>
    let direction? : Option Direction :=
      if word = "asc" then some .ascending else if word = "desc" then some .descending else none
    match direction?, rest with
    | none, _ => .error (.unexpected word index)
    | some _, extra :: _ => .error (.unexpected extra index)
    | some direction, [] => .ok (key path direction)

def parse (text : String) : Except Expr.SyntaxFault (List OrderKey) :=
  (text.toList.splitOn ',').zipIdx.mapM fun (part, index) => ofPart part index

end OrderKey

end Edm
