import Edm.Expr

/-!
This module contains the tokens of the text of an expression, the places where they start, and the
ways in which the text can be wrong.
-/

namespace Edm.Expr

inductive Token where
  | word (text : String)
  | opening
  | closing
  | comma
deriving DecidableEq, Repr

def Token.text : Token → String
  | .word text => text
  | .opening => "("
  | .closing => ")"
  | .comma => ","

structure Lexeme where
  token : Token
  offset : Nat
deriving DecidableEq, Repr

inductive SyntaxFault where
  | unexpected (found : String) (offset : Nat)
  | unexpectedEnd
  | unknownFunction (name : String)
  | literal (fault : Literal.Fault)
deriving DecidableEq, Repr

namespace SyntaxFault

def message : SyntaxFault → String
  | .unexpected found offset => s!"unexpected `{found}` at offset {offset}"
  | .unexpectedEnd => "unexpected end of expression"
  | .unknownFunction name => s!"unknown function {name}"
  | .literal fault => fault.message

def inspect : SyntaxFault → String
  | .unexpected found offset =>
    "Unexpected \x7b found: " ++ Text.quoted found ++ s!", offset: {offset} " ++ "\x7d"
  | .unexpectedEnd => "UnexpectedEnd"
  | .unknownFunction name => "UnknownFunction(" ++ Text.quoted name ++ ")"
  | .literal fault => "Literal(" ++ fault.inspect ++ ")"

def ofLexeme (l : Lexeme) : SyntaxFault := .unexpected l.token.text l.offset

end SyntaxFault

/-- A word that is being read: where it starts, its characters in reverse, and whether the last of
them is inside of quotes. -/
structure OpenWord where
  offset : Nat
  reversed : List Char
  quoted : Bool

namespace OpenWord

def text (w : OpenWord) : String := .ofList w.reversed.reverse

def lexeme (w : OpenWord) : Lexeme := ⟨.word w.text, w.offset⟩

/-- A quote opens or closes a quoted section; a doubled quote does both and so stays inside. -/
def push (w : OpenWord) (c : Char) : OpenWord :=
  ⟨w.offset, c :: w.reversed, if c = '\'' then !w.quoted else w.quoted⟩

end OpenWord

def mark? : Char → Option Token
  | '(' => some .opening
  | ')' => some .closing
  | ',' => some .comma
  | _ => none

/--
Read the tokens of the remaining text, given the tokens before in reverse and the word that is being
read. Outside of quotes a word ends at white space, a parenthesis or a comma.
-/
def tokens.go (read : List Lexeme) (offset : Nat) (word : Option OpenWord) :
    List Char → Except SyntaxFault (List Lexeme)
  | [] =>
    match word with
    | none => .ok read.reverse
    | some w => if w.quoted then .error (.literal (.unterminated w.text))
      else .ok (w.lexeme :: read).reverse
  | c :: cs =>
    let next := offset + c.utf8Size
    match word with
    | some w =>
      if w.quoted then go read next (some (w.push c)) cs
      else if Text.isBlank c then go (w.lexeme :: read) next none cs
      else
        match mark? c with
        | some token => go (⟨token, offset⟩ :: w.lexeme :: read) next none cs
        | none => go read next (some (w.push c)) cs
    | none =>
      if Text.isBlank c then go read next none cs
      else
        match mark? c with
        | some token => go (⟨token, offset⟩ :: read) next none cs
        | none => go read next (some (OpenWord.push ⟨offset, [], false⟩ c)) cs

def tokens (text : String) : Except SyntaxFault (List Lexeme) :=
  tokens.go [] 0 none text.toList

example : (tokens "a eq 'b c'").toOption.map (·.map (·.offset)) = some [0, 2, 5] := by
  decide +kernel

end Edm.Expr
