import Edm.Text.CaseTable

/-!
This module contains the conversion of texts to upper and to lower case. A character may become
several, and a capital sigma at the end of a word has a lower case form of its own.
-/

namespace Edm.Text

def mapCase (runs : List CodeRun) (sequences : List (Nat × List Nat)) (c : Char) : List Char :=
  match runs.find? (·.contains c) with
  | some run => [run.apply c]
  | none =>
    match sequences.lookup c.toNat with
    | some codes => codes.map .ofNat
    | none => [c]

def upper (c : Char) : List Char :=
  if c.toNat < 0x80 then [c.toUpper] else mapCase upperRuns upperSequences c

def lower (c : Char) : List Char :=
  if c.toNat < 0x80 then [c.toLower] else mapCase lowerRuns lowerSequences c

def isCased (c : Char) : Bool := casedRanges.any (·.contains c)

def isCaseIgnorable (c : Char) : Bool := caseIgnorableRanges.any (·.contains c)

def startsCased (cs : List Char) : Bool :=
  match cs.dropWhile isCaseIgnorable with
  | [] => false
  | c :: _ => isCased c

def toUpper (cs : List Char) : List Char := cs.flatMap upper

def toLower.go (before : List Char) : List Char → List Char
  | [] => []
  | c :: cs =>
    let low :=
      if c = 'Σ' then
        if startsCased before && !startsCased cs then ['ς'] else ['σ']
      else lower c
    low ++ go (c :: before) cs

def toLower (cs : List Char) : List Char := toLower.go [] cs

def equalsIgnoringAsciiCase (s t : String) : Bool :=
  s.toList.map Char.toLower == t.toList.map Char.toLower

example : toUpper "straße".toList = "STRASSE".toList := by decide +kernel
example : toLower "ΑΣ".toList = "ας".toList := by decide +kernel

end Edm.Text
