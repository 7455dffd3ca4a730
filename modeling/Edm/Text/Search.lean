/-!
This module contains the search for a text within another one. What is found is a place in bytes,
from which the number of characters is counted.
-/

namespace Edm.Text

/-- The number of bytes before the first occurrence of `needle`. -/
def find? (needle : List Char) : List Char → Option Nat
  | [] => if needle.isEmpty then some 0 else none
  | c :: cs =>
    if needle.isPrefixOf (c :: cs) then some 0 else (find? needle cs).map (c.utf8Size + ·)

/-- The characters within the first `n` bytes. -/
def takeBytes (n : Nat) : List Char → List Char
  | [] => []
  | c :: cs => if c.utf8Size ≤ n then c :: takeBytes (n - c.utf8Size) cs else []

/-- The number of characters before the first occurrence of `needle`. -/
def indexOf? (needle cs : List Char) : Option Nat :=
  (find? needle cs).map fun bytes => (takeBytes bytes cs).length

def contains (needle cs : List Char) : Bool := (find? needle cs).isSome

def replace.go (needle other : List Char) : (skip : Nat) → List Char → List Char
  | _, [] => []
  | skip + 1, _ :: cs => go needle other skip cs
  | 0, c :: cs =>
    if needle.isPrefixOf (c :: cs) then other ++ go needle other (needle.length - 1) cs
    else c :: go needle other 0 cs

/-- Replace every occurrence of `needle`; an empty one occurs before and after every character. -/
def replace (needle other cs : List Char) : List Char :=
  if needle.isEmpty then other ++ cs.flatMap fun c => c :: other
  else replace.go needle other 0 cs

example : replace "aa".toList "b".toList "aaaca".toList = "baca".toList := by decide
example : replace [] "-".toList "ab".toList = "-a-b-".toList := by decide

end Edm.Text
