import Edm.Text.Hex
import Edm.Text.Size

/-!
This module contains identifiers of 128 bits and their text in five groups of digits.
-/

namespace Edm

structure Guid where
  value : BitVec 128
deriving DecidableEq, Repr

namespace Guid

instance : Inhabited Guid := ⟨⟨0⟩⟩

def groupSizes : List Nat := [8, 4, 4, 4, 12]

def order (a b : Guid) : Ordering := compare a.value.toNat b.value.toNat

def cut (sizes : List Nat) (ds : List α) : List (List α) :=
  match sizes with
  | [] => []
  | n :: rest => ds.take n :: cut rest (ds.drop n)

def toText (g : Guid) : String :=
  .ofList ((cut groupSizes (Text.hexPadded 32 g.value.toNat)).intersperse ['-']).flatten

inductive Fault where
  | badLength (found : Nat)
  | badCharacter (found : Char) (index : Nat)
  | badGroupCount (found : Nat)
  | badGroupLength (group expected found : Nat)
deriving DecidableEq, Repr

def Fault.message : Fault → String
  | .badLength n => s!"invalid length: found {n}"
  | .badCharacter c i => s!"invalid character: found `{c}` at {i}"
  | .badGroupCount n => s!"invalid group count: expected 5, found {n}"
  | .badGroupLength g e n => s!"invalid group length in group {g}: expected {e}, found {n}"

def ofDigits? (ds : List Char) : Option Guid :=
  if ds.length = 32 then
    (ds.mapM Text.hexValue?).map fun ns => ⟨.ofNat 128 (ns.foldl (fun n d => n * 16 + d) 0)⟩
  else none

def ofGroups? (cs : List Char) : Option Guid :=
  let groups := cs.splitOn '-'
  if groups.map List.length = groupSizes then ofDigits? groups.flatten else none

def urnPrefix : List Char := "urn:uuid:".toList

/-- Take braces or the resource name prefix away; the result tells how long the prefix was. -/
def unwrap? (cs : List Char) : Option (Nat × List Char) :=
  if urnPrefix.isPrefixOf cs then some (urnPrefix.length, cs.drop urnPrefix.length)
  else
    match cs with
    | '\x7b' :: rest => if rest.getLast? = some '\x7d' then some (1, rest.dropLast) else none
    | _ => none

/-- The first group that does not end where it should, given where the hyphens are. -/
def badGroup (size : Nat) (hyphens : List Nat) : Fault :=
  let starts := [0, 9, 14, 19]
  let ends := [8, 13, 18, 23]
  let groups := (hyphens.zip (starts.zip ends)).zipIdx
  match groups.find? fun ((at_, _, end_), _) => at_ != end_ with
  | some ((at_, start, end_), i) => .badGroupLength i (end_ - start) (at_ - start)
  | none => .badGroupLength 4 12 (size - 24)

def byteIndices (start : Nat) : List Char → List (Char × Nat)
  | [] => []
  | c :: cs => (c, start) :: byteIndices (start + c.utf8Size) cs

def diagnose (cs : List Char) : Fault :=
  let size := Text.utf8Size cs
  let (offset, wrapped, body) := match unwrap? cs with
    | some (offset, body) => (offset, true, body)
    | none => (0, false, cs)
  let indexed := byteIndices 0 body
  match indexed.find? fun (c, _) => c != '-' && (Text.hexValue? c).isNone with
  | some (c, i) => .badCharacter c (i + offset)
  | none =>
    let hyphens := (indexed.filter (·.1 == '-')).map (·.2)
    if hyphens.isEmpty && !wrapped then .badLength size
    else if hyphens.length ≠ 4 then .badGroupCount (hyphens.length + 1)
    else badGroup size hyphens

/--
Read an identifier: 32 digits, or five groups of digits on their own, in braces or as a resource
name.
-/
def read (cs : List Char) : Except Fault Guid :=
  let ofOption (cs : List Char) : Option Guid → Except Fault Guid
    | some g => .ok g
    | none => .error (diagnose cs)
  let size := Text.utf8Size cs
  if size = 32 then ofOption cs (ofDigits? cs)
  else if size = 36 then ofOption cs (ofGroups? cs)
  else
    match unwrap? cs with
    | some (_, body) =>
      if Text.utf8Size body = 36 then ofOption body (ofGroups? body)
      else .error (diagnose cs)
    | none => .error (diagnose cs)

end Guid

end Edm
