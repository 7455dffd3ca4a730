import Edm.Text.Blank

/-!
This module contains paths of property names, such as `Customer/Address/City`.
-/

namespace Edm

/-- The names of a path, outermost first. -/
abbrev Path := List String

namespace Path

/-- Read a path; white space around names and empty names are ignored. -/
def parse (text : String) : Path :=
  ((text.toList.splitOn '/').map Text.trim |>.filter fun name => !name.isEmpty).map .ofList

def toText (path : Path) : String := "/".intercalate path

example : parse "Customer/ Address //City" = ["Customer", "Address", "City"] := by decide +kernel

end Path

end Edm
