/-!
This module contains the settings of a service.
-/

namespace Edm

structure Config where
  namespace_ : String := "InMemory"
  containerName : String := "Container"
  maxResults : Nat := 100
  includeNullProperties : Bool := true
  enumsAsStrings : Bool := true
deriving DecidableEq, Repr

namespace Config

def defaultContainerName : String := "Container"

/-- The container has to have a name, so an empty one stands for the default. -/
def withContainerName (c : Config) (name : String) : Config :=
  { c with containerName := if name.isEmpty then defaultContainerName else name }

end Config

end Edm
