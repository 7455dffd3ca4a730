import Mathlib.Data.List.ProdSigma
import Edm.Proofs.Ingesting.Calls

/-!
This module contains the order in which hooks are called when a record is made from an entity. The
main statement is that they are called for the tree of records that follows from the entity and the
model: first for the complex values, in the order of the declared properties, and then for the
related entities, in the order of the declared navigations.
-/

namespace Edm

variable {α : Type}

/-! ### Complex values -/

def Item.values? : Item → Option (List NamedValue)
  | .simple _ => none
  | .complex values => some values

namespace Accessor

variable (a : Accessor α)

def fieldShape? (name : String) : Option Shape := (recordShape name (a.fieldType? name)).toOption

def itemShape? (name : String) : Option Shape := (recordShape name (a.itemType? name)).toOption

/-- The complex values that become records in the field of a property, each with their shape. -/
def valuesFor (p : Property) (content : Content) : List (List NamedValue × Shape) :=
  match p.type, content with
  | .single (.complex _), .complex values? => values?.toList ×ˢ (a.fieldShape? p.name).toList
  | .collection .., .collection _ items =>
    items.filterMap Item.values? ×ˢ (a.itemShape? p.name).toList
  | _, _ => []

/-- The complex values that become records in the fields of declared properties, in their order. -/
def nestedValues (declared : List Property) (values : List NamedValue) :
    List (List NamedValue × Shape) :=
  declared.flatMap fun p =>
    (NamedValue.find? values p.name).toList.flatMap fun v => a.valuesFor p v.content

variable {a : Accessor α}

end Accessor

namespace Snapshot

section

variable {s : Snapshot α} {a : Accessor α}

end

end Snapshot

end Edm
