import Edm.Config
import Edm.Registry

/-!
This module contains what a request is answered from: the registrations of a service, a model of
them and the settings, which do not change while the request is answered.
-/

namespace Edm

structure Snapshot (α : Type) where
  registry : Registry α
  model : Model
  config : Config

namespace Snapshot

variable {α : Type}

def setOfShape (s : Snapshot α) (shape : Shape) : Except Failure EntitySet :=
  match s.registry.setOfShape? shape with
  | none => .error (.notFound (.entitySetOfShape shape.label))
  | some e => s.model.entitySet e.name

def entry (s : Snapshot α) (name : String) : Except Failure (SetEntry α) :=
  match s.registry.set? name with
  | none => .error (.notFound (.entitySet name))
  | some e => .ok e

end Snapshot

end Edm
