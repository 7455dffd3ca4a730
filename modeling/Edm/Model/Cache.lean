import Edm.Model

/-!
This module contains a place for a model that is expensive to make. It keeps the last one that was
made until it is told to forget it.
-/

namespace Edm

structure Numbered where
  number : Nat
  model : Model

structure Cache where
  current? : Option Numbered := none
  made : Nat := 0

namespace Cache

def isBuilt (c : Cache) : Bool := c.current?.isSome

/-- Make a model and keep it; if that fails, the one from before is kept. -/
def build (c : Cache) (model : Except Failure Model) : Except Failure Numbered × Cache :=
  match model with
  | .error failure => (.error failure, c)
  | .ok model =>
    let numbered : Numbered := ⟨c.made, model⟩
    (.ok numbered, ⟨some numbered, c.made + 1⟩)

def getOrBuild (c : Cache) (model : Except Failure Model) : Except Failure Numbered × Cache :=
  match c.current? with
  | some numbered => (.ok numbered, c)
  | none => c.build model

def invalidate (c : Cache) : Cache := { c with current? := none }

end Cache

end Edm
