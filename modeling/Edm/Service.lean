import Edm.Model.Cache
import Edm.Model.Generate
import Edm.Snapshot.Ingest
import Edm.Snapshot.Page

/-!
This module contains services: registrations, the settings, and a model of the registrations that is
made when it is needed. Every registration makes the service forget its model. What a service shows
cannot be changed through it.
-/

namespace Edm

structure Service (α : Type) where
  config : Config
  registry : Registry α := {}
  cache : Cache := {}
  calls : List (HookCall α) := []

/-- Operations of a service, which may change it also when they fail. -/
abbrev ServiceM (α : Type) := ExceptT Failure (StateM (Service α))

namespace Service

variable {α : Type}

/-- Enumerations are texts if the settings say so. -/
def adapt (config : Config) (a : Accessor α) : Accessor α :=
  if config.enumsAsStrings then a.enumsAsText else a

/-- Register a set of records, whose name and shape must not be taken. -/
def registerSet (e : SetEntry α) : ServiceM α Unit := do
  let s ← get
  match s.registry.addSet? (e.mapAccessor (adapt s.config)) with
  | none => throw (.invalidMetadata (.taken e.name))
  | some registry => set { s with registry, cache := s.cache.invalidate }

def registerComplexType (e : ComplexEntry α) : ServiceM α Unit :=
  modify fun s => { s with
    registry := s.registry.addComplexType (e.mapAccessor (adapt s.config))
    cache := s.cache.invalidate }

def setRecords (name : String) (records : List (Record α)) : ServiceM α Unit :=
  modify fun s => { s with registry := s.registry.setRecords name records }

def throughCache (f : Cache → Except Failure Model → Except Failure Numbered × Cache) :
    ServiceM α Numbered := do
  let s ← get
  let (result, cache) := f s.cache (s.registry.generate s.config)
  set { s with cache }
  liftExcept result
where
  liftExcept (r : Except Failure Numbered) : ServiceM α Numbered :=
    match r with
    | .ok numbered => return numbered
    | .error failure => throw failure

def model : ServiceM α Numbered := throughCache Cache.getOrBuild

def rebuildModel : ServiceM α Numbered := throughCache Cache.build

def snapshot : ServiceM α (Snapshot α) := do
  let numbered ← model
  let s ← get
  return ⟨s.registry, numbered.model, s.config⟩

def ask (request : Snapshot α → Except Failure β) : ServiceM α β := do
  match request (← snapshot) with
  | .ok answer => return answer
  | .error failure => throw failure

def ingest (request : Snapshot α → Ingest α β) : ServiceM α β := do
  let snapshot ← snapshot
  let (result, calls) := (request snapshot).run.run []
  modify fun s => { s with calls := s.calls ++ calls }
  match result with
  | .ok answer => return answer
  | .error failure => throw failure

def page (set : String) (q : Query) : ServiceM α (Page α) := ask (·.page set q)

/-- At most `n` pages, each of which starts where the one before it ends. -/
def pages (set : String) (q : Query) (n : Nat) : ServiceM α (List (Page α)) :=
  ask (·.pages set q n)

def count (set : String) (q : Query) : ServiceM α Nat := ask (·.count set q)

def entity (set : String) (key : Key) (q : Query) : ServiceM α (Entity α) :=
  ask (·.entity set key q)

def follow (set : String) (key : Key) (property : String) (q : Query) :
    ServiceM α (Followed α) :=
  ask (·.follow set key property q)

def toRecord (entity : Entity α) (shape : Shape) : ServiceM α (Record α) :=
  ingest (·.toRecord entity shape)

def toComplexRecord (values : List NamedValue) (shape : Shape) : ServiceM α (Record α) :=
  ingest (·.toComplexRecord values shape)

/-! ### What a service refuses -/

/-- Records can only be read, and links cannot be asked for by themselves. -/
def refuse (action : ReadOnlyAction) (set : String) : ServiceM α β :=
  throw (.unsupported (.readOnly action set))

/-- The far ends of navigations are not counted. -/
def countFollowed (set : String) : ServiceM α Nat :=
  throw (.unsupported (.navigationCount set))

/-- There are no functions that can be called. -/
def callFunction (name : String) : ServiceM α (Page α) :=
  throw (.unsupported (.function name))

end Service

end Edm
