import Edm.Expr.Parser
import Edm.Service

/-!
This module contains the commands that print what a service offers and the answers to queries.
-/

namespace Edm

inductive Format where
  | text
  | json
deriving DecidableEq, Repr

/-- Results are printed as texts unless JSON is asked for. -/
def Format.ofName (name : String) : Format := if name = "json" then .json else .text

structure QueryOptions where
  filter? : Option String := none
  orderBy? : Option String := none
  top? : Option Nat := none
  skip? : Option Nat := none
  skipToken? : Option String := none
  inlineCount : Bool := false
  select? : Option String := none
  expand? : Option String := none
deriving DecidableEq, Repr

inductive Command where
  | metadata (format : Format)
  | query (set : String) (options : QueryOptions)
  | count (set : String) (filter? : Option String) (top? skip? : Option Nat) (format : Format)
  | version
deriving DecidableEq, Repr

namespace Command

inductive Fault where
  | syntaxFault (fault : Expr.SyntaxFault)
  | service (failure : Failure)
deriving DecidableEq, Repr

def Fault.inspect : Fault → String
  | .syntaxFault fault => fault.inspect
  | .service failure => failure.inspect

def paths (list? : Option String) : List Path :=
  match list? with
  | none => []
  | some list =>
    (((list.toList.splitOn ',').map Text.trim).filter fun path => !path.isEmpty).map fun path =>
      Path.parse (.ofList path)

def readFilter (filter? : Option String) : Except Fault (Option Expr) :=
  match filter? with
  | none => .ok none
  | some text =>
    match Expr.parse text with
    | .ok e => .ok (some e)
    | .error fault => .error (.syntaxFault fault)

def readOrder (orderBy? : Option String) : Except Fault (List OrderKey) :=
  match orderBy? with
  | none => .ok []
  | some text =>
    match OrderKey.parse text with
    | .ok keys => .ok keys
    | .error fault => .error (.syntaxFault fault)

end Command

def QueryOptions.toQuery (o : QueryOptions) : Except Command.Fault Query := do
  let filter? ← Command.readFilter o.filter?
  let orderBy ← Command.readOrder o.orderBy?
  return {
    filter?, orderBy
    top? := o.top?
    skip? := o.skip?
    skipToken? := o.skipToken?
    inlineCount := o.inlineCount
    select := Command.paths o.select?
    expand := Command.paths o.expand? }

namespace Command

def lines (ls : List String) : String := .join (ls.map (· ++ "\n"))

def describeProperty (p : Property) : String :=
  s!"  {p.name}: {p.type.fullName}" ++ if p.nullable then "" else " not null"

def describeNavigation (n : Navigation) : String :=
  s!"  {n.name} -> {n.target} [{n.multiplicity.symbol}]"

def describeEntityType (t : EntityType) : List String :=
  (s!"Entity type {t.fullName} (key: " ++ ", ".intercalate t.keys ++ ")")
    :: (t.properties.map describeProperty ++ t.navigations.map describeNavigation)

def describeComplexType (t : ComplexType) : List String :=
  s!"Complex type {t.fullName}" :: t.properties.map describeProperty

def describeModel (m : Model) : List String :=
  [s!"Namespace:  {m.namespace_}", s!"Container:  {m.containerName}", "", "Entity sets:"]
    ++ m.sets.map (fun s => s!"  {s.name} : {s.type.fullName}")
    ++ m.entityTypes.flatMap (fun t => "" :: describeEntityType t)
    ++ m.complexTypes.flatMap (fun t => "" :: describeComplexType t)

def countJson (set : String) (count : Nat) : Json :=
  .object [("entity_set", .string set), ("count", .ofNat count)]

variable {α : Type}

def perform (s : Service α) (operation : ServiceM α β) : Except Fault β :=
  match (operation.run.run s).1 with
  | .ok result => .ok result
  | .error failure => .error (.service failure)

def run (s : Service α) : Command → Except Fault String
  | .metadata format => do
    let numbered ← perform s Service.model
    return match format with
      | .json => lines [numbered.model.toJson.indented]
      | .text => lines (describeModel numbered.model)
  | .query set options => do
    let page ← perform s (Service.page set (← options.toQuery))
    return lines [page.toJson.indented]
  | .count set filter? top? skip? format => do
    let filter? ← readFilter filter?
    let count ← perform s (Service.count set { filter?, top?, skip? })
    return match format with
      | .json => lines [(countJson set count).indented]
      | .text => lines [toString count]
  | .version => .ok (lines ["EntiOData CLI v0.3.0", "EntiOData Core v0.3.0"])

end Command

end Edm
