import Edm.Entity.Json
import Edm.Query
import Edm.Query.Ordering
import Edm.Snapshot.Projection

/-!
This module contains the answers to queries: pages of entities, counts, single entities and what is
at the far end of a navigation. A page that is cut off carries the text of the key of its last
entity, and the next page starts behind that entity.
-/

namespace Edm

structure Page (α : Type) where
  set : String
  entities : List (Entity α)
  inlineCount? : Option Nat
  skipToken? : Option String

inductive Followed (α : Type) where
  | entities (es : List (Entity α))
  | entity (e : Option (Entity α))
  | value (p : NamedValue)

variable {α : Type}

def Page.toJson (p : Page α) : Json :=
  .object ([
      ("entity_set", .string p.set),
      ("entities", .array (p.entities.map Entity.toJson))]
    ++ Json.member? "inline_count" (p.inlineCount?.map .ofNat)
    ++ Json.member? "skip_token" (p.skipToken?.map .string))

def Followed.toJson : Followed α → Json
  | .entities es => .array (es.map Entity.toJson)
  | .entity none => .null
  | .entity (some e) => e.toJson
  | .value p => p.toJson

namespace Snapshot

def find (s : Snapshot α) (name : String) : Except Failure (EntitySet × SetEntry α) := do
  let set ← s.model.entitySet name
  return (set, ← s.entry name)

def filtered (s : Snapshot α) (filter? : Option Expr) (rs : List (Record α)) :
    Except Failure (List (Record α)) :=
  match filter? with
  | none => .ok rs
  | some e => rs.filterM (e.evaluatePredicate s.registry.accessor?)

/-- The records behind the first one whose key has the given text. -/
def behind (set : EntitySet) (a : Accessor α) (token : String) :
    List (Record α) → Except Failure (List (Record α))
  | [] => .ok []
  | r :: rs => do
    if (← (← key set a r.data).text) = token then return rs
    behind set a token rs

def ordered (s : Snapshot α) (set : EntitySet) (e : SetEntry α) (q : Query)
    (rs : List (Record α)) : Except Failure (List (Record α)) := do
  let rs ← orderRecords s.registry.accessor? q.orderBy rs
  match q.skipToken? with
  | none => return rs
  | some token => behind set e.accessor token rs

/-- A page of the entities of a set. One more than fits is made, to see whether there are more. -/
def page (s : Snapshot α) (name : String) (q : Query) : Except Failure (Page α) := do
  let (set, e) ← s.find name
  let matching ← s.filtered q.filter? e.records
  let rs ← s.ordered set e q matching
  let limit := q.limit s.config.maxResults
  let entities ← ((rs.drop (q.skip?.getD 0)).take (limit + 1)).mapM fun r =>
    s.toEntity set r q.selection
  let shown := entities.take limit
  let skipToken? ←
    match shown.getLast? with
    | some last => if limit < entities.length then some <$> last.key.text else pure none
    | none => pure none
  return ⟨set.name, shown, if q.inlineCount then some matching.length else none, skipToken?⟩

/-- At most `n` pages, each of which starts where the one before it ends. -/
def pages (s : Snapshot α) (name : String) (q : Query) : Nat → Except Failure (List (Page α))
  | 0 => .ok []
  | n + 1 => do
    let p ← s.page name q
    match p.skipToken? with
    | none => return [p]
    | some token => return p :: (← s.pages name { q with skipToken? := some token } n)

def count (s : Snapshot α) (name : String) (q : Query) : Except Failure Nat := do
  if q.inlineCount then throw (.unsupported .inlineCount)
  if q.skipToken?.isSome then throw (.unsupported .skipToken)
  let (_, e) ← s.find name
  let remaining := (← s.filtered q.filter? e.records).length - q.skip?.getD 0
  return match q.top? with
    | none => remaining
    | some top => min remaining top

/-- The first record of a set with the given key. -/
def findRecord (set : EntitySet) (a : Accessor α) (wanted : Key) :
    List (Record α) → Except Failure (Record α)
  | [] => .error (.notFound (.entity set.name wanted.display))
  | r :: rs => do
    if (← key set a r.data).isMatch wanted then return r
    findRecord set a wanted rs

def entity (s : Snapshot α) (name : String) (wanted : Key) (q : Query) :
    Except Failure (Entity α) := do
  let (set, e) ← s.find name
  let r ← findRecord set e.accessor wanted e.records
  s.toEntity set r q.selection

def follow (s : Snapshot α) (name : String) (wanted : Key) (property : String) (q : Query) :
    Except Failure (Followed α) := do
  let (set, e) ← s.find name
  let r ← findRecord set e.accessor wanted e.records
  match set.type.navigation? property with
  | some n =>
    match s.model.entitySetOfType? n.target with
    | none => throw (.notFound (.entitySetOfType n.target))
    | some target =>
      let entities ← (← e.accessor.related r.data n).mapM fun other =>
        s.toEntity target other q.selection
      return if n.multiplicity.isMany then .entities entities else .entity entities.head?
  | none =>
    match set.type.property? property with
    | none => throw (.notFound (.property property set.type.name))
    | some p =>
      if !p.type.isSimple then throw (.unsupported (.navigation p.type.fullName property))
      let shown ← s.project e.accessor r.data p
      return .value (shown.getD ⟨property, p.type, .simple .null⟩)

end Snapshot

end Edm
