import Edm.Entity

/-!
This module contains the JSON form of entities.
-/

namespace Edm

mutual

def NamedValue.toJson : NamedValue → Json
  | ⟨name, type, content⟩ =>
    .object [
      ("name", .string name),
      ("type", .string type.fullName),
      ("value", content.toJson)]

def Content.toJson : Content → Json
  | .simple v => v.toJson
  | .complex none => .null
  | .complex (some values) => .array (valuesToJson values)
  | .collection type items =>
    .object [("item_type", .string type.fullName), ("items", .array (itemsToJson items))]

def Item.toJson : Item → Json
  | .simple v => v.toJson
  | .complex values => .array (valuesToJson values)

def valuesToJson : List NamedValue → List Json
  | [] => []
  | p :: ps => p.toJson :: valuesToJson ps

def itemsToJson : List Item → List Json
  | [] => []
  | item :: items => item.toJson :: itemsToJson items

end

variable {α : Type}

mutual

/-- The record that an entity shows is not written. -/
def Entity.toJson : Entity α → Json
  | ⟨set, type, key, values, links, _⟩ =>
    .object [
      ("entity_set", .string set),
      ("entity_type", .string type.fullName),
      ("key", key.toJson),
      ("properties", .array (valuesToJson values)),
      ("links", .array (linksToJson links))]

def Link.toJson : Link α → Json
  | ⟨name, target⟩ => .object (("name", .string name) :: target.toMembers)

def Target.toMembers : Target α → List (String × Json)
  | .deferred many => [("link", .string "deferred"), ("collection", .bool many)]
  | .single none => [("link", .string "inline_entity"), ("entity", .null)]
  | .single (some entity) => [("link", .string "inline_entity"), ("entity", entity.toJson)]
  | .many entities =>
    [("link", .string "inline_entities"), ("entities", .array (entitiesToJson entities))]

def entitiesToJson : List (Entity α) → List Json
  | [] => []
  | e :: es => e.toJson :: entitiesToJson es

def linksToJson : List (Link α) → List Json
  | [] => []
  | l :: ls => l.toJson :: linksToJson ls

end

end Edm
