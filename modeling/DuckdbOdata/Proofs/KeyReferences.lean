import DuckdbOdata.Proofs.Entities
import DuckdbOdata.Proofs.MetadataDocument
import Mathlib.Data.List.Forall2

/-! References inside the metadata document. Every reference to a type or a
property is to a declared one, except that the key of an entity may name a column
whose type has no EDM counterpart. -/

namespace DuckdbOdata.KeyReferences
open Text Xml MetadataDocument Entities

def schemas (root : Node) : List Node :=
  (root.childrenNamed "edmx:DataServices".toList).flatMap (·.childrenNamed "Schema".toList)

def entityTypes (root : Node) : List Node := (schemas root).flatMap (·.childrenNamed "EntityType".toList)

def entitySets (root : Node) : List Node :=
  ((schemas root).flatMap (·.childrenNamed "EntityContainer".toList)).flatMap (·.childrenNamed "EntitySet".toList)

def nameOf (node : Node) : Option Str := node.valueOf "Name".toList

/-- Every property that a key names is declared in the same type. -/
def KeysDeclared (type : Node) : Prop :=
  ∀ key ∈ type.childrenNamed "Key".toList, ∀ ref ∈ key.childrenNamed "PropertyRef".toList,
    ∃ prop ∈ type.childrenNamed "Property".toList, ∃ name, nameOf ref = some name ∧ nameOf prop = some name

/-- There is a key exactly if the entity has one, and it is not empty. -/
structure KeyPresent (entity : EdmEntity) (type : Node) : Prop where
  present : type.childrenNamed "Key".toList ≠ [] ↔ entity.hasKey = true
  filled : ∀ key ∈ type.childrenNamed "Key".toList, key.childrenNamed "PropertyRef".toList ≠ []

structure Consistent (entities : List EdmEntity) (root : Node) : Prop where
  declared : ∀ type ∈ entityTypes root, KeysDeclared type
  keys : List.Forall₂ KeyPresent entities (entityTypes root)
  sets : ∀ set ∈ entitySets root, ∃ type ∈ entityTypes root, ∃ name, nameOf type = some name ∧
    set.valueOf "EntityType".toList = some ("DuckDB.".toList ++ name)

/-- Every visible key column is declared as a property. -/
def KeysSerializable (entity : EdmEntity) : Prop :=
  ∀ prop ∈ entity.properties, prop.isKey = true → ∃ declared ∈ entity.properties, declared.serializable = true ∧ declared.name = prop.name

private theorem named_all {name : Str} {nodes : List Node} (same : ∀ node ∈ nodes, node.name = name) :
    nodes.filter (·.name = name) = nodes :=
  List.filter_eq_self.mpr fun node member => decide_eq_true (same node member)

private theorem named_none {name : Str} {nodes : List Node} (other : ∀ node ∈ nodes, node.name ≠ name) :
    nodes.filter (·.name = name) = [] :=
  List.filter_eq_nil_iff.mpr fun node member => by simpa using other node member

private theorem named_map {α : Type} {name : Str} {node : α → Node} (same : ∀ item, (node item).name = name) (items : List α) :
    (items.map node).filter (·.name = name) = items.map node := by
  refine named_all fun child member => ?_
  obtain ⟨item, -, rfl⟩ := List.mem_map.mp member
  exact same item

private theorem named_map_none {α : Type} {name other : Str} {node : α → Node} (same : ∀ item, (node item).name = other)
    (apart : other ≠ name) (items : List α) : (items.map node).filter (·.name = name) = [] := by
  refine named_none fun child member => ?_
  obtain ⟨item, -, rfl⟩ := List.mem_map.mp member
  rw [same item]
  exact apart

private theorem named_single {name : Str} {node : Node} (same : node.name = name) : [node].filter (·.name = name) = [node] :=
  named_all fun _ member => List.mem_singleton.mp member ▸ same

private theorem named_single_none {name : Str} {node : Node} (apart : node.name ≠ name) : [node].filter (·.name = name) = [] :=
  named_none fun _ member => List.mem_singleton.mp member ▸ apart

private theorem named_element (name : Str) (attributes : List (Str × Str)) (children : List Node) :
    [Node.element name attributes children].filter (·.name = name) = [.element name attributes children] := named_single rfl

private theorem property_name (prop : EdmProperty) : (propertyNode prop).name = "Property".toList := rfl

private theorem ref_name (prop : EdmProperty) : (propertyRefNode prop).name = "PropertyRef".toList := rfl

private theorem entityType_name (entity : EdmEntity) : (entityTypeNode entity).name = "EntityType".toList := rfl

private theorem entitySet_name (entity : EdmEntity) : (entitySetNode entity).name = "EntitySet".toList := rfl

private theorem schemas_edmx (entities : List EdmEntity) :
    ∃ attributes, schemas (edmxNode entities) =
      [.element "Schema".toList attributes (entities.map entityTypeNode ++ [containerNode entities])] := by
  refine ⟨[("Namespace".toList, "DuckDB".toList), ("xmlns".toList, "http://docs.oasis-open.org/odata/ns/edm".toList)], ?_⟩
  unfold schemas edmxNode
  simp only [Node.childrenNamed, Node.children]
  rw [named_element, List.flatMap_singleton]
  exact named_element _ _ _

theorem entityTypes_edmx (entities : List EdmEntity) : entityTypes (edmxNode entities) = entities.map entityTypeNode := by
  obtain ⟨attributes, same⟩ := schemas_edmx entities
  unfold entityTypes
  rw [same, List.flatMap_singleton]
  simp only [Node.childrenNamed, Node.children]
  have container : (containerNode entities).name ≠ "EntityType".toList :=
    (by decide : "EntityContainer".toList ≠ "EntityType".toList)
  rw [List.filter_append, named_map entityType_name, named_single_none container, List.append_nil]

theorem entitySets_edmx (entities : List EdmEntity) : entitySets (edmxNode entities) = entities.map entitySetNode := by
  obtain ⟨attributes, same⟩ := schemas_edmx entities
  unfold entitySets
  rw [same, List.flatMap_singleton]
  simp only [Node.childrenNamed, Node.children]
  have apart : "EntityType".toList ≠ "EntityContainer".toList := by decide
  have container : (containerNode entities).name = "EntityContainer".toList := rfl
  rw [List.filter_append, named_map_none entityType_name apart, named_single container, List.nil_append, List.flatMap_singleton]
  exact named_map entitySet_name entities

theorem keys_entityType (entity : EdmEntity) :
    (entityTypeNode entity).childrenNamed "Key".toList = if entity.hasKey then [keyNode entity] else [] := by
  have apart : "Property".toList ≠ "Key".toList := by decide
  simp only [entityTypeNode, Node.childrenNamed, Node.children]
  rw [List.filter_append, named_map_none property_name apart, List.append_nil]
  split
  · exact named_single rfl
  · rfl

theorem properties_entityType (entity : EdmEntity) :
    (entityTypeNode entity).childrenNamed "Property".toList = (entity.properties.filter (·.serializable)).map propertyNode := by
  have key : (keyNode entity).name ≠ "Property".toList := (by decide : "Key".toList ≠ "Property".toList)
  simp only [entityTypeNode, Node.childrenNamed, Node.children]
  rw [List.filter_append, named_map property_name]
  split
  · rw [named_single_none key, List.nil_append]
  · rfl

theorem refs_key (entity : EdmEntity) :
    (keyNode entity).childrenNamed "PropertyRef".toList = (entity.properties.filter (·.isKey)).map propertyRefNode :=
  named_map ref_name _

private theorem keysDeclared_iff {entity : EdmEntity} (keyed : entity.hasKey = true ↔ ∃ prop ∈ entity.properties, prop.isKey = true) :
    KeysDeclared (entityTypeNode entity) ↔ KeysSerializable entity := by
  have names : ∀ prop : EdmProperty, nameOf (propertyNode prop) = some prop.name ∧ nameOf (propertyRefNode prop) = some prop.name :=
    fun prop => ⟨rfl, rfl⟩
  unfold KeysDeclared
  rw [keys_entityType, properties_entityType]
  constructor
  · intro declared prop member key
    have present := keyed.mpr ⟨prop, member, key⟩
    rw [if_pos present] at declared
    obtain ⟨node, listed, name, first, last⟩ := declared _ (List.mem_singleton_self _) (propertyRefNode prop) (by
      rw [refs_key]
      exact List.mem_map_of_mem (List.mem_filter.mpr ⟨member, key⟩))
    obtain ⟨other, inside, rfl⟩ := List.mem_map.mp listed
    obtain ⟨inside, serializable⟩ := List.mem_filter.mp inside
    refine ⟨other, inside, serializable, ?_⟩
    rw [(names prop).2] at first
    rw [(names other).1] at last
    exact Option.some.inj (last.trans first.symm)
  · intro serializable key listed ref inside
    split at listed
    next =>
      rw [List.mem_singleton.mp listed, refs_key] at inside
      obtain ⟨prop, member, rfl⟩ := List.mem_map.mp inside
      obtain ⟨member, isKey⟩ := List.mem_filter.mp member
      obtain ⟨other, found, declared, same⟩ := serializable prop member isKey
      exact ⟨_, List.mem_map_of_mem (List.mem_filter.mpr ⟨found, declared⟩), prop.name, (names prop).2, same ▸ (names other).1⟩
    next => exact absurd listed List.not_mem_nil

private theorem keyPresent {entity : EdmEntity} (keyed : entity.hasKey = true ↔ ∃ prop ∈ entity.properties, prop.isKey = true) :
    KeyPresent entity (entityTypeNode entity) := by
  constructor
  · rw [keys_entityType]
    split
    next present => exact ⟨fun _ => present, fun _ => List.cons_ne_nil _ _⟩
    next absent => exact ⟨fun some => absurd rfl some, fun present => absurd present absent⟩
  · intro key listed
    rw [keys_entityType] at listed
    split at listed
    next present =>
      obtain ⟨prop, member, isKey⟩ := keyed.mp present
      rw [List.mem_singleton.mp listed, refs_key]
      exact List.ne_nil_of_mem (List.mem_map_of_mem (List.mem_filter.mpr ⟨member, isKey⟩))
    next => exact absurd listed List.not_mem_nil

theorem metadataEntities_keyed {state : ServerState} {catalog : Catalog} {entity : EdmEntity}
    (member : entity ∈ metadataEntities state catalog) :
    entity.hasKey = true ↔ ∃ prop ∈ entity.properties, prop.isKey = true := by
  obtain ⟨binding, -, declared⟩ := List.mem_filterMap.mp member
  unfold metadataEntity at declared
  split at declared
  next built resolved => cases declared; exact applyColumnPolicy_hasKey resolved
  next => cases declared

/-- The document is consistent exactly if every visible key column is declared
as a property. -/
theorem consistent_iff (state : ServerState) (catalog : Catalog) :
    ∃ root, Xml.read (generateEdmx (metadataEntities state catalog)) = some root ∧
      (Consistent (metadataEntities state catalog) root ↔ ∀ entity ∈ metadataEntities state catalog, KeysSerializable entity) := by
  refine ⟨_, read_generateEdmx _, ?_⟩
  constructor
  · intro consistent entity member
    refine (keysDeclared_iff (metadataEntities_keyed member)).mp (consistent.declared _ ?_)
    rw [entityTypes_edmx]
    exact List.mem_map_of_mem member
  · intro serializable
    constructor
    · intro type member
      rw [entityTypes_edmx] at member
      obtain ⟨entity, inside, rfl⟩ := List.mem_map.mp member
      exact (keysDeclared_iff (metadataEntities_keyed inside)).mpr (serializable entity inside)
    · rw [entityTypes_edmx, List.forall₂_map_right_iff, List.forall₂_same]
      exact fun entity inside => keyPresent (metadataEntities_keyed inside)
    · intro set member
      rw [entitySets_edmx] at member
      obtain ⟨entity, inside, rfl⟩ := List.mem_map.mp member
      rw [entityTypes_edmx]
      exact ⟨_, List.mem_map_of_mem inside, entity.name, rfl, rfl⟩

private def listFirst : Catalog where
  columns _ := .ok [{ columnName := "tags".toList, dataType := "INTEGER[]".toList },
    { columnName := "id".toList, dataType := "INTEGER".toList }]
  primaryKeys _ := .ok []

private def tagged : EdmEntity where
  name := "people".toList
  table := "people".toList
  properties := [
    { name := "tags".toList, edmType := .unsupported, isKey := true, duckdbType := "INTEGER[]".toList, serializable := false },
    { name := "id".toList, edmType := .int32, duckdbType := "INTEGER".toList }]
  hasKey := true

/-- A table without a primary key whose first column is a list: the key names a
property that is not declared. -/
theorem consistent_list :
    let state : ServerState := { bindings := [{ name := "people".toList, table := "people".toList }] }
    metadataEntities state listFirst = [tagged] ∧
      ∃ root, Xml.read (generateEdmx [tagged]) = some root ∧ ¬ Consistent [tagged] root := by
  refine ⟨rfl, _, read_generateEdmx _, fun consistent => ?_⟩
  have declared := consistent.declared (entityTypeNode tagged) (by rw [entityTypes_edmx]; exact List.mem_singleton_self _)
  have serializable := (keysDeclared_iff (by decide)).mp declared
  obtain ⟨other, member, supported, same⟩ := serializable _ List.mem_cons_self rfl
  rcases List.mem_cons.mp member with rfl | member
  · cases supported
  · rw [List.mem_singleton.mp member] at same
    exact absurd same (by decide)

end DuckdbOdata.KeyReferences
