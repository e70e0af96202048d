import DuckdbOdata.Proofs.KeyReferences

/-! The model that a client reads in the metadata document. It reads elements and
attributes; values are taken as they stand, up to the five predefined references. -/

namespace DuckdbOdata.MetadataReading
open Text Xml MetadataDocument KeyReferences Entities

structure ReadProperty where
  name : Str
  type : EdmType
  nullable : Bool
deriving DecidableEq

structure ReadEntity where
  name : Str
  keys : List Str
  properties : List ReadProperty
deriving DecidableEq

/-- An entity set has its name and the qualified name of its type. -/
structure ReadModel where
  entities : List ReadEntity
  sets : List (Str × Str)
deriving DecidableEq

def namedTypes : List EdmType :=
  [.boolean, .sbyte, .int16, .int32, .int64, .single, .double, .decimal, .string, .date, .timeOfDay, .dateTimeOffset, .guid,
    .binary]

def readType (name : Str) : Option EdmType := namedTypes.find? (edmTypeName · = name)

/-- A property may be null unless it says otherwise. -/
def readNullable : Option Str → Option Bool
  | none => some true
  | some value => if value = "true".toList then some true else if value = "false".toList then some false else none

def readProperty (node : Node) : Option ReadProperty := do
  let name ← nameOf node
  let type ← (node.valueOf "Type".toList).bind readType
  let nullable ← readNullable (node.valueOf "Nullable".toList)
  some ⟨name, type, nullable⟩

def readEntity (node : Node) : Option ReadEntity := do
  let name ← nameOf node
  let keys ← ((node.childrenNamed "Key".toList).flatMap (·.childrenNamed "PropertyRef".toList)).mapM nameOf
  let properties ← (node.childrenNamed "Property".toList).mapM readProperty
  some ⟨name, keys, properties⟩

def readSet (node : Node) : Option (Str × Str) := do
  let name ← nameOf node
  let type ← node.valueOf "EntityType".toList
  some (name, type)

def readModel (text : Str) : Option ReadModel := do
  let root ← read text
  let entities ← (entityTypes root).mapM readEntity
  let sets ← (entitySets root).mapM readSet
  some ⟨entities, sets⟩

/-- The type that is written for a property. -/
def writtenType : EdmType → EdmType
  | .unsupported => .string
  | type => type

/-- An entity with its keys and the types of its properties as `keys` and `type` have them. -/
def described (keys : EdmEntity → List EdmProperty) (type : EdmType → EdmType) (entity : EdmEntity) : ReadEntity :=
  { name := entity.name
    keys := (keys entity).map (·.name)
    properties := (entity.properties.filter (·.serializable)).map fun prop => ⟨prop.name, type prop.edmType, prop.nullable⟩ }

def setOf (entity : EdmEntity) : Str × Str := (entity.name, "DuckDB.".toList ++ entity.name)

/-- The entities as the model has them. -/
def modelOf (entities : List EdmEntity) : ReadModel :=
  ⟨entities.map (described (fun entity => entity.properties.filter (·.isKey)) id), entities.map setOf⟩

def writtenKeys (entity : EdmEntity) : List EdmProperty := if entity.hasKey then entity.properties.filter (·.isKey) else []

/-- The entities as the document has them. -/
def writtenModel (entities : List EdmEntity) : ReadModel := ⟨entities.map (described writtenKeys writtenType), entities.map setOf⟩

def Faithful (entities : List EdmEntity) : Prop := readModel (generateEdmx entities) = some (modelOf entities)

/-- The key columns count, and every property that is written has a type of its own. -/
def Expressible (entity : EdmEntity) : Prop :=
  (∀ prop ∈ entity.properties, prop.isKey = true → entity.hasKey = true) ∧
    ∀ prop ∈ entity.properties, prop.serializable = true → prop.edmType ≠ .unsupported

private theorem mapM_nodes {α β : Type} {node : α → Node} {read : Node → Option β} {value : α → β}
    (each : ∀ item, read (node item) = some (value item)) (items : List α) :
    (items.map node).mapM read = some (items.map value) := by
  induction items with
  | nil => rfl
  | cons item others ih =>
    rw [List.map_cons, List.mapM_cons, each, ih]
    rfl

private theorem readType_written (type : EdmType) : readType (edmTypeName type) = some (writtenType type) := by
  cases type <;> rfl

private theorem readProperty_node (prop : EdmProperty) :
    readProperty (propertyNode prop) = some ⟨prop.name, writtenType prop.edmType, prop.nullable⟩ := by
  have name : nameOf (propertyNode prop) = some prop.name := rfl
  have type : ((propertyNode prop).valueOf "Type".toList).bind readType = some (writtenType prop.edmType) :=
    readType_written prop.edmType
  have nullable : readNullable ((propertyNode prop).valueOf "Nullable".toList) = some prop.nullable := by
    unfold propertyNode
    cases prop.nullable <;> rfl
  rw [readProperty, name, type, nullable]
  rfl

private theorem readEntity_node (entity : EdmEntity) :
    readEntity (entityTypeNode entity) = some (described writtenKeys writtenType entity) := by
  have name : nameOf (entityTypeNode entity) = some entity.name := rfl
  have refs : ((entityTypeNode entity).childrenNamed "Key".toList).flatMap (·.childrenNamed "PropertyRef".toList) =
      (writtenKeys entity).map propertyRefNode := by
    rw [keys_entityType, writtenKeys]
    split
    · rw [List.flatMap_singleton, refs_key]
    · rfl
  have keys : ((writtenKeys entity).map propertyRefNode).mapM nameOf = some ((writtenKeys entity).map (·.name)) := by
    have ref : ∀ prop, nameOf (propertyRefNode prop) = some prop.name := fun _ => rfl
    exact mapM_nodes ref _
  have properties : ((entity.properties.filter (·.serializable)).map propertyNode).mapM readProperty =
      some ((entity.properties.filter (·.serializable)).map fun prop => ⟨prop.name, writtenType prop.edmType, prop.nullable⟩) := by
    exact mapM_nodes readProperty_node _
  rw [readEntity, name, refs, keys, properties_entityType, properties]
  rfl

theorem readModel_written (entities : List EdmEntity) : readModel (generateEdmx entities) = some (writtenModel entities) := by
  have types : (entities.map entityTypeNode).mapM readEntity = some (entities.map (described writtenKeys writtenType)) := by
    exact mapM_nodes readEntity_node entities
  have sets : (entities.map entitySetNode).mapM readSet = some (entities.map setOf) := by
    have set : ∀ entity, readSet (entitySetNode entity) = some (setOf entity) := fun _ => rfl
    exact mapM_nodes set entities
  rw [readModel, read_generateEdmx]
  show ((entityTypes (edmxNode entities)).mapM readEntity).bind _ = _
  rw [entityTypes_edmx, types]
  show ((entitySets (edmxNode entities)).mapM readSet).bind _ = _
  rw [entitySets_edmx, sets]
  rfl

private theorem keys_iff (entity : EdmEntity) :
    (writtenKeys entity).map (·.name) = (entity.properties.filter (·.isKey)).map (·.name) ↔
      ∀ prop ∈ entity.properties, prop.isKey = true → entity.hasKey = true := by
  unfold writtenKeys
  split
  next keyed => exact iff_of_true rfl fun _ _ _ => keyed
  next unkeyed =>
    constructor
    · intro none prop member key
      have empty := List.map_eq_nil_iff.mp none.symm
      exact absurd (List.mem_filter.mpr ⟨member, key⟩) (empty ▸ List.not_mem_nil)
    · intro all
      have empty : entity.properties.filter (·.isKey) = [] :=
        List.filter_eq_nil_iff.mpr fun prop member key => unkeyed (all prop member key)
      rw [empty]

private theorem types_iff (entity : EdmEntity) :
    (entity.properties.filter (·.serializable)).map (fun prop => (⟨prop.name, writtenType prop.edmType, prop.nullable⟩ : ReadProperty)) =
      (entity.properties.filter (·.serializable)).map (fun prop => ⟨prop.name, id prop.edmType, prop.nullable⟩) ↔
      ∀ prop ∈ entity.properties, prop.serializable = true → prop.edmType ≠ .unsupported := by
  have own : ∀ type : EdmType, writtenType type = type ↔ type ≠ .unsupported := by
    intro type
    cases type <;> simp [writtenType]
  rw [List.map_inj_left]
  simp only [List.mem_filter, ReadProperty.mk.injEq, true_and, and_true, id_eq, own, and_imp]

/-- The document says what the model does exactly if the model is expressible. -/
theorem faithful_iff (entities : List EdmEntity) : Faithful entities ↔ ∀ entity ∈ entities, Expressible entity := by
  have same : Faithful entities ↔ ∀ entity ∈ entities, described writtenKeys writtenType entity =
      described (fun entity => entity.properties.filter (·.isKey)) id entity := by
    unfold Faithful
    rw [readModel_written, Option.some.injEq, writtenModel, modelOf, ReadModel.mk.injEq, List.map_inj_left]
    exact and_iff_left rfl
  rw [same]
  refine forall_congr' fun entity => forall_congr' fun _ => ?_
  simp only [described, ReadEntity.mk.injEq, true_and]
  exact and_congr (keys_iff entity) (types_iff entity)

private theorem served_ite {choice : Prop} [Decidable choice] {type : EdmType} {rest : EdmType × Bool} (known : type ≠ .unsupported)
    (later : rest.2 = true → rest.1 ≠ .unsupported) :
    (if choice then (type, true) else rest).2 = true → (if choice then (type, true) else rest).1 ≠ .unsupported := by
  split
  · exact fun _ => known
  · exact later

theorem duckDBTypeToEdm_served (text : Str) : (duckDBTypeToEdm text).2 = true → (duckDBTypeToEdm text).1 ≠ .unsupported := by
  unfold duckDBTypeToEdm
  iterate 16 apply served_ite (by decide)
  exact nofun

theorem metadataEntities_expressible {state : ServerState} {catalog : Catalog} {entity : EdmEntity}
    (member : entity ∈ metadataEntities state catalog) : Expressible entity := by
  refine ⟨fun prop inside key => (metadataEntities_keyed member).mpr ⟨prop, inside, key⟩, ?_⟩
  intro prop inside serializable
  obtain ⟨binding, -, declared⟩ := List.mem_filterMap.mp member
  unfold metadataEntity at declared
  split at declared
  next built resolved =>
    cases declared
    obtain ⟨columns, keys, -, same⟩ := buildEntity_columns resolved
    have listed := (applyColumnPolicy_property.mp inside).1
    rw [same, List.map_map] at listed
    obtain ⟨column, -, rfl⟩ := List.mem_map.mp listed
    obtain ⟨type, kept⟩ := markKey_typed keys (propertyOf column)
    rw [Function.comp_apply, kept] at serializable
    rw [Function.comp_apply, type]
    exact duckDBTypeToEdm_served column.dataType serializable
  next => cases declared

/-- What the server publishes is what it has. -/
theorem metadataEntities_faithful (state : ServerState) (catalog : Catalog) : Faithful (metadataEntities state catalog) :=
  (faithful_iff _).mpr fun _ member => metadataEntities_expressible member

def unnamed (prop : EdmProperty) : EdmProperty := { prop with name := [] }

/-- An entity without its names. -/
def anonymous (entity : EdmEntity) : EdmEntity := { entity with name := [], properties := entity.properties.map unnamed }

private theorem shape_property (prop : EdmProperty) : (propertyNode prop).shape = (propertyNode (unnamed prop)).shape := by
  unfold propertyNode unnamed
  cases prop.nullable <;> rfl

private theorem shape_entityType (entity : EdmEntity) : (entityTypeNode entity).shape = (entityTypeNode (anonymous entity)).shape := by
  have keys : (entity.properties.map unnamed).filter (·.isKey) = (entity.properties.filter (·.isKey)).map unnamed := List.filter_map
  have declared : (entity.properties.map unnamed).filter (·.serializable) = (entity.properties.filter (·.serializable)).map unnamed :=
    List.filter_map
  have key : (keyNode entity).shape = (keyNode (anonymous entity)).shape := by
    simp only [keyNode, anonymous, keys, Node.shape, Node.shapes_map, List.map_map]
    rfl
  have properties : ((entity.properties.filter (·.serializable)).map propertyNode).map Node.shape =
      (((entity.properties.map unnamed).filter (·.serializable)).map propertyNode).map Node.shape := by
    rw [declared, List.map_map, List.map_map, List.map_map]
    exact List.map_congr_left fun prop _ => shape_property prop
  have same : (anonymous entity).hasKey = entity.hasKey ∧ (anonymous entity).properties = entity.properties.map unnamed := ⟨rfl, rfl⟩
  unfold entityTypeNode
  rw [same.1, same.2, Node.shape, Node.shape, Node.shapes_map, Node.shapes_map, List.map_append, List.map_append, properties]
  split
  · rw [List.map_singleton, List.map_singleton, key]
    rfl
  · rfl

theorem shape_anonymous (entities : List EdmEntity) :
    (edmxNode entities).shape = (edmxNode (entities.map anonymous)).shape := by
  have sets : ∀ entity, (entitySetNode entity).shape = (entitySetNode (anonymous entity)).shape := fun _ => rfl
  have typeShapes := List.map_congr_left fun entity (_ : entity ∈ entities) => shape_entityType entity
  have setShapes := List.map_congr_left fun entity (_ : entity ∈ entities) => sets entity
  simp only [edmxNode, containerNode, Node.shape, Node.shapes, Node.shapes_map, List.map_append, List.map_map, List.map_cons,
    List.map_nil, Function.comp_def] at typeShapes setShapes ⊢
  rw [typeShapes, setShapes]

/-- A client reads the names, keys, types and nullability of the entities from the
document, and the model's own ones exactly if its key columns count and it has no
untyped property to write. Names are decoded from values that they cannot leave: the
elements and attributes are those of the model without names. -/
theorem edmx_reading (entities : List EdmEntity) :
    readModel (generateEdmx entities) = some (writtenModel entities) ∧
      (Faithful entities ↔ ∀ entity ∈ entities, Expressible entity) ∧
      (read (generateEdmx entities)).map Node.shape = (read (generateEdmx (entities.map anonymous))).map Node.shape ∧
      ∀ name, Encodes (xmlEscape name) name := by
  refine ⟨readModel_written entities, faithful_iff entities, ?_, encodes_xmlEscape⟩
  rw [read_generateEdmx, read_generateEdmx, Option.map_some, Option.map_some, shape_anonymous]

/-- A key column of an entity without a key, and a property of no EDM type. -/
theorem edmx_reading_lost :
    ¬ Faithful [{ name := ['t'], properties := [{ name := "id".toList, isKey := true }] }] ∧
      ¬ Faithful [{ name := ['t'], properties := [{ name := "id".toList, edmType := .unsupported }] }] := by
  constructor
  · intro faithful
    exact absurd ((readModel_written _).symm.trans faithful) (by decide)
  · intro faithful
    exact absurd ((readModel_written _).symm.trans faithful) (by decide)

end DuckdbOdata.MetadataReading
