import DuckdbOdata.Foundation.XmlReader
import DuckdbOdata.Metadata.EdmModel

/-! The tree that a client reads in the metadata document. -/

namespace DuckdbOdata.MetadataDocument
open Text Xml

def propertyNode (prop : EdmProperty) : Node :=
  .element "Property".toList
    ([("Name".toList, prop.name), ("Type".toList, edmTypeName prop.edmType)] ++
      if prop.nullable then [] else [("Nullable".toList, "false".toList)]) []

def propertyRefNode (prop : EdmProperty) : Node := .element "PropertyRef".toList [("Name".toList, prop.name)] []

def keyNode (entity : EdmEntity) : Node :=
  .element "Key".toList [] ((entity.properties.filter (·.isKey)).map propertyRefNode)

def entityTypeNode (entity : EdmEntity) : Node :=
  .element "EntityType".toList [("Name".toList, entity.name)]
    ((if entity.hasKey then [keyNode entity] else []) ++ (entity.properties.filter (·.serializable)).map propertyNode)

def entitySetNode (entity : EdmEntity) : Node :=
  .element "EntitySet".toList [("Name".toList, entity.name), ("EntityType".toList, "DuckDB.".toList ++ entity.name)] []

def containerNode (entities : List EdmEntity) : Node :=
  .element "EntityContainer".toList [("Name".toList, "DuckDBContext".toList)] (entities.map entitySetNode)

def edmxNode (entities : List EdmEntity) : Node :=
  .element "edmx:Edmx".toList
    [("Version".toList, "4.0".toList), ("xmlns:edmx".toList, "http://docs.oasis-open.org/odata/ns/edmx".toList)]
    [.element "edmx:DataServices".toList []
      [.element "Schema".toList
        [("Namespace".toList, "DuckDB".toList), ("xmlns".toList, "http://docs.oasis-open.org/odata/ns/edm".toList)]
        (entities.map entityTypeNode ++ [containerNode entities])]]

private theorem decode_plain {c : Char} (plain : c ≠ '&') (rest : Str) : decode (c :: rest) = (decode rest).map (c :: ·) := by
  rw [decode.eq_def]
  split
  all_goals simp_all

private theorem decode_escaped (c : Char) (rest : Str) :
    decode (xmlEscapeChar c ++ rest) = (decode rest).map (c :: ·) := by
  unfold xmlEscapeChar
  split
  next same => rw [same]; rfl
  next plain =>
    split
    next same => rw [same]; rfl
    split
    next same => rw [same]; rfl
    split
    next same => rw [same]; rfl
    split
    next same => rw [same]; rfl
    next => exact decode_plain plain rest

private theorem xmlEscapeChar_plain (c : Char) : ∀ d ∈ xmlEscapeChar c, d ≠ '"' ∧ d ≠ '<' := by
  unfold xmlEscapeChar
  split
  next => exact every (by decide)
  split
  next => exact every (by decide)
  next angle =>
    split
    next => exact every (by decide)
    split
    next => exact every (by decide)
    next quote =>
      split
      next => exact every (by decide)
      next =>
        intro d member
        rw [List.mem_singleton.mp member]
        exact ⟨quote, angle⟩

theorem encodes_xmlEscape (name : Str) : Encodes (xmlEscape name) name := by
  constructor
  · induction name with
    | nil => rfl
    | cons c name ih =>
      have split : xmlEscape (c :: name) = xmlEscapeChar c ++ xmlEscape name := rfl
      rw [split, decode_escaped, ih]
      rfl
  · intro d member
    obtain ⟨c, -, inside⟩ := List.mem_flatMap.mp member
    exact xmlEscapeChar_plain c d inside

private theorem encodes_typeName (type : EdmType) : Encodes (edmTypeName type) (edmTypeName type) := by
  have same : xmlEscape (edmTypeName type) = edmTypeName type := by cases type <;> rfl
  simpa only [same] using encodes_xmlEscape (edmTypeName type)

private theorem encodes_qualified (name : Str) : Encodes ("DuckDB.".toList ++ xmlEscape name) ("DuckDB.".toList ++ name) := by
  have same : xmlEscape ("DuckDB.".toList ++ name) = "DuckDB.".toList ++ xmlEscape name := List.flatMap_append
  exact same ▸ encodes_xmlEscape ("DuckDB.".toList ++ name)

private theorem scan_property (prop : EdmProperty) (declared : prop.serializable = true) :
    scan .content (propertyElement prop) = some (.content, [.empty "Property".toList (propertyNode prop).attributes]) := by
  have front : scan .content "        <Property Name=\"".toList = some (.value "Property".toList [] "Name".toList [], []) := by
    repeat rw [String.toList_ofList]
    rfl
  have named := scan_append front (scan_value (encodes_xmlEscape prop.name))
  have next : scan (.closed "Property".toList [("Name".toList, prop.name)]) " Type=\"".toList =
      some (.value "Property".toList [("Name".toList, prop.name)] "Type".toList [], []) := by
    repeat rw [String.toList_ofList]
    rfl
  have typed := scan_append (scan_append named next) (scan_value (encodes_typeName prop.edmType))
  have ending : scan (.closed "Property".toList [("Name".toList, prop.name), ("Type".toList, edmTypeName prop.edmType)])
      ((if prop.nullable then [] else " Nullable=\"false\"".toList) ++ "/>\n".toList) =
      some (.content, [.empty "Property".toList (propertyNode prop).attributes]) := by
    unfold propertyNode
    cases prop.nullable <;> rfl
  have whole := scan_append typed ending
  have quotes : "\" Type=\"".toList = ['"'] ++ " Type=\"".toList ∧ "\"".toList = ['"'] := ⟨rfl, rfl⟩
  unfold propertyElement
  rw [if_pos declared, quotes.1, quotes.2]
  simpa only [List.append_assoc, List.nil_append] using whole

theorem represents_property (prop : EdmProperty) :
    Represents (propertyElement prop) (if prop.serializable then [propertyNode prop] else []) := by
  split
  next declared => exact .empty (scan_property prop declared)
  next undeclared =>
    unfold propertyElement
    rw [if_neg undeclared]
    exact .nil

private theorem represents_ref (prop : EdmProperty) :
    Represents ("          <PropertyRef Name=\"".toList ++ xmlEscape prop.name ++ "\"/>\n".toList) [propertyRefNode prop] := by
  have front : scan .content "          <PropertyRef Name=\"".toList =
      some (.value "PropertyRef".toList [] "Name".toList [], []) := by
    repeat rw [String.toList_ofList]
    rfl
  have ending : scan (.closed "PropertyRef".toList [("Name".toList, prop.name)]) "/>\n".toList =
      some (.content, [.empty "PropertyRef".toList [("Name".toList, prop.name)]]) := by
    repeat rw [String.toList_ofList]
    rfl
  have whole := scan_append (scan_append front (scan_value (encodes_xmlEscape prop.name))) ending
  have quotes : "\"/>\n".toList = ['"'] ++ "/>\n".toList := by
    repeat rw [String.toList_ofList]
    rfl
  rw [quotes]
  exact .empty (by simpa only [List.append_assoc, List.nil_append] using whole)

private theorem represents_key (entity : EdmEntity) :
    Represents (keyElement entity) (if entity.hasKey then [keyNode entity] else []) := by
  unfold keyElement
  split
  · have refs := Represents.flatMap (entity.properties.filter (·.isKey)) fun prop _ => represents_ref prop
    rw [← List.map_eq_flatMap] at refs
    exact .element rfl refs rfl
  · exact .nil

private theorem represents_entityType (entity : EdmEntity) : Represents (entityTypeElement entity) [entityTypeNode entity] := by
  have front : scan .content "      <EntityType Name=\"".toList = some (.value "EntityType".toList [] "Name".toList [], []) := by
    repeat rw [String.toList_ofList]
    rfl
  have opening : scan (.closed "EntityType".toList [("Name".toList, entity.name)]) ">\n".toList =
      some (.content, [.opening "EntityType".toList [("Name".toList, entity.name)]]) := by
    repeat rw [String.toList_ofList]
    rfl
  have start := scan_append (scan_append front (scan_value (encodes_xmlEscape entity.name))) opening
  have properties := Represents.flatMap entity.properties fun prop _ => represents_property prop
  have declared : (entity.properties.flatMap fun prop => if prop.serializable then [propertyNode prop] else []) =
      (entity.properties.filter (·.serializable)).map propertyNode := by
    induction entity.properties with
    | nil => rfl
    | cons prop others ih =>
      rw [List.flatMap_cons, ih, List.filter_cons]
      split <;> rfl
  rw [declared] at properties
  have closing : scan .content "      </EntityType>\n".toList = some (.content, [.closing "EntityType".toList]) := by
    repeat rw [String.toList_ofList]
    rfl
  have whole := Represents.element start ((represents_key entity).append properties) closing
  have quotes : "\">\n".toList = ['"'] ++ ">\n".toList := by
    repeat rw [String.toList_ofList]
    rfl
  unfold entityTypeElement entityTypeNode
  rw [quotes]
  simpa only [List.append_assoc] using whole

private theorem represents_entitySet (entity : EdmEntity) : Represents (entitySetElement entity) [entitySetNode entity] := by
  have front : scan .content "        <EntitySet Name=\"".toList = some (.value "EntitySet".toList [] "Name".toList [], []) := by
    repeat rw [String.toList_ofList]
    rfl
  have next : scan (.closed "EntitySet".toList [("Name".toList, entity.name)]) " EntityType=\"".toList =
      some (.value "EntitySet".toList [("Name".toList, entity.name)] "EntityType".toList [], []) := by
    repeat rw [String.toList_ofList]
    rfl
  have named := scan_append (scan_append front (scan_value (encodes_xmlEscape entity.name))) next
  have ending : scan (.closed "EntitySet".toList [("Name".toList, entity.name), ("EntityType".toList, "DuckDB.".toList ++ entity.name)])
      "/>\n".toList = some (.content, [.empty "EntitySet".toList
        [("Name".toList, entity.name), ("EntityType".toList, "DuckDB.".toList ++ entity.name)]]) := by
    repeat rw [String.toList_ofList]
    rfl
  have whole := scan_append (scan_append named (scan_value (encodes_qualified entity.name))) ending
  have quotes : "\" EntityType=\"DuckDB.".toList = ['"'] ++ " EntityType=\"".toList ++ "DuckDB.".toList ∧
    "\"/>\n".toList = ['"'] ++ "/>\n".toList := ⟨rfl, rfl⟩
  unfold entitySetElement
  rw [quotes.1, quotes.2]
  exact .empty (by simpa only [List.append_assoc, List.nil_append] using whole)

private theorem represents_container (entities : List EdmEntity) :
    Represents ("      <EntityContainer Name=\"DuckDBContext\">\n".toList ++ entities.flatMap entitySetElement ++
      "      </EntityContainer>\n".toList) [containerNode entities] := by
  have sets := Represents.flatMap entities fun entity _ => represents_entitySet entity
  rw [← List.map_eq_flatMap] at sets
  have front : scan .content "      <EntityContainer Name=\"DuckDBContext\">\n".toList =
      some (.content, [.opening "EntityContainer".toList [("Name".toList, "DuckDBContext".toList)]]) := by
    repeat rw [String.toList_ofList]
    rfl
  have back : scan .content "      </EntityContainer>\n".toList = some (.content, [.closing "EntityContainer".toList]) := by
    repeat rw [String.toList_ofList]
    rfl
  exact .element front sets back

set_option maxRecDepth 4000 in
/-- A client reads the tree of the entities. -/
theorem read_generateEdmx (entities : List EdmEntity) : read (generateEdmx entities) = some (edmxNode entities) := by
  have types := Represents.flatMap entities fun entity _ => represents_entityType entity
  rw [← List.map_eq_flatMap] at types
  have declaration : scan .content "<?xml version=\"1.0\" encoding=\"utf-8\"?>\n".toList = some (.content, []) := by
    repeat rw [String.toList_ofList]
    rfl
  have root : scan .content "<edmx:Edmx Version=\"4.0\" xmlns:edmx=\"http://docs.oasis-open.org/odata/ns/edmx\">\n".toList =
      some (.content, [.opening "edmx:Edmx".toList
        [("Version".toList, "4.0".toList), ("xmlns:edmx".toList, "http://docs.oasis-open.org/odata/ns/edmx".toList)]]) := by
    repeat rw [String.toList_ofList]
    rfl
  have services : scan .content "  <edmx:DataServices>\n".toList =
      some (.content, [.opening "edmx:DataServices".toList []]) := by
    repeat rw [String.toList_ofList]
    rfl
  have schema : scan .content "    <Schema Namespace=\"DuckDB\" xmlns=\"http://docs.oasis-open.org/odata/ns/edm\">\n".toList =
      some (.content, [.opening "Schema".toList
        [("Namespace".toList, "DuckDB".toList), ("xmlns".toList, "http://docs.oasis-open.org/odata/ns/edm".toList)]]) := by
    repeat rw [String.toList_ofList]
    rfl
  have schemaEnd : scan .content "    </Schema>\n".toList = some (.content, [.closing "Schema".toList]) := by
    repeat rw [String.toList_ofList]
    rfl
  have servicesEnd : scan .content "  </edmx:DataServices>\n".toList =
      some (.content, [.closing "edmx:DataServices".toList]) := by
    repeat rw [String.toList_ofList]
    rfl
  have rootEnd : scan .content "</edmx:Edmx>\n".toList = some (.content, [.closing "edmx:Edmx".toList]) := by
    repeat rw [String.toList_ofList]
    rfl
  have inner := Represents.element schema (types.append (represents_container entities)) schemaEnd
  have whole := (Represents.element root (Represents.element services inner servicesEnd) rootEnd).after declaration
  have tail : "      </EntityContainer>\n    </Schema>\n  </edmx:DataServices>\n</edmx:Edmx>\n".toList =
      "      </EntityContainer>\n".toList ++ ("    </Schema>\n".toList ++ ("  </edmx:DataServices>\n".toList ++
        "</edmx:Edmx>\n".toList)) := by
    repeat rw [String.toList_ofList]
    rfl
  refine Represents.read ?_
  unfold generateEdmx edmxNode
  rw [tail]
  simpa only [List.append_assoc] using whole

end DuckdbOdata.MetadataDocument
