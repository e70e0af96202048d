import DuckdbOdata.Common.StringUtil

/-! The entity data model of an exposed table and its EDMX document
(`metadata/edm_model.cpp`). -/

namespace DuckdbOdata
open Text

inductive EdmType
  | boolean | sbyte | int16 | int32 | int64 | single | double | decimal | string | date | timeOfDay
  | dateTimeOffset | guid | binary | unsupported
deriving DecidableEq, Repr

structure EdmProperty where
  name : Str
  edmType : EdmType := .string
  nullable : Bool := true
  isKey : Bool := false
  duckdbType : Str := []
  serializable : Bool := true
deriving DecidableEq

structure EdmEntity where
  name : Str := []
  catalog : Str := []
  schema : Str := []
  table : Str := []
  properties : List EdmProperty := []
  hasKey : Bool := false
deriving DecidableEq

/-- Case-insensitive names, as every lookup compares them. -/
def sameName (first last : Str) : Prop := toLower first = toLower last

instance (first last : Str) : Decidable (sameName first last) := inferInstanceAs (Decidable (_ = _))

/-- `DECIMAL(18,3)` and `Decimal` are both `decimal`. -/
def baseTypeOf (duckdbType : Str) : Str := trim ((toLower duckdbType).takeWhile (· ≠ '('))

def oneOf (name : Str) (names : List String) : Bool := names.any (·.toList = name)

/-- The EDM type and whether values of it are serialized. -/
def duckDBTypeToEdm (duckdbType : Str) : EdmType × Bool :=
  let t := baseTypeOf duckdbType
  if oneOf t ["boolean", "bool"] then (.boolean, true)
  else if oneOf t ["tinyint", "int1"] then (.sbyte, true)
  else if oneOf t ["smallint", "int2"] then (.int16, true)
  else if oneOf t ["integer", "int4", "int", "signed"] then (.int32, true)
  else if oneOf t ["bigint", "int8", "long"] then (.int64, true)
  else if oneOf t ["hugeint"] then (.decimal, true)
  else if oneOf t ["utinyint", "usmallint", "uinteger", "ubigint", "uhugeint"] then (.decimal, true)
  else if oneOf t ["float", "real"] then (.single, true)
  else if oneOf t ["double"] then (.double, true)
  else if oneOf t ["decimal", "numeric", "money"] then (.decimal, true)
  else if oneOf t ["varchar", "char", "bpchar", "text", "string"] then (.string, true)
  else if oneOf t ["date"] then (.date, true)
  else if oneOf t ["time", "timetz"] then (.timeOfDay, true)
  else if oneOf t ["timestamp", "timestamp with time zone", "timestamptz", "datetime", "datetime2"] then (.dateTimeOffset, true)
  else if oneOf t ["uuid"] then (.guid, true)
  else if oneOf t ["blob", "bytea", "binary", "varbinary", "bit", "bitstring"] then (.binary, true)
  else (.unsupported, false)

def edmTypeName : EdmType → Str
  | .boolean => "Edm.Boolean".toList
  | .sbyte => "Edm.SByte".toList
  | .int16 => "Edm.Int16".toList
  | .int32 => "Edm.Int32".toList
  | .int64 => "Edm.Int64".toList
  | .single => "Edm.Single".toList
  | .double => "Edm.Double".toList
  | .decimal => "Edm.Decimal".toList
  | .string => "Edm.String".toList
  | .date => "Edm.Date".toList
  | .timeOfDay => "Edm.TimeOfDay".toList
  | .dateTimeOffset => "Edm.DateTimeOffset".toList
  | .guid => "Edm.Guid".toList
  | .binary => "Edm.Binary".toList
  | .unsupported => "Edm.String".toList

def xmlEscapeChar (c : Char) : Str :=
  if c = '&' then "&amp;".toList
  else if c = '<' then "&lt;".toList
  else if c = '>' then "&gt;".toList
  else if c = '"' then "&quot;".toList
  else if c = '\'' then "&apos;".toList
  else [c]

def xmlEscape (s : Str) : Str := s.flatMap xmlEscapeChar

/-- One declared property; types without an EDM counterpart are left out. -/
def propertyElement (prop : EdmProperty) : Str :=
  if prop.serializable then
    "        <Property Name=\"".toList ++ xmlEscape prop.name ++ "\" Type=\"".toList ++ edmTypeName prop.edmType ++
      "\"".toList ++ (if prop.nullable then [] else " Nullable=\"false\"".toList) ++ "/>\n".toList
  else []

def keyElement (entity : EdmEntity) : Str :=
  if entity.hasKey then
    "        <Key>\n".toList ++
      (entity.properties.filter (·.isKey)).flatMap (fun prop =>
        "          <PropertyRef Name=\"".toList ++ xmlEscape prop.name ++ "\"/>\n".toList) ++
      "        </Key>\n".toList
  else []

def entityTypeElement (entity : EdmEntity) : Str :=
  "      <EntityType Name=\"".toList ++ xmlEscape entity.name ++ "\">\n".toList ++ keyElement entity ++
    entity.properties.flatMap propertyElement ++ "      </EntityType>\n".toList

def entitySetElement (entity : EdmEntity) : Str :=
  "        <EntitySet Name=\"".toList ++ xmlEscape entity.name ++ "\" EntityType=\"DuckDB.".toList ++
    xmlEscape entity.name ++ "\"/>\n".toList

def generateEdmx (entities : List EdmEntity) : Str :=
  "<?xml version=\"1.0\" encoding=\"utf-8\"?>\n".toList ++
    "<edmx:Edmx Version=\"4.0\" xmlns:edmx=\"http://docs.oasis-open.org/odata/ns/edmx\">\n".toList ++
    "  <edmx:DataServices>\n".toList ++
    "    <Schema Namespace=\"DuckDB\" xmlns=\"http://docs.oasis-open.org/odata/ns/edm\">\n".toList ++
    entities.flatMap entityTypeElement ++
    "      <EntityContainer Name=\"DuckDBContext\">\n".toList ++
    entities.flatMap entitySetElement ++
    "      </EntityContainer>\n    </Schema>\n  </edmx:DataServices>\n</edmx:Edmx>\n".toList

end DuckdbOdata
