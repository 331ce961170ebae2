import ExaUdf.Lib.Deserialize
import ExaUdf.Value

/-!
# Typed views of a specification payload

What a spec-generation hook may parse its JSON argument into.  Each structure mirrors its protobuf
message field for field under the same names, a column type stays the name of its protobuf variant,
and unknown members are passed over.

The JSON library is a parameter: how a text is read into a value, and how a failure reads.
-/

namespace ExaUdf

/-- What `from_str` takes from the JSON library; its printer is in the container's `Env`. -/
structure SerdeJson where
  read : String → Option Json
  /-- The text of the error for a type and an input. -/
  error : String → String → String

namespace Sdk

open Json (string? bool? u32? listOf? fields? required optional)

/-- Credentials of a CONNECTION. -/
structure ConnectionObject where
  kind : String
  address : String
  user : String
  password : String
  deriving DecidableEq, Repr

/-- An entry of the `WITH` clause; a key may be repeated. -/
structure Parameter where
  key : String
  value : String
  deriving DecidableEq, Repr

/-- A column of the `IMPORT INTO (...)` list. -/
structure ColumnDefinition where
  name : String
  type : Option String
  typeName : String
  size : Option UInt32
  precision : Option UInt32
  scale : Option UInt32
  deriving DecidableEq, Repr

/-- The `IMPORT ... FROM SCRIPT` specification. -/
structure ImportSpec where
  isSubselect : Bool
  connectionInformation : Option ConnectionObject
  connectionName : Option String
  subselectColumnSpecification : List ColumnDefinition
  parameters : List Parameter
  deriving DecidableEq, Repr

/-- The `EXPORT ... INTO SCRIPT` specification. -/
structure ExportSpec where
  hasTruncate : Bool
  hasReplace : Bool
  createdBy : Option String
  sourceColumnNames : List String
  connectionInformation : Option ConnectionObject
  connectionName : Option String
  parameters : List Parameter
  deriving DecidableEq, Repr

/-! ### The derived readers -/

def ConnectionObject.deserialize (v : Json) : Option ConnectionObject := do
  let fields ← fields? ["kind", "address", "user", "password"] v
  let kind ← required "kind" string? fields
  let address ← required "address" string? fields
  let user ← required "user" string? fields
  let password ← required "password" string? fields
  return ⟨kind, address, user, password⟩

def Parameter.deserialize (v : Json) : Option Parameter := do
  let fields ← fields? ["key", "value"] v
  let key ← required "key" string? fields
  let value ← required "value" string? fields
  return ⟨key, value⟩

def ColumnDefinition.deserialize (v : Json) : Option ColumnDefinition := do
  let fields ← fields? ["name", "type", "type_name", "size", "precision", "scale"] v
  let name ← required "name" string? fields
  let type ← optional "type" string? fields
  let typeName ← required "type_name" string? fields
  let size ← optional "size" u32? fields
  let precision ← optional "precision" u32? fields
  let scale ← optional "scale" u32? fields
  return ⟨name, type, typeName, size, precision, scale⟩

def ImportSpec.deserialize (v : Json) : Option ImportSpec := do
  let fields ← fields? ["is_subselect", "connection_information", "connection_name",
    "subselect_column_specification", "parameters"] v
  let isSubselect ← required "is_subselect" bool? fields
  let connectionInformation ←
    optional "connection_information" ConnectionObject.deserialize fields
  let connectionName ← optional "connection_name" string? fields
  let subselectColumnSpecification ←
    required "subselect_column_specification" (listOf? ColumnDefinition.deserialize) fields
  let parameters ← required "parameters" (listOf? Parameter.deserialize) fields
  return ⟨isSubselect, connectionInformation, connectionName, subselectColumnSpecification,
    parameters⟩

def ExportSpec.deserialize (v : Json) : Option ExportSpec := do
  let fields ← fields? ["has_truncate", "has_replace", "created_by", "source_column_names",
    "connection_information", "connection_name", "parameters"] v
  let hasTruncate ← required "has_truncate" bool? fields
  let hasReplace ← required "has_replace" bool? fields
  let createdBy ← optional "created_by" string? fields
  let sourceColumnNames ← required "source_column_names" (listOf? string?) fields
  let connectionInformation ←
    optional "connection_information" ConnectionObject.deserialize fields
  let connectionName ← optional "connection_name" string? fields
  let parameters ← required "parameters" (listOf? Parameter.deserialize) fields
  return ⟨hasTruncate, hasReplace, createdBy, sourceColumnNames, connectionInformation,
    connectionName, parameters⟩

/-! ### Parsing a payload -/

/-- Parse the argument of a `generate_sql_for_import_spec` hook. -/
def ImportSpec.fromJson (serde : SerdeJson) (jsonSpec : String) : Except UdfError ImportSpec :=
  match (serde.read jsonSpec).bind ImportSpec.deserialize with
  | some spec => .ok spec
  | none =>
    .error (.type ("parsing the IMPORT specification: " ++ serde.error "ImportSpec" jsonSpec))

/-- Parse the argument of a `generate_sql_for_export_spec` hook. -/
def ExportSpec.fromJson (serde : SerdeJson) (jsonSpec : String) : Except UdfError ExportSpec :=
  match (serde.read jsonSpec).bind ExportSpec.deserialize with
  | some spec => .ok spec
  | none =>
    .error (.type ("parsing the EXPORT specification: " ++ serde.error "ExportSpec" jsonSpec))

end Sdk

end ExaUdf
