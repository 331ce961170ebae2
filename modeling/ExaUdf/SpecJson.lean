import ExaUdf.Lib.Json
import ExaUdf.Proto

/-!
# The JSON payload of the spec-generation hooks

A 1:1 mirror of the protobuf specification messages: every key is written, an absent optional as
`null` and a repeated field as an array.  A column type keeps its protobuf name.  How the JSON
library prints a value is a parameter.
-/

namespace ExaUdf

open Json (sorted ofOption)

/-- The protobuf name of a column type. -/
def ColumnType.asStrName : ColumnType → String
  | .pbUnsupported => "PB_UNSUPPORTED"
  | .pbDouble => "PB_DOUBLE"
  | .pbInt32 => "PB_INT32"
  | .pbInt64 => "PB_INT64"
  | .pbNumeric => "PB_NUMERIC"
  | .pbTimestamp => "PB_TIMESTAMP"
  | .pbDate => "PB_DATE"
  | .pbString => "PB_STRING"
  | .pbBoolean => "PB_BOOLEAN"

namespace SpecJson

def ofU32 (n : UInt32) : Json :=
  .number (toString n.toNat)

def credentials : Option ConnectionInformationRep → Json
  | some conn => sorted
    [("kind", .string conn.kind), ("address", .string conn.address), ("user", .string conn.user),
      ("password", .string conn.password)]
  | none => .null

def parameters (pairs : List KeyValuePair) : Json :=
  .array (pairs.map fun pair => sorted [("key", .string pair.key), ("value", .string pair.value)])

def column (col : ColumnDefinition) : Json := sorted
  [("name", .string col.name),
    ("type", ofOption (.string ∘ ColumnType.asStrName) (col.type.bind ColumnType.tryFrom)),
    ("type_name", .string col.typeName),
    ("size", ofOption ofU32 col.size),
    ("precision", ofOption ofU32 col.precision),
    ("scale", ofOption ofU32 col.scale)]

/-- The `IMPORT ... FROM SCRIPT` specification for its hook. -/
def serializeImport (print : Json → String) (spec : ImportSpecificationRep) : String :=
  print (sorted
    [("is_subselect", .bool spec.isSubselect),
      ("connection_information", credentials spec.connectionInformation),
      ("connection_name", ofOption .string spec.connectionName),
      ("subselect_column_specification",
        .array (spec.subselectColumnSpecification.map column)),
      ("parameters", parameters spec.parameters)])

/-- The `EXPORT ... INTO SCRIPT` specification for its hook. -/
def serializeExport (print : Json → String) (spec : ExportSpecificationRep) : String :=
  print (sorted
    [("has_truncate", .bool spec.hasTruncate),
      ("has_replace", .bool spec.hasReplace),
      ("created_by", ofOption .string spec.createdBy),
      ("source_column_names", .array (spec.sourceColumnNames.map .string)),
      ("connection_information", credentials spec.connectionInformation),
      ("connection_name", ofOption .string spec.connectionName),
      ("parameters", parameters spec.parameters)])

end SpecJson

end ExaUdf
