import ExaUdf.Context

/-!
# Annotated schemas

`validateSchema` compares the schemas that the UDF was annotated with against the columns that the
database sent in the handshake: count, names and types must match in order.
-/

namespace ExaUdf

/-- One field of an annotated schema. -/
structure AnnotatedField where
  name : String
  typ : String
  deriving DecidableEq, Repr

/-- The annotation's name of a column type. -/
def exatypeName : ExaType → String
  | .int32 => "Int32"
  | .int64 => "Int64"
  | .numeric _ _ => "Numeric"
  | .double => "Double"
  | .boolean => "Boolean"
  | .date => "Date"
  | .timestamp _ => "Timestamp"
  | .string _ | .char _ => "String"
  | .unsupported => "Unsupported"

/-- A string member of a schema entry. -/
def fieldText (side key : String) (entry : Json) : Except RuntimeError String :=
  match (entry.get? key).bind Json.string? with
  | some text => .ok text
  | none => .error (.udf ("annotated " ++ side ++ " schema entry missing `" ++ key ++ "`"))

def parseField (side : String) (entry : Json) : Except RuntimeError AnnotatedField := do
  let name ← fieldText side "name" entry
  let typ ← fieldText side "type" entry
  return ⟨name, typ⟩

/-- Parse the schema that the annotation wrote. -/
def parseSchema (env : Env) (side json : String) : Except RuntimeError (List AnnotatedField) :=
  match env.parseJson json with
  | .error e => .error (.udf ("invalid annotated " ++ side ++ " schema JSON: " ++ e))
  | .ok value =>
    match value.array? with
    | none => .error (.udf ("annotated " ++ side ++ " schema is not a JSON array"))
    | some entries => entries.mapM (parseField side)

/-- Compare the fields from index `idx` on with the columns. -/
def matchFields (side : String) : Nat → List AnnotatedField → List ColumnInfo →
    Except RuntimeError Unit
  | idx, field :: fields, col :: cols =>
    if field.name ≠ col.name then
      .error (.udf ("annotated " ++ side ++ " column " ++ toString idx ++ " is named `"
        ++ field.name ++ "` but the database supplied `" ++ col.name ++ "`"))
    else if field.typ ≠ exatypeName col.typ then
      .error (.udf ("annotated " ++ side ++ " column `" ++ field.name ++ "` is typed `"
        ++ field.typ ++ "` but the database supplied `" ++ exatypeName col.typ ++ "`"))
    else matchFields side (idx + 1) fields cols
  -- The numbers of fields and columns have been compared before.
  | _, _, _ => .ok ()

def validateOne (env : Env) (side json : String) (columns : List ColumnInfo) :
    Except RuntimeError Unit := do
  let annotated ← parseSchema env side json
  if annotated.length ≠ columns.length then
    .error (.udf ("annotated " ++ side ++ " schema has " ++ toString annotated.length
      ++ " column(s) but the database supplied " ++ toString columns.length))
  else matchFields side 0 annotated columns

/-- A UDF without annotation is accepted as it is. -/
def validateSchema (env : Env) (udf : LoadedUdf) (m : UdfMeta) : Except RuntimeError Unit := do
  match udf.annotatedInputSchema with
  | none => pure ()
  | some json => validateOne env "input" json m.inputColumns
  match udf.annotatedOutputSchema with
  | none => pure ()
  | some json => validateOne env "output" json m.outputColumns

end ExaUdf
