import Mathlib.Data.String.Basic

/-!
# The schemas that the macro embeds

`schemaJson` writes the field list of an `input(...)` or `emits(...)` annotation as JSON, with a NUL
at its end.  The types are told apart by their spelling.
-/

namespace ExaUdf

/-- The characters of an identifier; of the ASCII ones these are letters, digits and `_`. -/
def isIdentChar (c : Char) : Bool :=
  c.isAlphanum || c == '_' || 128 ≤ c.toNat

/-- A Rust identifier, without the `r#` of a raw one. -/
structure Ident where
  raw : Bool
  name : String
  valid : name.toList.all isIdentChar = true

/-- `Ident::to_string`. -/
def Ident.text (ident : Ident) : String :=
  if ident.raw then "r#" ++ ident.name else ident.name

/-- A Rust type: a path by its segments, and what is neither a path nor a reference by its
tokens. -/
inductive RustType where
  | path (segments : List Ident)
  | reference (elem : RustType)
  | other (tokens : String)

/-- One `name: Type` field of a list. -/
structure SchemaField where
  name : Ident
  ty : RustType

/-- Render a type to a comparable string. -/
def typeTokenString : RustType → String
  | .path segments => (segments.getLast?.map Ident.text).getD ""
  | .reference elem => "&" ++ typeTokenString elem
  | .other tokens => String.ofList (tokens.toList.filter (· ≠ ' '))

/-- The annotation's name for a Rust type. -/
def rustTypeToExatype (ty : RustType) : Except String String :=
  match typeTokenString ty with
  | "i32" => .ok "Int32"
  | "i64" => .ok "Int64"
  | "f64" => .ok "Double"
  | "f32" => .ok "Double"
  | "bool" => .ok "Boolean"
  | "String" => .ok "String"
  | "&str" | "str" => .ok "String"
  | "Decimal" => .ok "Numeric"
  | "NaiveDate" => .ok "Date"
  | "NaiveDateTime" => .ok "Timestamp"
  | name => .error ("unknown ExaType for " ++ name)

def schemaEntry (f : SchemaField) : Except String String := do
  let exatype ← rustTypeToExatype f.ty
  return "\x7b\"name\":\"" ++ f.name.text ++ "\",\"type\":\"" ++ exatype ++ "\"\x7d"

/-- Build the schema of a field list.  The NUL makes it a C string. -/
def schemaJson (fields : List SchemaField) : Except String String := do
  let entries ← fields.mapM schemaEntry
  return "[" ++ ",".intercalate entries ++ "]\x00"

/-- A C string as the loader reads it: up to the NUL. -/
def cStr (s : String) : String :=
  String.ofList (s.toList.takeWhile (· ≠ Char.ofNat 0))

end ExaUdf
