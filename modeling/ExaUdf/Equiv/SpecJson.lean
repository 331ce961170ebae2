import ExaUdf.Equiv.Wire
import ExaUdf.SdkSpec

/-!
# A hook reads the specification that the database sent

`fromJson_serialize`: what the runtime writes for a spec-generation hook, the typed views of the
hook's author read back without loss, and the text always reaches the hook.
-/

namespace ExaUdf

namespace Sdk

/-! ### Views of the protobuf messages -/

def ConnectionObject.ofRep (conn : ConnectionInformationRep) : ConnectionObject :=
  ⟨conn.kind, conn.address, conn.user, conn.password⟩

def Parameter.ofRep (pair : KeyValuePair) : Parameter :=
  ⟨pair.key, pair.value⟩

/-- The view of a column; a type that is absent or unknown has no name. -/
def ColumnDefinition.ofRep (col : ExaUdf.ColumnDefinition) : ColumnDefinition where
  name := col.name
  type := (col.type.bind ColumnType.tryFrom).map ColumnType.asStrName
  typeName := col.typeName
  size := col.size
  precision := col.precision
  scale := col.scale

def ImportSpec.ofRep (spec : ImportSpecificationRep) : ImportSpec where
  isSubselect := spec.isSubselect
  connectionInformation := spec.connectionInformation.map ConnectionObject.ofRep
  connectionName := spec.connectionName
  subselectColumnSpecification := spec.subselectColumnSpecification.map ColumnDefinition.ofRep
  parameters := spec.parameters.map Parameter.ofRep

def ExportSpec.ofRep (spec : ExportSpecificationRep) : ExportSpec where
  hasTruncate := spec.hasTruncate
  hasReplace := spec.hasReplace
  createdBy := spec.createdBy
  sourceColumnNames := spec.sourceColumnNames
  connectionInformation := spec.connectionInformation.map ConnectionObject.ofRep
  connectionName := spec.connectionName
  parameters := spec.parameters.map Parameter.ofRep

end Sdk

namespace SpecJson

open Json (PrintableAt sorted ofOption listOf? optional required)

/-! ### Members of an object -/

/-- The JSON value of credentials that are present. -/
def connection (conn : ConnectionInformationRep) : Json := sorted
  [("kind", .string conn.kind), ("address", .string conn.address), ("user", .string conn.user),
    ("password", .string conn.password)]

theorem credentials_eq (conn : Option ConnectionInformationRep) :
    credentials conn = ofOption connection conn := by
  cases conn <;> rfl

/-- The JSON value of a parameter. -/
def parameter (pair : KeyValuePair) : Json :=
  sorted [("key", .string pair.key), ("value", .string pair.value)]

theorem parameters_eq (pairs : List KeyValuePair) :
    parameters pairs = .array (pairs.map parameter) :=
  rfl

theorem printableAt_ofOption {α : Type} {depth : Nat} {f : α → Json}
    (h : ∀ a, PrintableAt depth (f a)) (value : Option α) :
    PrintableAt depth (ofOption f value) := by
  cases value with
  | none => exact .null depth
  | some a => exact h a

theorem printableAt_ofU32 (depth : Nat) (n : UInt32) : PrintableAt depth (ofU32 n) :=
  .number depth (lt_trans n.toNat_lt (by decide))

theorem printableAt_map {α : Type} {depth : Nat} {f : α → Json}
    (h : ∀ a, PrintableAt depth (f a)) (as : List α) :
    PrintableAt (depth + 1) (.array (as.map f)) := by
  refine .array fun v hv => ?_
  obtain ⟨a, -, rfl⟩ := List.mem_map.mp hv
  exact h a

/-! ### Parts -/

section

variable {depth : Nat}

theorem connection_printable (conn : ConnectionInformationRep) :
    PrintableAt (depth + 1) (connection conn) := by
  apply Json.printableAt_sorted ["kind", "address", "user", "password"] (by decide) rfl rfl
  simp only [List.forall_mem_cons]
  exact ⟨.string depth _, .string depth _, .string depth _, .string depth _, by simp⟩

theorem parameter_printable (pair : KeyValuePair) : PrintableAt (depth + 1) (parameter pair) := by
  apply Json.printableAt_sorted ["key", "value"] (by decide) rfl rfl
  simp only [List.forall_mem_cons]
  exact ⟨.string depth _, .string depth _, by simp⟩

theorem column_printable (col : ColumnDefinition) : PrintableAt (depth + 1) (column col) := by
  apply Json.printableAt_sorted ["name", "type", "type_name", "size", "precision", "scale"]
    (by decide) rfl rfl
  have hnumber := printableAt_ofOption (printableAt_ofU32 depth)
  simp only [List.forall_mem_cons]
  exact ⟨.string depth _, printableAt_ofOption (fun _ => .string depth _) _, .string depth _,
    hnumber _, hnumber _, hnumber _, by simp⟩

end

theorem connection_deserialize (conn : ConnectionInformationRep) :
    Sdk.ConnectionObject.deserialize (connection conn) = some (.ofRep conn) := by
  obtain ⟨fields, hfields, hlookup⟩ := Json.fields?_sorted ["kind", "address", "user", "password"]
    (by decide) (rfl : connection conn = _) rfl
  simp only [List.forall_mem_cons] at hlookup
  obtain ⟨hkind, haddress, huser, hpassword, -⟩ := hlookup
  rw [Sdk.ConnectionObject.deserialize, hfields, Option.bind_eq_bind, Option.bind_some,
    Json.required_of_lookup hkind, Json.required_of_lookup haddress,
    Json.required_of_lookup huser, Json.required_of_lookup hpassword]
  rfl

theorem parameter_deserialize (pair : KeyValuePair) :
    Sdk.Parameter.deserialize (parameter pair) = some (.ofRep pair) := by
  obtain ⟨fields, hfields, hlookup⟩ := Json.fields?_sorted ["key", "value"] (by decide)
    (rfl : parameter pair = _) rfl
  simp only [List.forall_mem_cons] at hlookup
  obtain ⟨hkey, hvalue, -⟩ := hlookup
  rw [Sdk.Parameter.deserialize, hfields, Option.bind_eq_bind, Option.bind_some,
    Json.required_of_lookup hkey, Json.required_of_lookup hvalue]
  rfl

/-! ### Optional fields -/

section

variable {name : String} {fields : List (String × Json)}

theorem optional_string {value : Option String}
    (h : fields.lookup name = some (ofOption .string value)) :
    optional name Json.string? fields = some value := by
  rw [Json.optional_of_lookup (f := id) Json.string?_string (fun _ => Json.noConfusion) h,
    Option.map_id_fun, id]

theorem optional_u32 {value : Option UInt32}
    (h : fields.lookup name = some (ofOption ofU32 value)) :
    optional name Json.u32? fields = some value := by
  rw [Json.optional_of_lookup (f := id) Json.u32?_toString (fun _ => Json.noConfusion) h,
    Option.map_id_fun, id]

/-- The type of a column is read back as the name of its variant. -/
theorem optional_type {value : Option ColumnType}
    (h : fields.lookup name = some (ofOption (.string ∘ ColumnType.asStrName) value)) :
    optional name Json.string? fields = some (value.map ColumnType.asStrName) :=
  Json.optional_of_lookup (fun _ => Json.string?_string _) (fun _ => Json.noConfusion) h

theorem optional_credentials {value : Option ConnectionInformationRep}
    (h : fields.lookup name = some (credentials value)) :
    optional name Sdk.ConnectionObject.deserialize fields
      = some (value.map Sdk.ConnectionObject.ofRep) := by
  rw [credentials_eq] at h
  exact Json.optional_of_lookup connection_deserialize (fun _ => Json.noConfusion) h

end

theorem column_deserialize (col : ColumnDefinition) :
    Sdk.ColumnDefinition.deserialize (column col) = some (.ofRep col) := by
  obtain ⟨fields, hfields, hlookup⟩ := Json.fields?_sorted
    ["name", "type", "type_name", "size", "precision", "scale"] (by decide)
    (rfl : column col = _) rfl
  simp only [List.forall_mem_cons] at hlookup
  obtain ⟨hname, htype, htypeName, hsize, hprecision, hscale, -⟩ := hlookup
  rw [Sdk.ColumnDefinition.deserialize, hfields, Option.bind_eq_bind, Option.bind_some,
    Json.required_of_lookup hname, Json.required_of_lookup htypeName, optional_type htype,
    optional_u32 hsize, optional_u32 hprecision, optional_u32 hscale]
  rfl

/-! ### Specifications -/

/-- The JSON value of an `IMPORT` specification. -/
def importValue (spec : ImportSpecificationRep) : Json := sorted
  [("is_subselect", .bool spec.isSubselect),
    ("connection_information", credentials spec.connectionInformation),
    ("connection_name", ofOption .string spec.connectionName),
    ("subselect_column_specification",
      .array (spec.subselectColumnSpecification.map column)),
    ("parameters", parameters spec.parameters)]

/-- The JSON value of an `EXPORT` specification. -/
def exportValue (spec : ExportSpecificationRep) : Json := sorted
  [("has_truncate", .bool spec.hasTruncate),
    ("has_replace", .bool spec.hasReplace),
    ("created_by", ofOption .string spec.createdBy),
    ("source_column_names", .array (spec.sourceColumnNames.map .string)),
    ("connection_information", credentials spec.connectionInformation),
    ("connection_name", ofOption .string spec.connectionName),
    ("parameters", parameters spec.parameters)]

theorem serializeImport_eq (print : Json → String) (spec : ImportSpecificationRep) :
    serializeImport print spec = print (importValue spec) :=
  rfl

theorem serializeExport_eq (print : Json → String) (spec : ExportSpecificationRep) :
    serializeExport print spec = print (exportValue spec) :=
  rfl

theorem credentials_printable {depth : Nat} (conn : Option ConnectionInformationRep) :
    PrintableAt (depth + 1) (credentials conn) := by
  rw [credentials_eq]
  exact printableAt_ofOption connection_printable conn

theorem importValue_printable (depth : Nat) (spec : ImportSpecificationRep) :
    PrintableAt (depth + 3) (importValue spec) := by
  apply Json.printableAt_sorted ["is_subselect", "connection_information", "connection_name",
    "subselect_column_specification", "parameters"] (by decide) rfl rfl
  simp only [List.forall_mem_cons]
  exact ⟨.bool _ _, credentials_printable _, printableAt_ofOption (fun _ => .string _ _) _,
    printableAt_map column_printable _, printableAt_map parameter_printable _, by simp⟩

theorem exportValue_printable (depth : Nat) (spec : ExportSpecificationRep) :
    PrintableAt (depth + 3) (exportValue spec) := by
  apply Json.printableAt_sorted ["has_truncate", "has_replace", "created_by",
    "source_column_names", "connection_information", "connection_name", "parameters"]
    (by decide) rfl rfl
  simp only [List.forall_mem_cons]
  exact ⟨.bool _ _, .bool _ _, printableAt_ofOption (fun _ => .string _ _) _,
    printableAt_map (fun _ => .string _ _) _, credentials_printable _,
    printableAt_ofOption (fun _ => .string _ _) _, printableAt_map parameter_printable _, by simp⟩

theorem importValue_deserialize (spec : ImportSpecificationRep) :
    Sdk.ImportSpec.deserialize (importValue spec) = some (.ofRep spec) := by
  obtain ⟨fields, hfields, hlookup⟩ := Json.fields?_sorted ["is_subselect",
    "connection_information", "connection_name", "subselect_column_specification", "parameters"]
    (by decide) (rfl : importValue spec = _) rfl
  simp only [List.forall_mem_cons] at hlookup
  obtain ⟨hsubselect, hconnection, hconnectionName, hcolumns, hparameters, -⟩ := hlookup
  have hcolumn := Json.listOf?_map column_deserialize spec.subselectColumnSpecification
  have hparameter := Json.listOf?_map parameter_deserialize spec.parameters
  rw [Sdk.ImportSpec.deserialize, hfields, Option.bind_eq_bind, Option.bind_some,
    Json.required_of_lookup hsubselect, optional_credentials hconnection,
    optional_string hconnectionName, Json.required_of_lookup hcolumns, hcolumn,
    Json.required_of_lookup hparameters, parameters_eq, hparameter]
  rfl

theorem exportValue_deserialize (spec : ExportSpecificationRep) :
    Sdk.ExportSpec.deserialize (exportValue spec) = some (.ofRep spec) := by
  obtain ⟨fields, hfields, hlookup⟩ := Json.fields?_sorted ["has_truncate", "has_replace",
    "created_by", "source_column_names", "connection_information", "connection_name", "parameters"]
    (by decide) (rfl : exportValue spec = _) rfl
  simp only [List.forall_mem_cons] at hlookup
  obtain ⟨htruncate, hreplace, hcreatedBy, hnames, hconnection, hconnectionName, hparameters, -⟩ :=
    hlookup
  have hname : listOf? Json.string? (.array (spec.sourceColumnNames.map .string))
      = some (spec.sourceColumnNames.map id) := Json.listOf?_map Json.string?_string _
  have hparameter := Json.listOf?_map parameter_deserialize spec.parameters
  rw [Sdk.ExportSpec.deserialize, hfields, Option.bind_eq_bind, Option.bind_some,
    Json.required_of_lookup htruncate, Json.required_of_lookup hreplace,
    optional_string hcreatedBy, Json.required_of_lookup hnames, hname,
    optional_credentials hconnection, optional_string hconnectionName,
    Json.required_of_lookup hparameters, parameters_eq, hparameter, List.map_id]
  rfl

/-! ### The way to the hook -/

/-- An argument without a NUL reaches its hook. -/
theorem invokeCtxHook_starts (env : Env) {hook : Hook} (hhook : hook ≠ .cleanup) (name : String)
    (body : List Event → String → UdfProg) {arg : String} (harg : Char.ofNat 0 ∉ arg.toList)
    (w : World) : .hookStart hook arg ∈ (invokeCtxHook env hook name body arg w).2.log := by
  have hrel := (dispatchRel_adds env).singleCallRel
  have hnul : ¬ arg.toList.contains (Char.ofNat 0) = true := by
    rwa [List.contains_iff_mem]
  rw [invokeCtxHook, if_neg hnul]
  -- The history only grows from the start of the hook on.
  have hexec := Prog.exec_rel (singleCallHandle env)
    (R := fun c c' : HookContext => World.Adds (fun e => e.isDispatch = true) c.world c'.world)
    (fun _ => hrel.refl _) hrel.trans (fun op ctx => singleCallHandle_rel hrel op ctx)
    (body w.log arg) ⟨w.push (.hookStart hook arg), none⟩
  obtain ⟨events, hlog, -⟩ := hrel.trans hexec
    (hrel.note _ _ ((isDispatchNote_of_ne_cleanup hhook).2 _))
  rw [hlog]
  exact List.mem_append_left _ (List.mem_append_right _ (List.mem_singleton_self _))

/-- **Specifications lose nothing on their way to a hook.**  The typed view that the hook's author
parses has every field of the message, in order and with repeated keys; the text has no NUL, so a
call that names a hook the UDF has always starts it with the text. -/
theorem fromJson_serialize {env : Env} {serde : SerdeJson}
    (hjson : Json.RoundTrip env.printJson serde.read) :
    (∀ spec : ImportSpecificationRep,
      Sdk.ImportSpec.fromJson serde (serializeImport env.printJson spec) = .ok (.ofRep spec) ∧
      Char.ofNat 0 ∉ (serializeImport env.printJson spec).toList ∧
      ∀ udf body jsonArg exportSpec w, udf.generateSqlForImportSpec = some body →
        .hookStart .generateSqlForImportSpec (serializeImport env.printJson spec) ∈
          (invokeHook env udf
            ⟨.scFnGenerateSqlForImportSpec, jsonArg, some spec, exportSpec⟩ w).2.log) ∧
    ∀ spec : ExportSpecificationRep,
      Sdk.ExportSpec.fromJson serde (serializeExport env.printJson spec) = .ok (.ofRep spec) ∧
      Char.ofNat 0 ∉ (serializeExport env.printJson spec).toList ∧
      ∀ udf body jsonArg importSpec w, udf.generateSqlForExportSpec = some body →
        .hookStart .generateSqlForExportSpec (serializeExport env.printJson spec) ∈
          (invokeHook env udf
            ⟨.scFnGenerateSqlForExportSpec, jsonArg, importSpec, some spec⟩ w).2.log := by
  constructor
  · intro spec
    have hprintable : Json.Printable (importValue spec) := importValue_printable 124 spec
    have hnul := hjson.nul_not_mem hprintable
    refine ⟨?_, hnul, fun udf body jsonArg exportSpec w hudf => ?_⟩
    · rw [Sdk.ImportSpec.fromJson, serializeImport_eq, hjson.read_print hprintable,
        Option.bind_some, importValue_deserialize]
    · simp only [invokeHook, hudf]
      exact invokeCtxHook_starts env (by decide) _ body hnul w
  · intro spec
    have hprintable : Json.Printable (exportValue spec) := exportValue_printable 124 spec
    have hnul := hjson.nul_not_mem hprintable
    refine ⟨?_, hnul, fun udf body jsonArg importSpec w hudf => ?_⟩
    · rw [Sdk.ExportSpec.fromJson, serializeExport_eq, hjson.read_print hprintable,
        Option.bind_some, exportValue_deserialize]
    · simp only [invokeHook, hudf]
      exact invokeCtxHook_starts env (by decide) _ body hnul w

/-- A specification with a quote, a NUL, an unknown type and a repeated key. -/
def sampleSpec : ImportSpecificationRep where
  isSubselect := true
  connectionInformation := some ⟨"password", "ftp://host", "me", "a\"b\x00"⟩
  connectionName := none
  subselectColumnSpecification := [⟨"A", some 1, "DOUBLE", none, none, none⟩,
    ⟨"B", some 99, "VARCHAR(20) UTF8", some 20, none, none⟩]
  parameters := [⟨"k", "1"⟩, ⟨"k", "2"⟩]

/-- The printer and the reader are concrete ones. -/
theorem fromJson_serialize_sample :
    let env : Env := .reference (.emitting fun _ => .done ⟨0, ""⟩)
    Sdk.ImportSpec.fromJson ⟨Json.read, fun _ _ => ""⟩ (serializeImport env.printJson sampleSpec)
      = .ok (.ofRep sampleSpec) := by
  intro env
  have hjson : Json.RoundTrip env.printJson Json.read := Json.roundTrip_render
  exact ((fromJson_serialize hjson).1 sampleSpec).1

end SpecJson

end ExaUdf
