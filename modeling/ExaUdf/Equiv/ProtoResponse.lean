import ExaUdf.Equiv.Proto
import ExaUdf.ProtoResponse

/-!
# Responses survive the wire

`ExascriptResponse.decode_encodeToVec`: the client reads off a frame the response it was written
from.  Each message that a response carries is read back by itself first, and then the parts of the
envelope are merged one after the other.
-/

namespace ExaUdf

open Protobuf

open ExascriptRequest (optionField mergeText mergeClose)

/-! ### The messages inside a response -/

theorem ColumnDefinition.decode_fields (c : ColumnDefinition) :
    decodeMessage merge empty (encodeFields c.fields) = some c := by
  obtain ⟨name, type, typeName, size, precision, scale⟩ := c
  rw [decodeMessage_encodeFields]
  simp only [fields, List.foldlM_append, List.foldlM_cons, List.foldlM_nil, stringField, merge,
    Utf8.text?_bytes, optionField, Option.map_some, Option.bind_eq_bind, Option.bind_some,
    Option.pure_def, empty]
  rw [foldlM_optional (fun (c : ColumnDefinition) t => { c with type := t }) rfl
      (fun t => by simp [enumField, merge, i32OfVarint_varintOfI32]) type,
    Option.bind_some, Option.bind_some,
    foldlM_optional (fun (c : ColumnDefinition) n => { c with size := n }) rfl
      (fun n => by simp [u32Field, merge]) size,
    Option.bind_some,
    foldlM_optional (fun (c : ColumnDefinition) n => { c with precision := n }) rfl
      (fun n => by simp [u32Field, merge]) precision,
    Option.bind_some,
    foldlM_optional (fun (c : ColumnDefinition) n => { c with scale := n }) rfl
      (fun n => by simp [u32Field, merge]) scale]

theorem ExascriptMetadata.decode_fields (m : ExascriptMetadata) :
    decodeMessage merge empty (encodeFields m.fields) = some m := by
  obtain ⟨inputIterType, outputIterType, inputColumns, outputColumns, singleCallMode⟩ := m
  rw [decodeMessage_encodeFields]
  simp only [fields, List.foldlM_append, List.foldlM_cons, List.foldlM_nil, enumField, merge,
    i32OfVarint_varintOfI32, Option.bind_eq_bind, Option.bind_some, Option.pure_def, empty]
  have hinput := foldlM_repeated merge (fun c : ColumnDefinition => messageField 3 c.fields)
    (a := ⟨inputIterType, outputIterType, [], [], false⟩)
    (fun m cs => { m with inputColumns := cs })
    (fun cs c => by simp [messageField, merge, ColumnDefinition.decode_fields]) [] inputColumns
  have houtput := foldlM_repeated merge (fun c : ColumnDefinition => messageField 4 c.fields)
    (a := ⟨inputIterType, outputIterType, inputColumns, [], false⟩)
    (fun m cs => { m with outputColumns := cs })
    (fun cs c => by simp [messageField, merge, ColumnDefinition.decode_fields]) [] outputColumns
  rw [List.nil_append] at hinput houtput
  rw [hinput, Option.bind_some, houtput, Option.bind_some, boolField]
  simp only [boolOfVarint_varintOfBool, Option.bind_some]

theorem ExascriptInfo.decode_fields (i : ExascriptInfo) :
    decodeMessage merge empty (encodeFields i.fields) = some i := by
  rw [decodeMessage_encodeFields]
  simp only [fields, List.foldlM_append, List.foldlM_cons, List.foldlM_nil, stringField, u32Field,
    u64Field, merge, Utf8.text?_bytes, UInt64.ofNat_toNat, UInt32.ofNat_toNat, Option.map_some,
    Option.bind_eq_bind, Option.bind_some, Option.pure_def, empty, optionField]
  rw [foldlM_optional (fun (i : ExascriptInfo) s => { i with currentUser := s }) rfl
      (fun s => by simp [stringField, merge, Utf8.text?_bytes]) i.currentUser,
    Option.bind_some,
    foldlM_optional (fun (i : ExascriptInfo) s => { i with currentSchema := s }) rfl
      (fun s => by simp [stringField, merge, Utf8.text?_bytes]) i.currentSchema,
    Option.bind_some,
    foldlM_optional (fun (i : ExascriptInfo) s => { i with scopeUser := s }) rfl
      (fun s => by simp [stringField, merge, Utf8.text?_bytes]) i.scopeUser]

theorem ConnectionInformationRep.decode_fields (c : ConnectionInformationRep) :
    decodeMessage merge empty (encodeFields c.fields) = some c := by
  rw [decodeMessage_encodeFields]
  simp only [fields, List.foldlM_cons, List.foldlM_nil, stringField, merge, Utf8.text?_bytes,
    Option.map_some, Option.bind_eq_bind, Option.bind_some, Option.pure_def, empty]

theorem ExascriptImportRep.decode_fields (i : ExascriptImportRep) :
    decodeMessage merge empty (encodeFields i.fields) = some i := by
  rw [decodeMessage_encodeFields]
  simp only [fields, List.foldlM_append, Option.bind_eq_bind, empty, optionField]
  rw [foldlM_optional (fun (i : ExascriptImportRep) s => { i with exceptionMessage := s }) rfl
      (fun s => by simp [stringField, merge, Utf8.text?_bytes]) i.exceptionMessage,
    Option.bind_some,
    foldlM_optional (fun (i : ExascriptImportRep) c => { i with connectionInformation := c }) rfl
      (fun c => by simp [messageField, merge, ConnectionInformationRep.decode_fields])
      i.connectionInformation]

theorem KeyValuePair.decode_fields (p : KeyValuePair) :
    decodeMessage merge empty (encodeFields p.fields) = some p := by
  rw [decodeMessage_encodeFields]
  simp only [fields, List.foldlM_cons, List.foldlM_nil, stringField, merge, Utf8.text?_bytes,
    Option.map_some, Option.bind_eq_bind, Option.bind_some, Option.pure_def, empty]

theorem ImportSpecificationRep.decode_fields (s : ImportSpecificationRep) :
    decodeMessage merge empty (encodeFields s.fields) = some s := by
  obtain ⟨isSubselect, connection, name, columns, parameters⟩ := s
  rw [decodeMessage_encodeFields]
  simp only [fields, List.foldlM_append, List.foldlM_cons, List.foldlM_nil, boolField, merge,
    boolOfVarint_varintOfBool, Option.bind_eq_bind, Option.bind_some, Option.pure_def, empty,
    optionField]
  have hcolumns := foldlM_repeated merge (fun c : ColumnDefinition => messageField 4 c.fields)
    (a := ⟨isSubselect, connection, name, [], []⟩)
    (fun s cs => { s with subselectColumnSpecification := cs })
    (fun cs c => by simp [messageField, merge, ColumnDefinition.decode_fields]) [] columns
  have hparameters := foldlM_repeated merge (fun p : KeyValuePair => messageField 5 p.fields)
    (a := ⟨isSubselect, connection, name, columns, []⟩)
    (fun s ps => { s with parameters := ps })
    (fun ps p => by simp [messageField, merge, KeyValuePair.decode_fields]) [] parameters
  rw [List.nil_append] at hcolumns hparameters
  rw [foldlM_optional
      (fun (s : ImportSpecificationRep) c => { s with connectionInformation := c }) rfl
      (fun c => by simp [messageField, merge, ConnectionInformationRep.decode_fields]) connection,
    Option.bind_some,
    foldlM_optional (fun (s : ImportSpecificationRep) n => { s with connectionName := n }) rfl
      (fun n => by simp [stringField, merge, Utf8.text?_bytes]) name,
    Option.bind_some, hcolumns, Option.bind_some, hparameters]

theorem ExportSpecificationRep.decode_fields (s : ExportSpecificationRep) :
    decodeMessage merge empty (encodeFields s.fields) = some s := by
  obtain ⟨hasTruncate, hasReplace, createdBy, names, connection, name, parameters⟩ := s
  rw [decodeMessage_encodeFields]
  simp only [fields, List.foldlM_append, List.foldlM_cons, List.foldlM_nil, boolField, merge,
    boolOfVarint_varintOfBool, Option.bind_eq_bind, Option.bind_some, Option.pure_def, empty,
    optionField]
  have hnames := foldlM_repeated merge (stringField 4)
    (a := ⟨hasTruncate, hasReplace, createdBy, [], none, none, []⟩)
    (fun s ns => { s with sourceColumnNames := ns })
    (fun ns n => by simp [stringField, merge, Utf8.text?_bytes]) [] names
  have hparameters := foldlM_repeated merge (fun p : KeyValuePair => messageField 7 p.fields)
    (a := ⟨hasTruncate, hasReplace, createdBy, names, connection, name, []⟩)
    (fun s ps => { s with parameters := ps })
    (fun ps p => by simp [messageField, merge, KeyValuePair.decode_fields]) [] parameters
  rw [List.nil_append] at hnames hparameters
  rw [foldlM_optional (fun (s : ExportSpecificationRep) c => { s with createdBy := c }) rfl
      (fun c => by simp [stringField, merge, Utf8.text?_bytes]) createdBy,
    Option.bind_some, hnames, Option.bind_some,
    foldlM_optional
      (fun (s : ExportSpecificationRep) c => { s with connectionInformation := c }) rfl
      (fun c => by simp [messageField, merge, ConnectionInformationRep.decode_fields]) connection,
    Option.bind_some,
    foldlM_optional (fun (s : ExportSpecificationRep) n => { s with connectionName := n }) rfl
      (fun n => by simp [stringField, merge, Utf8.text?_bytes]) name,
    Option.bind_some, hparameters]

theorem ExascriptSingleCallRep.decode_fields (c : ExascriptSingleCallRep) :
    decodeMessage merge empty (encodeFields c.fields) = some c := by
  rw [decodeMessage_encodeFields]
  simp only [fields, List.foldlM_append, List.foldlM_cons, List.foldlM_nil, enumField, merge,
    i32OfVarint_varintOfI32, Option.bind_eq_bind, Option.bind_some, Option.pure_def, empty,
    optionField]
  rw [foldlM_optional
      (fun (c : ExascriptSingleCallRep) s => { c with importSpecification := s }) rfl
      (fun s => by simp [messageField, merge, ImportSpecificationRep.decode_fields])
      c.importSpecification,
    Option.bind_some,
    foldlM_optional (fun (c : ExascriptSingleCallRep) s => { c with jsonArg := s }) rfl
      (fun s => by simp [stringField, merge, Utf8.text?_bytes]) c.jsonArg,
    Option.bind_some,
    foldlM_optional
      (fun (c : ExascriptSingleCallRep) s => { c with exportSpecification := s }) rfl
      (fun s => by simp [messageField, merge, ExportSpecificationRep.decode_fields])
      c.exportSpecification]

/-! ### The envelope -/

namespace ExascriptResponse

/-- Merging a close into an envelope that has none. -/
theorem merge_close {r : ExascriptResponse} (h : r.close = none) (c : ExascriptClose) :
    merge r (messageField 6 (c.exceptionMessage.toList.map (stringField 1)))
      = some { r with close := some c } := by
  obtain ⟨_ | message⟩ := c <;>
    simp [merge, messageField, h, decodeMessage_encodeFields, stringField, mergeClose,
      Utf8.text?_bytes]

theorem merge_next {r : ExascriptResponse} (h : r.next = none) (t : ExascriptTableData) :
    merge r (messageField 8 [messageField 2 t.fields]) = some { r with next := some t } := by
  simp [merge, messageField, h, decodeMessage_encodeFields, mergeNext,
    ExascriptTableData.foldlM_merge_fields]

theorem merge_ping {r : ExascriptResponse} (h : r.ping = none) (s : String) :
    merge r (messageField 9 [stringField 1 s]) = some { r with ping := some s } := by
  simp [merge, messageField, h, decodeMessage_encodeFields, stringField, mergeText,
    Utf8.text?_bytes]

/-- **Round trip**: decoding the frame of a response gives the response back. -/
theorem decode_encodeToVec (r : ExascriptResponse) : decode r.encodeToVec = some r := by
  rw [decode, encodeToVec, decodeMessage_encodeFields]
  simp only [fields, List.foldlM_append, List.foldlM_cons, List.foldlM_nil, enumField, u64Field,
    merge, i32OfVarint_varintOfI32, UInt64.ofNat_toNat, empty, Option.bind_eq_bind,
    Option.bind_some, Option.pure_def, optionField]
  rw [foldlM_optional (fun (r : ExascriptResponse) i => { r with info := i }) rfl
      (fun i => by simp [messageField, merge, ExascriptInfo.decode_fields]) r.info,
    Option.bind_some,
    foldlM_optional (fun (r : ExascriptResponse) m => { r with metadata := m }) rfl
      (fun m => by simp [messageField, merge, ExascriptMetadata.decode_fields]) r.metadata,
    Option.bind_some,
    foldlM_optional (fun (r : ExascriptResponse) c => { r with close := c }) rfl
      (merge_close rfl) r.close,
    Option.bind_some,
    foldlM_optional (fun (r : ExascriptResponse) i => { r with importRep := i }) rfl
      (fun i => by simp [messageField, merge, ExascriptImportRep.decode_fields]) r.importRep,
    Option.bind_some,
    foldlM_optional (fun (r : ExascriptResponse) t => { r with next := t }) rfl
      (merge_next rfl) r.next,
    Option.bind_some,
    foldlM_optional (fun (r : ExascriptResponse) s => { r with ping := s }) rfl
      (merge_ping rfl) r.ping,
    Option.bind_some,
    foldlM_optional (fun (r : ExascriptResponse) c => { r with call := c }) rfl
      (fun c => by simp [messageField, merge, ExascriptSingleCallRep.decode_fields]) r.call]

end ExascriptResponse

end ExaUdf
