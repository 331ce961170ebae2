import ExaUdf.Proto

/-!
# Responses on the wire

The proto2 encoding of an `ExascriptResponse`, `ExascriptResponse.encodeToVec`, with those of the
messages inside it, and the decoder that the client reads a response by.

Fields that no party reads (the `client` of a response, the `meta_info` of an `exascript_info`, the
`source_code` of an `exascript_import_rep`) are never written, and skipped like unknown ones.
-/

namespace ExaUdf

open Protobuf

open ExascriptRequest (optionField mergeText mergeClose)

/-! ### Optional numbers -/

def u32Field (tag : Nat) (n : UInt32) : Field :=
  (tag, .varint n.toNat)

def u64Field (tag : Nat) (n : UInt64) : Field :=
  (tag, .varint n.toNat)

def boolField (tag : Nat) (b : Bool) : Field :=
  (tag, .varint (varintOfBool b))

def enumField (tag : Nat) (n : Int32) : Field :=
  (tag, .varint (varintOfI32 n))

/-! ### Column definitions -/

namespace ColumnDefinition

def fields (c : ColumnDefinition) : List Field :=
  [stringField 1 c.name]
  ++ optionField (enumField 2) c.type
  ++ [stringField 3 c.typeName]
  ++ optionField (u32Field 4) c.size
  ++ optionField (u32Field 5) c.precision
  ++ optionField (u32Field 6) c.scale

def empty : ColumnDefinition where
  name := ""
  type := none
  typeName := ""
  size := none
  precision := none
  scale := none

def merge (c : ColumnDefinition) : Field → Option ColumnDefinition
  | (1, .bytes bs) => (Utf8.text? bs).map fun s => { c with name := s }
  | (2, .varint n) => some { c with type := some (i32OfVarint n) }
  | (3, .bytes bs) => (Utf8.text? bs).map fun s => { c with typeName := s }
  | (4, .varint n) => some { c with size := some (UInt32.ofNat n) }
  | (5, .varint n) => some { c with precision := some (UInt32.ofNat n) }
  | (6, .varint n) => some { c with scale := some (UInt32.ofNat n) }
  | (tag, _) => if 1 ≤ tag ∧ tag ≤ 6 then none else some c

end ColumnDefinition

/-! ### The handshake -/

namespace ExascriptMetadata

def fields (m : ExascriptMetadata) : List Field :=
  [enumField 1 m.inputIterType, enumField 2 m.outputIterType]
  ++ m.inputColumns.map (fun c => messageField 3 c.fields)
  ++ m.outputColumns.map (fun c => messageField 4 c.fields)
  ++ [boolField 5 m.singleCallMode]

/-- The first variant of each enumeration is its default. -/
def empty : ExascriptMetadata where
  inputIterType := 1
  outputIterType := 1
  inputColumns := []
  outputColumns := []
  singleCallMode := false

def merge (m : ExascriptMetadata) : Field → Option ExascriptMetadata
  | (1, .varint n) => some { m with inputIterType := i32OfVarint n }
  | (2, .varint n) => some { m with outputIterType := i32OfVarint n }
  | (3, .bytes bs) => (decodeMessage ColumnDefinition.merge .empty bs).map fun c =>
    { m with inputColumns := m.inputColumns ++ [c] }
  | (4, .bytes bs) => (decodeMessage ColumnDefinition.merge .empty bs).map fun c =>
    { m with outputColumns := m.outputColumns ++ [c] }
  | (5, .varint n) => some { m with singleCallMode := boolOfVarint n }
  | (tag, _) => if 1 ≤ tag ∧ tag ≤ 5 then none else some m

end ExascriptMetadata

namespace ExascriptInfo

def fields (i : ExascriptInfo) : List Field :=
  [stringField 1 i.databaseName, stringField 2 i.databaseVersion, stringField 3 i.scriptName,
    stringField 4 i.sourceCode, u64Field 5 i.sessionId, u32Field 6 i.statementId,
    u32Field 7 i.nodeCount, u32Field 8 i.nodeId, u64Field 9 i.vmId,
    u64Field 11 i.maximalMemoryLimit, stringField 13 i.scriptSchema]
  ++ optionField (stringField 14) i.currentUser
  ++ optionField (stringField 15) i.currentSchema
  ++ optionField (stringField 16) i.scopeUser

def empty : ExascriptInfo where
  databaseName := ""
  databaseVersion := ""
  scriptName := ""
  sourceCode := ""
  sessionId := 0
  statementId := 0
  nodeCount := 0
  nodeId := 0
  vmId := 0
  maximalMemoryLimit := 0
  scriptSchema := ""
  currentUser := none
  currentSchema := none
  scopeUser := none

def merge (i : ExascriptInfo) : Field → Option ExascriptInfo
  | (1, .bytes bs) => (Utf8.text? bs).map fun s => { i with databaseName := s }
  | (2, .bytes bs) => (Utf8.text? bs).map fun s => { i with databaseVersion := s }
  | (3, .bytes bs) => (Utf8.text? bs).map fun s => { i with scriptName := s }
  | (4, .bytes bs) => (Utf8.text? bs).map fun s => { i with sourceCode := s }
  | (5, .varint n) => some { i with sessionId := UInt64.ofNat n }
  | (6, .varint n) => some { i with statementId := UInt32.ofNat n }
  | (7, .varint n) => some { i with nodeCount := UInt32.ofNat n }
  | (8, .varint n) => some { i with nodeId := UInt32.ofNat n }
  | (9, .varint n) => some { i with vmId := UInt64.ofNat n }
  | (11, .varint n) => some { i with maximalMemoryLimit := UInt64.ofNat n }
  | (13, .bytes bs) => (Utf8.text? bs).map fun s => { i with scriptSchema := s }
  | (14, .bytes bs) => (Utf8.text? bs).map fun s => { i with currentUser := some s }
  | (15, .bytes bs) => (Utf8.text? bs).map fun s => { i with currentSchema := some s }
  | (16, .bytes bs) => (Utf8.text? bs).map fun s => { i with scopeUser := some s }
  | (tag, _) =>
    -- There is no field 10, and field 12 is the `meta_info` that is skipped.
    if 1 ≤ tag ∧ tag ≤ 16 ∧ tag ≠ 10 ∧ tag ≠ 12 then none else some i

end ExascriptInfo

/-! ### Credentials -/

namespace ConnectionInformationRep

def fields (c : ConnectionInformationRep) : List Field :=
  [stringField 1 c.kind, stringField 2 c.address, stringField 3 c.user, stringField 4 c.password]

def empty : ConnectionInformationRep := ⟨"", "", "", ""⟩

def merge (c : ConnectionInformationRep) : Field → Option ConnectionInformationRep
  | (1, .bytes bs) => (Utf8.text? bs).map fun s => { c with kind := s }
  | (2, .bytes bs) => (Utf8.text? bs).map fun s => { c with address := s }
  | (3, .bytes bs) => (Utf8.text? bs).map fun s => { c with user := s }
  | (4, .bytes bs) => (Utf8.text? bs).map fun s => { c with password := s }
  | (tag, _) => if 1 ≤ tag ∧ tag ≤ 4 then none else some c

end ConnectionInformationRep

namespace ExascriptImportRep

def fields (i : ExascriptImportRep) : List Field :=
  optionField (stringField 2) i.exceptionMessage
  ++ optionField (fun c => messageField 3 c.fields) i.connectionInformation

def empty : ExascriptImportRep := ⟨none, none⟩

def merge (i : ExascriptImportRep) : Field → Option ExascriptImportRep
  | (2, .bytes bs) => (Utf8.text? bs).map fun s => { i with exceptionMessage := some s }
  | (3, .bytes bs) =>
    -- A message that comes twice is merged, like every message inside another one.
    (decodeMessage ConnectionInformationRep.merge
      (i.connectionInformation.getD .empty) bs).map fun c =>
        { i with connectionInformation := some c }
  | (tag, _) => if tag = 2 ∨ tag = 3 then none else some i

end ExascriptImportRep

/-! ### Single calls -/

namespace KeyValuePair

def fields (p : KeyValuePair) : List Field :=
  [stringField 1 p.key, stringField 2 p.value]

def empty : KeyValuePair := ⟨"", ""⟩

def merge (p : KeyValuePair) : Field → Option KeyValuePair
  | (1, .bytes bs) => (Utf8.text? bs).map fun s => { p with key := s }
  | (2, .bytes bs) => (Utf8.text? bs).map fun s => { p with value := s }
  | (tag, _) => if tag = 1 ∨ tag = 2 then none else some p

end KeyValuePair

namespace ImportSpecificationRep

def fields (s : ImportSpecificationRep) : List Field :=
  [boolField 1 s.isSubselect]
  ++ optionField (fun c => messageField 2 c.fields) s.connectionInformation
  ++ optionField (stringField 3) s.connectionName
  ++ s.subselectColumnSpecification.map (fun c => messageField 4 c.fields)
  ++ s.parameters.map (fun p => messageField 5 p.fields)

def empty : ImportSpecificationRep where
  isSubselect := false
  connectionInformation := none
  connectionName := none
  subselectColumnSpecification := []
  parameters := []

def merge (s : ImportSpecificationRep) : Field → Option ImportSpecificationRep
  | (1, .varint n) => some { s with isSubselect := boolOfVarint n }
  | (2, .bytes bs) =>
    (decodeMessage ConnectionInformationRep.merge
      (s.connectionInformation.getD .empty) bs).map fun c =>
        { s with connectionInformation := some c }
  | (3, .bytes bs) => (Utf8.text? bs).map fun t => { s with connectionName := some t }
  | (4, .bytes bs) => (decodeMessage ColumnDefinition.merge .empty bs).map fun c =>
    { s with subselectColumnSpecification := s.subselectColumnSpecification ++ [c] }
  | (5, .bytes bs) => (decodeMessage KeyValuePair.merge .empty bs).map fun p =>
    { s with parameters := s.parameters ++ [p] }
  | (tag, _) => if 1 ≤ tag ∧ tag ≤ 5 then none else some s

end ImportSpecificationRep

namespace ExportSpecificationRep

def fields (s : ExportSpecificationRep) : List Field :=
  [boolField 1 s.hasTruncate, boolField 2 s.hasReplace]
  ++ optionField (stringField 3) s.createdBy
  ++ s.sourceColumnNames.map (stringField 4)
  ++ optionField (fun c => messageField 5 c.fields) s.connectionInformation
  ++ optionField (stringField 6) s.connectionName
  ++ s.parameters.map (fun p => messageField 7 p.fields)

def empty : ExportSpecificationRep where
  hasTruncate := false
  hasReplace := false
  createdBy := none
  sourceColumnNames := []
  connectionInformation := none
  connectionName := none
  parameters := []

def merge (s : ExportSpecificationRep) : Field → Option ExportSpecificationRep
  | (1, .varint n) => some { s with hasTruncate := boolOfVarint n }
  | (2, .varint n) => some { s with hasReplace := boolOfVarint n }
  | (3, .bytes bs) => (Utf8.text? bs).map fun t => { s with createdBy := some t }
  | (4, .bytes bs) => (Utf8.text? bs).map fun t =>
    { s with sourceColumnNames := s.sourceColumnNames ++ [t] }
  | (5, .bytes bs) =>
    (decodeMessage ConnectionInformationRep.merge
      (s.connectionInformation.getD .empty) bs).map fun c =>
        { s with connectionInformation := some c }
  | (6, .bytes bs) => (Utf8.text? bs).map fun t => { s with connectionName := some t }
  | (7, .bytes bs) => (decodeMessage KeyValuePair.merge .empty bs).map fun p =>
    { s with parameters := s.parameters ++ [p] }
  | (tag, _) => if 1 ≤ tag ∧ tag ≤ 7 then none else some s

end ExportSpecificationRep

namespace ExascriptSingleCallRep

def fields (c : ExascriptSingleCallRep) : List Field :=
  [enumField 1 c.fn]
  ++ optionField (fun s => messageField 2 s.fields) c.importSpecification
  ++ optionField (stringField 3) c.jsonArg
  ++ optionField (fun s => messageField 4 s.fields) c.exportSpecification

def empty : ExascriptSingleCallRep := ⟨0, none, none, none⟩

def merge (c : ExascriptSingleCallRep) : Field → Option ExascriptSingleCallRep
  | (1, .varint n) => some { c with fn := i32OfVarint n }
  | (2, .bytes bs) =>
    (decodeMessage ImportSpecificationRep.merge
      (c.importSpecification.getD .empty) bs).map fun s =>
        { c with importSpecification := some s }
  | (3, .bytes bs) => (Utf8.text? bs).map fun s => { c with jsonArg := some s }
  | (4, .bytes bs) =>
    (decodeMessage ExportSpecificationRep.merge
      (c.exportSpecification.getD .empty) bs).map fun s =>
        { c with exportSpecification := some s }
  | (tag, _) => if 1 ≤ tag ∧ tag ≤ 4 then none else some c

end ExascriptSingleCallRep

/-! ### The envelope -/

namespace ExascriptResponse

/-- The fields in tag order. -/
def fields (r : ExascriptResponse) : List Field :=
  [enumField 1 r.type, u64Field 2 r.connectionId]
  ++ optionField (fun i => messageField 4 i.fields) r.info
  ++ optionField (fun m => messageField 5 m.fields) r.metadata
  ++ optionField (fun c => messageField 6 (optionField (stringField 1) c.exceptionMessage)) r.close
  ++ optionField (fun i => messageField 7 i.fields) r.importRep
  ++ optionField (fun t => messageField 8 [messageField 2 t.fields]) r.next
  ++ optionField (fun s => messageField 9 [stringField 1 s]) r.ping
  ++ optionField (fun c => messageField 10 c.fields) r.call

def encodeToVec (r : ExascriptResponse) : List UInt8 :=
  encodeFields r.fields

def empty : ExascriptResponse where
  type := 0
  connectionId := 0
  info := none
  metadata := none
  close := none
  importRep := none
  next := none
  ping := none
  call := none

/-- Merge one field of an `exascript_next_data_rep`. -/
def mergeNext (t : ExascriptTableData) : Field → Option ExascriptTableData
  | (2, .bytes bs) => decodeMessage ExascriptTableData.merge t bs
  | (tag, _) => if tag = 2 then none else some t

/-- Merge one field read off the wire. -/
def merge (r : ExascriptResponse) : Field → Option ExascriptResponse
  | (1, .varint n) => some { r with type := i32OfVarint n }
  | (2, .varint n) => some { r with connectionId := UInt64.ofNat n }
  | (4, .bytes bs) => (decodeMessage ExascriptInfo.merge (r.info.getD .empty) bs).map fun i =>
    { r with info := some i }
  | (5, .bytes bs) =>
    (decodeMessage ExascriptMetadata.merge (r.metadata.getD .empty) bs).map fun m =>
      { r with metadata := some m }
  | (6, .bytes bs) => (decodeMessage mergeClose (r.close.getD ⟨none⟩) bs).map fun c =>
    { r with close := some c }
  | (7, .bytes bs) =>
    (decodeMessage ExascriptImportRep.merge (r.importRep.getD .empty) bs).map fun i =>
      { r with importRep := some i }
  | (8, .bytes bs) => (decodeMessage mergeNext (r.next.getD .empty) bs).map fun t =>
    { r with next := some t }
  | (9, .bytes bs) => (decodeMessage mergeText (r.ping.getD "") bs).map fun s =>
    { r with ping := some s }
  | (10, .bytes bs) =>
    (decodeMessage ExascriptSingleCallRep.merge (r.call.getD .empty) bs).map fun c =>
      { r with call := some c }
  | (tag, _) => if 1 ≤ tag ∧ tag ≤ 10 ∧ tag ≠ 3 then none else some r

def decode (bs : List UInt8) : Option ExascriptResponse :=
  decodeMessage merge empty bs

end ExascriptResponse

end ExaUdf
