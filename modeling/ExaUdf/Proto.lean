import ExaUdf.Lib.Protobuf
import ExaUdf.Value

/-!
# The messages of the control channel

The protobuf messages the client and the database exchange, with enumerations kept as the raw
numbers a frame carries, and the proto2 encoding of a request, `ExascriptRequest.encodeToVec`, with
the decoder a database reads it by.

`ExascriptRequest.info` is never set by a client and left out.
-/

namespace ExaUdf

open Protobuf

inductive MessageType where
  | mtUnknown | mtClient | mtInfo | mtMeta | mtClose | mtImport | mtNext | mtReset | mtEmit
  | mtRun | mtDone | mtCleanup | mtFinished | mtPingPong | mtTryAgain | mtCall | mtReturn
  | mtUndefinedCall
  deriving DecidableEq, Repr

namespace MessageType

def all : List MessageType :=
  [mtUnknown, mtClient, mtInfo, mtMeta, mtClose, mtImport, mtNext, mtReset, mtEmit, mtRun, mtDone,
    mtCleanup, mtFinished, mtPingPong, mtTryAgain, mtCall, mtReturn, mtUndefinedCall]

/-- The number of a message type on the wire. -/
def toI32 (mt : MessageType) : Int32 :=
  Int32.ofNat (all.idxOf mt)

/-- `MessageType::try_from`. -/
def tryFrom (n : Int32) : Option MessageType :=
  if 0 ≤ n.toInt then all[n.toInt.toNat]? else none

end MessageType

inductive ColumnType where
  | pbUnsupported | pbDouble | pbInt32 | pbInt64 | pbNumeric | pbTimestamp | pbDate | pbString
  | pbBoolean
  deriving DecidableEq, Repr

/-- `ColumnType::try_from`. -/
def ColumnType.tryFrom (n : Int32) : Option ColumnType :=
  if 0 ≤ n.toInt then
    [pbUnsupported, pbDouble, pbInt32, pbInt64, pbNumeric, pbTimestamp, pbDate, pbString,
      pbBoolean][n.toInt.toNat]?
  else none

inductive SingleCallFunctionId where
  | scFnNil | scFnDefaultOutputColumns | scFnVirtualSchemaAdapterCall
  | scFnGenerateSqlForImportSpec | scFnGenerateSqlForExportSpec
  deriving DecidableEq, Repr

/-- `SingleCallFunctionId::try_from`. -/
def SingleCallFunctionId.tryFrom (n : Int32) : Option SingleCallFunctionId :=
  if 0 ≤ n.toInt then
    [scFnNil, scFnDefaultOutputColumns, scFnVirtualSchemaAdapterCall,
      scFnGenerateSqlForImportSpec, scFnGenerateSqlForExportSpec][n.toInt.toNat]?
  else none

structure ColumnDefinition where
  name : String
  type : Option Int32
  typeName : String
  size : Option UInt32
  precision : Option UInt32
  scale : Option UInt32
  deriving DecidableEq, Repr

structure ExascriptMetadata where
  inputIterType : Int32
  outputIterType : Int32
  inputColumns : List ColumnDefinition
  outputColumns : List ColumnDefinition
  singleCallMode : Bool
  deriving DecidableEq, Repr

/-- Input and output rows.  Each block is dense: a NULL cell has a bit in `dataNulls` and nothing
in the block of its column's type. -/
structure ExascriptTableData where
  rows : Nat
  rowsInGroup : UInt64
  dataString : List (List UInt8)
  dataNulls : List Bool
  dataBool : List Bool
  dataInt32 : List Int32
  dataInt64 : List Int64
  dataDouble : List F64
  rowNumber : List UInt64
  deriving DecidableEq, Repr

structure ExascriptInfo where
  databaseName : String
  databaseVersion : String
  scriptName : String
  sourceCode : String
  sessionId : UInt64
  statementId : UInt32
  nodeCount : UInt32
  nodeId : UInt32
  vmId : UInt64
  maximalMemoryLimit : UInt64
  scriptSchema : String
  currentUser : Option String
  currentSchema : Option String
  scopeUser : Option String
  deriving DecidableEq, Repr

structure ConnectionInformationRep where
  kind : String
  address : String
  user : String
  password : String
  deriving DecidableEq, Repr

structure ExascriptImportRep where
  exceptionMessage : Option String
  connectionInformation : Option ConnectionInformationRep
  deriving DecidableEq, Repr

structure KeyValuePair where
  key : String
  value : String
  deriving DecidableEq, Repr

structure ImportSpecificationRep where
  isSubselect : Bool
  connectionInformation : Option ConnectionInformationRep
  connectionName : Option String
  subselectColumnSpecification : List ColumnDefinition
  parameters : List KeyValuePair
  deriving DecidableEq, Repr

structure ExportSpecificationRep where
  hasTruncate : Bool
  hasReplace : Bool
  createdBy : Option String
  sourceColumnNames : List String
  connectionInformation : Option ConnectionInformationRep
  connectionName : Option String
  parameters : List KeyValuePair
  deriving DecidableEq, Repr

structure ExascriptSingleCallRep where
  fn : Int32
  importSpecification : Option ImportSpecificationRep
  jsonArg : Option String
  exportSpecification : Option ExportSpecificationRep
  deriving DecidableEq, Repr

/-- `exascript_close`, in both directions. -/
structure ExascriptClose where
  exceptionMessage : Option String
  deriving DecidableEq, Repr

/-- A message from the database. -/
structure ExascriptResponse where
  type : Int32
  connectionId : UInt64
  info : Option ExascriptInfo
  metadata : Option ExascriptMetadata
  close : Option ExascriptClose
  importRep : Option ExascriptImportRep
  next : Option ExascriptTableData
  ping : Option String
  call : Option ExascriptSingleCallRep
  deriving DecidableEq, Repr

structure ExascriptImportReq where
  scriptName : String
  kind : Option Int32
  deriving DecidableEq, Repr

structure ExascriptClient where
  clientName : String
  metaInfo : Option String
  deriving DecidableEq, Repr

/-- A message to the database. -/
structure ExascriptRequest where
  type : Int32
  connectionId : UInt64
  client : Option ExascriptClient
  close : Option ExascriptClose
  importReq : Option ExascriptImportReq
  emit : Option ExascriptTableData
  ping : Option String
  callResult : Option String
  undefinedCall : Option String
  deriving DecidableEq, Repr

/-! ### Scalars on the wire -/

/-- An `int32` travels sign-extended to 64 bits. -/
def varintOfI32 (i : Int32) : Nat :=
  i.toInt64.toUInt64.toNat

def i32OfVarint (n : Nat) : Int32 :=
  (UInt64.ofNat n).toInt64.toInt32

def varintOfI64 (i : Int64) : Nat :=
  i.toUInt64.toNat

def i64OfVarint (n : Nat) : Int64 :=
  (UInt64.ofNat n).toInt64

def varintOfBool (b : Bool) : Nat :=
  b.toNat

def boolOfVarint (n : Nat) : Bool :=
  n != 0

/-! ### Encoding -/

def stringField (tag : Nat) (s : String) : Field :=
  (tag, .bytes (Utf8.bytes s))

def messageField (tag : Nat) (fields : List Field) : Field :=
  (tag, .bytes (encodeFields fields))

namespace ExascriptTableData

/-- The fields in tag order. -/
def fields (t : ExascriptTableData) : List Field :=
  [(1, .varint t.rows)]
  ++ t.dataString.map (fun cell => (2, .bytes cell))
  ++ packedField 3 (packVarints (t.dataNulls.map varintOfBool))
  ++ packedField 4 (packVarints (t.dataBool.map varintOfBool))
  ++ packedField 5 (packVarints (t.dataInt32.map varintOfI32))
  ++ packedField 6 (packVarints (t.dataInt64.map varintOfI64))
  ++ packedField 7 (packFixed64 (t.dataDouble.map F64.bits))
  ++ [(8, .varint t.rowsInGroup.toNat)]
  ++ packedField 9 (packVarints (t.rowNumber.map UInt64.toNat))

def empty : ExascriptTableData where
  rows := 0
  rowsInGroup := 0
  dataString := []
  dataNulls := []
  dataBool := []
  dataInt32 := []
  dataInt64 := []
  dataDouble := []
  rowNumber := []

/-- Merge one field read off the wire.  A repeated number may also come by itself. -/
def merge (t : ExascriptTableData) : Field → Option ExascriptTableData
  | (1, .varint n) => some { t with rows := n }
  | (2, .bytes bs) => some { t with dataString := t.dataString ++ [bs] }
  | (3, .bytes bs) => (unpackVarints bs).map fun ns =>
    { t with dataNulls := t.dataNulls ++ ns.map boolOfVarint }
  | (3, .varint n) => some { t with dataNulls := t.dataNulls ++ [boolOfVarint n] }
  | (4, .bytes bs) => (unpackVarints bs).map fun ns =>
    { t with dataBool := t.dataBool ++ ns.map boolOfVarint }
  | (4, .varint n) => some { t with dataBool := t.dataBool ++ [boolOfVarint n] }
  | (5, .bytes bs) => (unpackVarints bs).map fun ns =>
    { t with dataInt32 := t.dataInt32 ++ ns.map i32OfVarint }
  | (5, .varint n) => some { t with dataInt32 := t.dataInt32 ++ [i32OfVarint n] }
  | (6, .bytes bs) => (unpackVarints bs).map fun ns =>
    { t with dataInt64 := t.dataInt64 ++ ns.map i64OfVarint }
  | (6, .varint n) => some { t with dataInt64 := t.dataInt64 ++ [i64OfVarint n] }
  | (7, .bytes bs) => (unpackFixed64 bs).map fun ws =>
    { t with dataDouble := t.dataDouble ++ ws.map F64.mk }
  | (7, .fixed64 w) => some { t with dataDouble := t.dataDouble ++ [⟨w⟩] }
  | (8, .varint n) => some { t with rowsInGroup := UInt64.ofNat n }
  | (9, .bytes bs) => (unpackVarints bs).map fun ns =>
    { t with rowNumber := t.rowNumber ++ ns.map UInt64.ofNat }
  | (9, .varint n) => some { t with rowNumber := t.rowNumber ++ [UInt64.ofNat n] }
  | (tag, _) => if 1 ≤ tag ∧ tag ≤ 9 then none else some t

def decode (bs : List UInt8) : Option ExascriptTableData :=
  decodeMessage merge empty bs

end ExascriptTableData

namespace ExascriptRequest

def optionField {α : Type} (f : α → Field) (a : Option α) : List Field :=
  a.toList.map f

/-- The fields in tag order. -/
def fields (r : ExascriptRequest) : List Field :=
  [(1, .varint (varintOfI32 r.type)), (2, .varint r.connectionId.toNat)]
  ++ optionField (fun c => messageField 3 (stringField 1 c.clientName ::
      optionField (stringField 2) c.metaInfo)) r.client
  ++ optionField (fun c => messageField 5 (optionField (stringField 1) c.exceptionMessage)) r.close
  ++ optionField (fun i => messageField 6 (stringField 1 i.scriptName ::
      optionField (fun k => (2, .varint (varintOfI32 k))) i.kind)) r.importReq
  ++ optionField (fun t => messageField 7 [messageField 2 t.fields]) r.emit
  ++ optionField (fun s => messageField 8 [stringField 1 s]) r.ping
  ++ optionField (fun s => messageField 9 [stringField 1 s]) r.callResult
  ++ optionField (fun s => messageField 10 [stringField 1 s]) r.undefinedCall

def encodeToVec (r : ExascriptRequest) : List UInt8 :=
  encodeFields r.fields

def empty : ExascriptRequest where
  type := 0
  connectionId := 0
  client := none
  close := none
  importReq := none
  emit := none
  ping := none
  callResult := none
  undefinedCall := none

/-- Merge one field of a message with a single text, field 1. -/
def mergeText (old : String) : Field → Option String
  | (1, .bytes bs) => Utf8.text? bs
  | (tag, _) => if tag = 1 then none else some old

def mergeClient (c : ExascriptClient) : Field → Option ExascriptClient
  | (1, .bytes bs) => (Utf8.text? bs).map fun s => { c with clientName := s }
  | (2, .bytes bs) => (Utf8.text? bs).map fun s => { c with metaInfo := some s }
  | (tag, _) => if tag = 1 ∨ tag = 2 then none else some c

def mergeClose (c : ExascriptClose) : Field → Option ExascriptClose
  | (1, .bytes bs) => (Utf8.text? bs).map fun s => { c with exceptionMessage := some s }
  | (tag, _) => if tag = 1 then none else some c

def mergeImport (i : ExascriptImportReq) : Field → Option ExascriptImportReq
  | (1, .bytes bs) => (Utf8.text? bs).map fun s => { i with scriptName := s }
  | (2, .varint n) => some { i with kind := some (i32OfVarint n) }
  | (tag, _) => if tag = 1 ∨ tag = 2 then none else some i

def mergeEmit (t : ExascriptTableData) : Field → Option ExascriptTableData
  | (2, .bytes bs) => decodeMessage ExascriptTableData.merge t bs
  | (tag, _) => if tag = 2 then none else some t

/-- Merge one field read off the wire.  A message that comes twice is merged with itself. -/
def merge (r : ExascriptRequest) : Field → Option ExascriptRequest
  | (1, .varint n) => some { r with type := i32OfVarint n }
  | (2, .varint n) => some { r with connectionId := UInt64.ofNat n }
  | (3, .bytes bs) => (decodeMessage mergeClient (r.client.getD ⟨"", none⟩) bs).map fun c =>
    { r with client := some c }
  | (5, .bytes bs) => (decodeMessage mergeClose (r.close.getD ⟨none⟩) bs).map fun c =>
    { r with close := some c }
  | (6, .bytes bs) => (decodeMessage mergeImport (r.importReq.getD ⟨"", none⟩) bs).map fun i =>
    { r with importReq := some i }
  | (7, .bytes bs) => (decodeMessage mergeEmit (r.emit.getD ExascriptTableData.empty) bs).map
    fun t => { r with emit := some t }
  | (8, .bytes bs) => (decodeMessage mergeText (r.ping.getD "") bs).map fun s =>
    { r with ping := some s }
  | (9, .bytes bs) => (decodeMessage mergeText (r.callResult.getD "") bs).map fun s =>
    { r with callResult := some s }
  | (10, .bytes bs) => (decodeMessage mergeText (r.undefinedCall.getD "") bs).map fun s =>
    { r with undefinedCall := some s }
  | (tag, _) => if 1 ≤ tag ∧ tag ≤ 10 then none else some r

/-- Read a request as the clients of this repository write it.  On other frames the generated
decoder differs: it knows `info`, field 4, passes over groups and 32-bit fields, and bounds keys and
numbers. -/
def decode (bs : List UInt8) : Option ExascriptRequest :=
  decodeMessage merge empty bs

end ExascriptRequest

end ExaUdf
