import ExaUdf.Proto

/-!
# MT_EMIT frames

`EmitTable` holds output rows as the blocks of an `MT_EMIT`, with the string block already in its
wire form, and `EmitRequest.encodeFrame` writes the request around it.  The frame is meant to be
the bytes of the equivalent `ExascriptRequest`; see `Equiv.Frame`.

Vectors are lists and their capacities are not modelled, so `clear` has no retention bound and
`reserve_strings` does nothing.
-/

namespace ExaUdf

open Protobuf

/-! ### The field writers of the protobuf library, each with its length function -/

def keyLen (tag : Nat) : Nat :=
  Varint.size (8 * tag)

def encodeVarintField (tag n : Nat) : List UInt8 :=
  encodeKey tag 0 ++ Varint.encode n

def varintFieldLen (tag n : Nat) : Nat :=
  keyLen tag + Varint.size n

def encodePackedVarints (tag : Nat) (ns : List Nat) : List UInt8 :=
  if ns = [] then []
  else encodeKey tag 2 ++ Varint.encode (ns.map Varint.size).sum ++ packVarints ns

def packedVarintsLen (tag : Nat) (ns : List Nat) : Nat :=
  if ns = [] then 0
  else
    let len := (ns.map Varint.size).sum
    keyLen tag + Varint.size len + len

def encodePackedDoubles (tag : Nat) (fs : List F64) : List UInt8 :=
  if fs = [] then []
  else encodeKey tag 2 ++ Varint.encode (8 * fs.length) ++ packFixed64 (fs.map F64.bits)

def packedDoublesLen (tag : Nat) (fs : List F64) : Nat :=
  if fs = [] then 0
  else
    let len := 8 * fs.length
    keyLen tag + Varint.size len + len

/-! ### Tables -/

/-- The wire form of string cells: fields 2 of a table, one after the other. -/
def cellBlock (cells : List (List UInt8)) : List UInt8 :=
  encodeFields (cells.map fun cell => (2, .bytes cell))

/-- Output rows as the blocks of an `MT_EMIT`. -/
structure EmitTable where
  rows : Nat
  /-- The string cells in wire form: key, length, bytes. -/
  strings : List UInt8
  nulls : List Bool
  bools : List Bool
  int32 : List Int32
  int64 : List Int64
  doubles : List F64
  rowNumbers : List UInt64
  deriving DecidableEq, Repr

namespace EmitTable

def default : EmitTable where
  rows := 0
  strings := []
  nulls := []
  bools := []
  int32 := []
  int64 := []
  doubles := []
  rowNumbers := []

/-- The key of every string cell: field 2, length-delimited. -/
def stringKey : UInt8 := 18

def pushString (t : EmitTable) (s : List UInt8) : EmitTable :=
  { t with strings :=
      (if s.length < 128 then t.strings ++ [stringKey, UInt8.ofNat s.length]
        else t.strings ++ encodeKey 2 2 ++ Varint.encode s.length) ++ s }

/-- Append the cell that `write` appends to the block it is given.  The length prefix is reserved
as one byte and widened only for a cell of 128 bytes or more. -/
def pushStringWith (t : EmitTable) (write : List UInt8 → List UInt8) : EmitTable :=
  let keyed := t.strings ++ encodeKey 2 2
  let at' := keyed.length
  let written := write (keyed ++ [0])
  let len := written.length - at' - 1
  { t with strings :=
      if len < 128 then written.set at' (UInt8.ofNat len)
      else written.take at' ++ Varint.encode len ++ written.drop (at' + 1) }

def clear (_t : EmitTable) : EmitTable :=
  default

/-- Walk at most `fuel` cells of a string block.  `none` is the panic on a malformed block. -/
def stringCellsAux : Nat → List UInt8 → Option (List (List UInt8))
  | _, [] => some []
  | 0, _ :: _ => none
  | fuel + 1, _ :: rest => (Varint.decode rest).bind fun p =>
    if p.1 ≤ p.2.length then
      (stringCellsAux fuel (p.2.drop p.1)).map (p.2.take p.1 :: ·)
    else none

/-- The cells of the string block; every cell takes at least a byte. -/
def stringCells (t : EmitTable) : Option (List (List UInt8)) :=
  stringCellsAux t.strings.length t.strings

def toProto (t : EmitTable) : Option ExascriptTableData :=
  t.stringCells.map fun cells =>
    { rows := t.rows
      rowsInGroup := 0
      dataString := cells
      dataNulls := t.nulls
      dataBool := t.bools
      dataInt32 := t.int32
      dataInt64 := t.int64
      dataDouble := t.doubles
      rowNumber := t.rowNumbers }

def encodedLen (t : EmitTable) : Nat :=
  varintFieldLen 1 t.rows
    + t.strings.length
    + packedVarintsLen 3 (t.nulls.map varintOfBool)
    + packedVarintsLen 4 (t.bools.map varintOfBool)
    + packedVarintsLen 5 (t.int32.map varintOfI32)
    + packedVarintsLen 6 (t.int64.map varintOfI64)
    + packedDoublesLen 7 t.doubles
    + varintFieldLen 8 0
    + packedVarintsLen 9 (t.rowNumbers.map UInt64.toNat)

/-- The fields in tag order. -/
def encodeRaw (t : EmitTable) : List UInt8 :=
  encodeVarintField 1 t.rows
    ++ t.strings
    ++ encodePackedVarints 3 (t.nulls.map varintOfBool)
    ++ encodePackedVarints 4 (t.bools.map varintOfBool)
    ++ encodePackedVarints 5 (t.int32.map varintOfI32)
    ++ encodePackedVarints 6 (t.int64.map varintOfI64)
    ++ encodePackedDoubles 7 t.doubles
    ++ encodeVarintField 8 0
    ++ encodePackedVarints 9 (t.rowNumbers.map UInt64.toNat)

/-- A writer that leaves what it is given in place and appends to it. -/
def Appends (write : List UInt8 → List UInt8) : Prop :=
  ∀ bs, ∃ cell, write bs = bs ++ cell

/-- A table made through its own API: string cells are pushed, the public blocks are written
directly, and everything may be cleared. -/
inductive Built : EmitTable → Prop where
  | default : Built default
  | pushString {t : EmitTable} (s : List UInt8) : Built t → Built (t.pushString s)
  | pushStringWith {t : EmitTable} {write : List UInt8 → List UInt8} :
    Appends write → Built t → Built (t.pushStringWith write)
  | blocks {t : EmitTable} (rows : Nat) (nulls bools : List Bool) (int32 : List Int32)
      (int64 : List Int64) (doubles : List F64) (rowNumbers : List UInt64) : Built t →
    Built { t with
      rows := rows, nulls := nulls, bools := bools, int32 := int32, int64 := int64,
      doubles := doubles, rowNumbers := rowNumbers }
  | clear {t : EmitTable} : Built t → Built t.clear

end EmitTable

/-- An `MT_EMIT` request, encoded byte-identically to the equivalent `ExascriptRequest`. -/
structure EmitRequest where
  connectionId : UInt64
  table : EmitTable
  deriving DecidableEq, Repr

namespace EmitRequest

def messageType (_r : EmitRequest) : Int32 :=
  MessageType.mtEmit.toI32

def tableLen (r : EmitRequest) : Nat :=
  r.table.encodedLen

def emitLen (r : EmitRequest) : Nat :=
  1 + Varint.size r.tableLen + r.tableLen

def encodeFrame (r : EmitRequest) : List UInt8 :=
  encodeVarintField 1 (varintOfI32 r.messageType)
    ++ encodeVarintField 2 r.connectionId.toNat
    ++ encodeKey 7 2 ++ Varint.encode r.emitLen
    ++ encodeKey 2 2 ++ Varint.encode r.tableLen
    ++ r.table.encodeRaw

/-- The `ExascriptRequest` that `r` stands for, given its table as a protobuf message. -/
def toRequest (r : EmitRequest) (data : ExascriptTableData) : ExascriptRequest :=
  { ExascriptRequest.empty with
    type := r.messageType, connectionId := r.connectionId, emit := some data }

end EmitRequest

end ExaUdf
