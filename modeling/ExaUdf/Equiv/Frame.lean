import ExaUdf.Frame
import ExaUdf.Equiv.Proto

/-!
# The hand-written MT_EMIT encoding is the protobuf encoding

A table built through its own API keeps its string block in the form `cellBlock cells`
(`EmitTable.Built.exists_cells`).  On such a table `encodeRaw` writes the fields of `toProto`
(`EmitTable.encodeRaw_eq`), `encodedLen` counts them (`EmitTable.encodeRaw_length`), and the frame
is the request (`EmitRequest.encodeFrame_eq_encodeToVec`).
-/

namespace ExaUdf

open Protobuf

/-! ### Field writers -/

theorem encodeKey_length (tag : Nat) {wireType : Nat} (h : wireType < 8) :
    (encodeKey tag wireType).length = keyLen tag := by
  rw [encodeKey, Varint.encode_length, keyLen]
  by_cases hn : 8 * tag < 128
  · rw [Varint.size_of_lt hn, Varint.size_of_lt (by omega)]
  · have hdiv : (8 * tag + wireType) / 128 = 8 * tag / 128 := by omega
    rw [Varint.size_of_le (n := 8 * tag + wireType) (by omega),
      Varint.size_of_le (n := 8 * tag) (by omega), hdiv]

theorem encodeVarintField_eq (tag n : Nat) :
    encodeVarintField tag n = encodeField (tag, .varint n) := rfl

theorem encodeVarintField_length (tag n : Nat) :
    (encodeVarintField tag n).length = varintFieldLen tag n := by
  rw [encodeVarintField, List.length_append, encodeKey_length tag (by omega),
    Varint.encode_length, varintFieldLen]

theorem packVarints_length (ns : List Nat) :
    (packVarints ns).length = (ns.map Varint.size).sum := by
  induction ns with
  | nil => rfl
  | cons n ns ih =>
    have hpack : packVarints (n :: ns) = Varint.encode n ++ packVarints ns := rfl
    rw [hpack, List.length_append, ih, Varint.encode_length, List.map_cons, List.sum_cons]

theorem packFixed64_length (ws : List UInt64) : (packFixed64 ws).length = 8 * ws.length := by
  induction ws with
  | nil => rfl
  | cons w ws ih =>
    have hpack : packFixed64 (w :: ws) = le64 w ++ packFixed64 ws := rfl
    rw [hpack, List.length_append, ih, le64_length, List.length_cons]
    omega

theorem encodePackedVarints_eq (tag : Nat) (ns : List Nat) :
    encodePackedVarints tag ns = encodeFields (packedField tag (packVarints ns)) := by
  rw [encodePackedVarints, packedField]
  by_cases h : ns = []
  · rw [if_pos h, if_pos (by rw [h]; rfl)]
    rfl
  · rw [if_neg h, if_neg fun hp => h (ExascriptTableData.packVarints_eq_nil hp), encodeFields_cons,
      encodeFields_nil, List.append_nil, encodeField, encodePayload, packVarints_length,
      List.append_assoc]
    rfl

theorem encodePackedVarints_length (tag : Nat) (ns : List Nat) :
    (encodePackedVarints tag ns).length = packedVarintsLen tag ns := by
  rw [encodePackedVarints, packedVarintsLen]
  split_ifs with h
  · rfl
  · rw [List.length_append, List.length_append, encodeKey_length tag (by omega),
      Varint.encode_length, packVarints_length]

theorem encodePackedDoubles_eq (tag : Nat) (fs : List F64) :
    encodePackedDoubles tag fs
      = encodeFields (packedField tag (packFixed64 (fs.map F64.bits))) := by
  rw [encodePackedDoubles, packedField]
  by_cases h : fs = []
  · rw [if_pos h, if_pos (by rw [h]; rfl)]
    rfl
  · have hne : packFixed64 (fs.map F64.bits) ≠ [] := fun hp =>
      h (List.map_eq_nil_iff.mp (ExascriptTableData.packFixed64_eq_nil hp))
    rw [if_neg h, if_neg hne, encodeFields_cons, encodeFields_nil, List.append_nil, encodeField,
      encodePayload, packFixed64_length, List.length_map, List.append_assoc]
    rfl

theorem encodePackedDoubles_length (tag : Nat) (fs : List F64) :
    (encodePackedDoubles tag fs).length = packedDoublesLen tag fs := by
  rw [encodePackedDoubles, packedDoublesLen]
  split_ifs with h
  · rfl
  · rw [List.length_append, List.length_append, encodeKey_length tag (by omega),
      Varint.encode_length, packFixed64_length, List.length_map]

/-! ### The string block -/

theorem cellBlock_append_singleton (cells : List (List UInt8)) (cell : List UInt8) :
    cellBlock (cells ++ [cell])
      = cellBlock cells ++ (encodeKey 2 2 ++ Varint.encode cell.length ++ cell) := by
  rw [cellBlock, List.map_append, encodeFields_append, List.map_singleton, encodeFields_cons,
    encodeFields_nil, List.append_nil, encodeField, encodePayload, List.append_assoc]
  rfl

namespace EmitTable

theorem pushString_strings (t : EmitTable) (s : List UInt8) :
    (t.pushString s).strings = t.strings ++ (encodeKey 2 2 ++ Varint.encode s.length ++ s) := by
  have hkey : encodeKey 2 2 = [stringKey] := by
    rw [encodeKey, Varint.encode_of_lt (by decide)]
    rfl
  rw [pushString]
  split_ifs with h
  · rw [Varint.encode_of_lt h, hkey, List.append_assoc]
    rfl
  · simp only [List.append_assoc]

theorem pushStringWith_strings (t : EmitTable) {write : List UInt8 → List UInt8}
    {cell : List UInt8} (h : write (t.strings ++ encodeKey 2 2 ++ [0])
      = t.strings ++ encodeKey 2 2 ++ [0] ++ cell) :
    (t.pushStringWith write).strings
      = t.strings ++ (encodeKey 2 2 ++ Varint.encode cell.length ++ cell) := by
  rw [pushStringWith, h]
  simp only [← List.append_assoc]
  generalize t.strings ++ encodeKey 2 2 = keyed
  have hlen : (keyed ++ [0] ++ cell).length - keyed.length - 1 = cell.length := by
    simp only [List.length_append, List.length_singleton]
    omega
  rw [hlen]
  split_ifs with hcell
  · rw [Varint.encode_of_lt hcell, List.append_assoc, List.append_assoc,
      List.set_append_right _ _ (Nat.le_refl _), Nat.sub_self]
    rfl
  · have htake : (keyed ++ [0] ++ cell).take keyed.length = keyed := by
      rw [List.append_assoc, List.take_left]
    have hdrop : (keyed ++ [0] ++ cell).drop (keyed.length + 1) = cell := by
      rw [← List.length_singleton (a := (0 : UInt8)), ← List.length_append, List.drop_left]
    rw [htake, hdrop]

/-- The cells pushed so far. -/
theorem Built.exists_cells {t : EmitTable} (h : Built t) :
    ∃ cells, t.strings = cellBlock cells := by
  induction h with
  | default => exact ⟨[], rfl⟩
  | pushString s _ ih =>
    obtain ⟨cells, hcells⟩ := ih
    exact ⟨cells ++ [s], by rw [pushString_strings, hcells, cellBlock_append_singleton]⟩
  | @pushStringWith t write hwrite _ ih =>
    obtain ⟨cells, hcells⟩ := ih
    obtain ⟨cell, hcell⟩ := hwrite (t.strings ++ encodeKey 2 2 ++ [0])
    exact ⟨cells ++ [cell],
      by rw [pushStringWith_strings t hcell, hcells, cellBlock_append_singleton]⟩
  | blocks _ _ _ _ _ _ _ _ ih => exact ih
  | clear _ _ => exact ⟨[], rfl⟩

theorem stringCellsAux_cellBlock (cells : List (List UInt8)) :
    ∀ fuel : Nat, cells.length ≤ fuel → stringCellsAux fuel (cellBlock cells) = some cells := by
  induction cells with
  | nil => intro fuel _; cases fuel <;> rfl
  | cons cell cells ih =>
    intro fuel hfuel
    have hkey : encodeKey 2 2 = [stringKey] := by
      rw [encodeKey, Varint.encode_of_lt (by decide)]
      rfl
    have hblock : cellBlock (cell :: cells)
        = stringKey :: (Varint.encode cell.length ++ (cell ++ cellBlock cells)) := by
      have hcons : cellBlock (cell :: cells)
          = encodeKey 2 2 ++ (Varint.encode cell.length ++ cell) ++ cellBlock cells := rfl
      rw [hcons, hkey, List.singleton_append, List.cons_append, List.append_assoc]
    cases fuel with
    | zero => simp at hfuel
    | succ fuel =>
      rw [hblock, stringCellsAux, Varint.decode_encode, Option.bind_some]
      simp only [List.length_append, Nat.le_add_right, if_true, List.take_left, List.drop_left]
      rw [ih fuel (by simpa using hfuel), Option.map_some]

/-- Walking a string block gives its cells. -/
theorem stringCells_eq {t : EmitTable} {cells : List (List UInt8)}
    (h : t.strings = cellBlock cells) : t.stringCells = some cells := by
  rw [stringCells, h]
  refine stringCellsAux_cellBlock cells _ ?_
  have hle := length_le_encodeFields (cells.map fun cell => (2, .bytes cell))
  rwa [List.length_map] at hle

/-- The table as a protobuf message, given its string cells. -/
def protoOf (t : EmitTable) (cells : List (List UInt8)) : ExascriptTableData where
  rows := t.rows
  rowsInGroup := 0
  dataString := cells
  dataNulls := t.nulls
  dataBool := t.bools
  dataInt32 := t.int32
  dataInt64 := t.int64
  dataDouble := t.doubles
  rowNumber := t.rowNumbers

theorem toProto_eq {t : EmitTable} {cells : List (List UInt8)}
    (h : t.strings = cellBlock cells) : t.toProto = some (t.protoOf cells) := by
  rw [toProto, stringCells_eq h, Option.map_some]
  rfl

/-! ### The body -/

/-- `encodeRaw` writes the fields of the protobuf table. -/
theorem encodeRaw_eq {t : EmitTable} {cells : List (List UInt8)}
    (h : t.strings = cellBlock cells) :
    t.encodeRaw = encodeFields (t.protoOf cells).fields := by
  simp only [ExascriptTableData.fields, protoOf, encodeFields_append, encodeFields_cons,
    encodeFields_nil, List.append_nil, ← encodePackedVarints_eq, ← encodePackedDoubles_eq,
    ← encodeVarintField_eq]
  rw [encodeRaw, h, cellBlock]
  rfl

/-- The separate length function counts what `encodeRaw` writes, on any table. -/
theorem encodeRaw_length (t : EmitTable) : t.encodeRaw.length = t.encodedLen := by
  simp only [encodeRaw, encodedLen, List.length_append, encodeVarintField_length,
    encodePackedVarints_length, encodePackedDoubles_length]

end EmitTable

/-! ### The frame -/

namespace EmitRequest

open EmitTable

theorem encodeKey_two : (encodeKey 2 2).length = 1 := by
  rw [encodeKey_length 2 (by omega), keyLen, Varint.size_of_lt (by omega)]

/-- What follows the outer length prefix has that length. -/
theorem emit_length (r : EmitRequest) :
    (encodeKey 2 2 ++ Varint.encode r.tableLen ++ r.table.encodeRaw).length = r.emitLen := by
  rw [List.length_append, List.length_append, encodeKey_two, Varint.encode_length,
    encodeRaw_length, emitLen, tableLen]

/-- **The frame of an `MT_EMIT`** is byte for byte the protobuf encoding of the request, its
length prefixes count the bytes that follow them (those inside the table are the ones `encodeFields`
writes in front of its `bytes` values), and decoding it gives the request back. -/
theorem encodeFrame_eq_encodeToVec (r : EmitRequest) (h : Built r.table) :
    ∃ data, r.table.toProto = some data ∧
      r.encodeFrame = (r.toRequest data).encodeToVec ∧
      (∃ header body, r.encodeFrame = header ++ Varint.encode r.emitLen ++ body ∧
        body.length = r.emitLen ∧
        body = encodeKey 2 2 ++ Varint.encode r.tableLen ++ r.table.encodeRaw ∧
        r.table.encodeRaw.length = r.tableLen ∧
        r.table.encodeRaw = encodeFields data.fields) ∧
      ExascriptRequest.decode r.encodeFrame = some (r.toRequest data) := by
  obtain ⟨cells, hcells⟩ := h.exists_cells
  have hraw := encodeRaw_eq hcells
  have htable : r.tableLen = (encodeFields (r.table.protoOf cells).fields).length := by
    rw [← hraw, encodeRaw_length, tableLen]
  -- The table goes into a message of its own, whose length is known before it is written.
  have hinner : encodeKey 2 2 ++ Varint.encode r.tableLen ++ r.table.encodeRaw
      = encodeFields [messageField 2 (r.table.protoOf cells).fields] := by
    rw [encodeFields_cons, encodeFields_nil, List.append_nil, messageField, encodeField,
      encodePayload, hraw, htable, List.append_assoc]
    rfl
  have hframe : r.encodeFrame = (r.toRequest (r.table.protoOf cells)).encodeToVec := by
    have hfields : (r.toRequest (r.table.protoOf cells)).fields
        = [(1, .varint (varintOfI32 r.messageType)), (2, .varint r.connectionId.toNat),
          messageField 7 [messageField 2 (r.table.protoOf cells).fields]] := rfl
    have hlen := emit_length r
    rw [hinner] at hlen
    rw [ExascriptRequest.encodeToVec, hfields, encodeFields_cons, encodeFields_cons,
      encodeFields_cons, encodeFields_nil, List.append_nil, messageField, encodeField, encodeField,
      encodeField, encodePayload, encodePayload, encodePayload, hlen, ← hinner, encodeFrame]
    simp only [encodeVarintField, List.append_assoc]
    rfl
  refine ⟨r.table.protoOf cells, toProto_eq hcells, hframe,
    ⟨encodeVarintField 1 (varintOfI32 r.messageType) ++ encodeVarintField 2 r.connectionId.toNat
      ++ encodeKey 7 2, _, ?_, emit_length r, rfl, encodeRaw_length _, hraw⟩, ?_⟩
  · simp only [encodeFrame, List.append_assoc]
  · rw [hframe, ExascriptRequest.decode_encodeToVec]

/-- A table with a pushed cell, a written one, a null bit and a row. -/
theorem encodeFrame_eq_encodeToVec_sample :
    let table := { (EmitTable.default.pushString [65]).pushStringWith (· ++ [66, 67]) with
      rows := 1, nulls := [false, false, true], rowNumbers := [3] }
    ∃ data, table.toProto = some data ∧
      (EmitRequest.mk 7 table).encodeFrame
        = ((EmitRequest.mk 7 table).toRequest data).encodeToVec := by
  intro table
  have hbuilt : Built table :=
    .blocks 1 [false, false, true] [] [] [] [] [3]
      (.pushStringWith (fun _ => ⟨[66, 67], rfl⟩) (.pushString [65] .default))
  obtain ⟨data, hdata, hframe, -⟩ := encodeFrame_eq_encodeToVec ⟨7, table⟩ hbuilt
  exact ⟨data, hdata, hframe⟩

end EmitRequest

end ExaUdf
