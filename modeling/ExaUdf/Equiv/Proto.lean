import ExaUdf.Proto

/-!
# Requests survive the wire

`ExascriptRequest.decode_encodeToVec`: the database reads off a frame the request it was written
from.  The steps are the blocks of a table (`ExascriptTableData.foldlM_merge_fields`) and then the
parts of the envelope, each merged into what came before it.
-/

namespace ExaUdf

open Protobuf

/-! ### Scalars -/

theorem i32OfVarint_varintOfI32 (i : Int32) : i32OfVarint (varintOfI32 i) = i := by
  rw [i32OfVarint, varintOfI32, UInt64.ofNat_toNat, Int64.toInt64_toUInt64, Int32.toInt32_toInt64]

theorem i64OfVarint_varintOfI64 (i : Int64) : i64OfVarint (varintOfI64 i) = i := by
  rw [i64OfVarint, varintOfI64, UInt64.ofNat_toNat, Int64.toInt64_toUInt64]

theorem boolOfVarint_varintOfBool (b : Bool) : boolOfVarint (varintOfBool b) = b := by
  cases b <;> rfl

/-! ### Tables -/

namespace ExascriptTableData

theorem foldlM_merge_strings (cells : List (List UInt8)) (t : ExascriptTableData) :
    (cells.map fun cell => ((2, .bytes cell) : Field)).foldlM merge t
      = some { t with dataString := t.dataString ++ cells } := by
  rw [foldlM_eq_foldl _ (f := fun t cell => { t with dataString := t.dataString ++ [cell] })
    fun _ _ => rfl]
  induction cells generalizing t with
  | nil => simp
  | cons cell cells ih => rw [List.foldl_cons, ih]; simp

theorem packVarints_eq_nil {ns : List Nat} (h : packVarints ns = []) : ns = [] := by
  cases ns with
  | nil => rfl
  | cons n ns => exact absurd (List.append_eq_nil_iff.mp h).1 (Varint.encode_ne_nil n)

theorem packFixed64_eq_nil {ws : List UInt64} (h : packFixed64 ws = []) : ws = [] := by
  cases ws with
  | nil => rfl
  | cons w ws =>
    have hlen := congrArg List.length (List.append_eq_nil_iff.mp h).1
    rw [le64_length] at hlen
    exact absurd hlen (by decide)

section

variable {α : Type} (put : ExascriptTableData → List α → ExascriptTableData)
  (hput : ∀ t, put t [] = t)

include hput

/-- A packed block of scalars is merged as a whole; leaving an empty one out changes nothing. -/
theorem foldlM_merge_packed {enc : α → Nat} {dec : Nat → α} (tag : Nat)
    (hdec : ∀ a, dec (enc a) = a)
    (hmerge : ∀ t bs, merge t (tag, .bytes bs)
      = (unpackVarints bs).map fun ns => put t (ns.map dec))
    (xs : List α) (t : ExascriptTableData) :
    (packedField tag (packVarints (xs.map enc))).foldlM merge t = some (put t xs) := by
  rw [packedField]
  split_ifs with hp
  · have hxs : xs = [] := List.map_eq_nil_iff.mp (packVarints_eq_nil hp)
    rw [hxs, hput]
    rfl
  · have hmap : (xs.map enc).map dec = xs := by
      rw [List.map_map]
      conv_rhs => rw [← List.map_id xs]
      exact List.map_congr_left fun a _ => hdec a
    rw [List.foldlM_cons, hmerge, unpackVarints_packVarints, Option.map_some, hmap]
    rfl

theorem foldlM_merge_packed64 {enc : α → UInt64} {dec : UInt64 → α} (tag : Nat)
    (hdec : ∀ a, dec (enc a) = a)
    (hmerge : ∀ t bs, merge t (tag, .bytes bs)
      = (unpackFixed64 bs).map fun ws => put t (ws.map dec))
    (xs : List α) (t : ExascriptTableData) :
    (packedField tag (packFixed64 (xs.map enc))).foldlM merge t = some (put t xs) := by
  rw [packedField]
  split_ifs with hp
  · have hxs : xs = [] := List.map_eq_nil_iff.mp (packFixed64_eq_nil hp)
    rw [hxs, hput]
    rfl
  · have hmap : (xs.map enc).map dec = xs := by
      rw [List.map_map]
      conv_rhs => rw [← List.map_id xs]
      exact List.map_congr_left fun a _ => hdec a
    rw [List.foldlM_cons, hmerge, unpackFixed64_packFixed64, Option.map_some, hmap]
    rfl

end

/-- Merging the fields of a table into the empty one gives the table back. -/
theorem foldlM_merge_fields (t : ExascriptTableData) :
    t.fields.foldlM merge empty = some t := by
  have hnulls := foldlM_merge_packed
    (fun t xs => { t with dataNulls := t.dataNulls ++ xs }) (by simp) 3
    boolOfVarint_varintOfBool fun _ _ => rfl
  have hbool := foldlM_merge_packed
    (fun t xs => { t with dataBool := t.dataBool ++ xs }) (by simp) 4
    boolOfVarint_varintOfBool fun _ _ => rfl
  have hint32 := foldlM_merge_packed
    (fun t xs => { t with dataInt32 := t.dataInt32 ++ xs }) (by simp) 5
    i32OfVarint_varintOfI32 fun _ _ => rfl
  have hint64 := foldlM_merge_packed
    (fun t xs => { t with dataInt64 := t.dataInt64 ++ xs }) (by simp) 6
    i64OfVarint_varintOfI64 fun _ _ => rfl
  have hdouble := foldlM_merge_packed64
    (fun t xs => { t with dataDouble := t.dataDouble ++ xs }) (by simp) 7
    (fun _ => rfl : ∀ f : F64, F64.mk f.bits = f) fun _ _ => rfl
  have hrow := foldlM_merge_packed
    (fun t xs => { t with rowNumber := t.rowNumber ++ xs }) (by simp) 9
    (fun _ => UInt64.ofNat_toNat : ∀ n : UInt64, UInt64.ofNat n.toNat = n) fun _ _ => rfl
  simp only [fields, List.foldlM_append]
  simp only [List.foldlM_cons, List.foldlM_nil, merge, foldlM_merge_strings, hnulls, hbool,
    hint32, hint64, hdouble, hrow, Option.bind_eq_bind, Option.bind_some, Option.pure_def,
    UInt64.ofNat_toNat, empty, List.nil_append]

theorem decode_fields (t : ExascriptTableData) : decode (encodeFields t.fields) = some t := by
  rw [decode, decodeMessage_encodeFields, foldlM_merge_fields]

end ExascriptTableData

/-! ### Requests -/

namespace ExascriptRequest

theorem decodeText_encode (old s : String) :
    decodeMessage mergeText old (encodeFields [stringField 1 s]) = some s := by
  rw [decodeMessage_encodeFields]
  simp only [List.foldlM_cons, List.foldlM_nil, stringField, mergeText, Utf8.text?_bytes,
    Option.bind_eq_bind, Option.bind_some, Option.pure_def]

/-- A part of the envelope that is not there leaves the envelope alone. -/
theorem foldlM_optionField {α : Type} {field : α → Field}
    (put : ExascriptRequest → Option α → ExascriptRequest) {r : ExascriptRequest}
    (hsome : ∀ a, merge r (field a) = some (put r (some a))) (a : Option α)
    (hnone : put r none = r) :
    (optionField field a).foldlM merge r = some (put r a) := by
  cases a with
  | none => rw [hnone]; rfl
  | some a =>
    simp only [optionField, Option.toList_some, List.map_singleton, List.foldlM_cons,
      List.foldlM_nil, hsome, Option.bind_eq_bind, Option.bind_some, Option.pure_def]

theorem merge_client {r : ExascriptRequest} (h : r.client = none) (c : ExascriptClient) :
    merge r (messageField 3 (stringField 1 c.clientName ::
      optionField (stringField 2) c.metaInfo)) = some { r with client := some c } := by
  obtain ⟨clientName, _ | metaInfo⟩ := c <;>
    simp [merge, h, messageField, decodeMessage_encodeFields, stringField, optionField, mergeClient,
      Utf8.text?_bytes]

theorem merge_close {r : ExascriptRequest} (h : r.close = none) (c : ExascriptClose) :
    merge r (messageField 5 (optionField (stringField 1) c.exceptionMessage))
      = some { r with close := some c } := by
  obtain ⟨_ | message⟩ := c <;>
    simp [merge, h, messageField, decodeMessage_encodeFields, stringField, optionField, mergeClose,
      Utf8.text?_bytes]

theorem merge_import {r : ExascriptRequest} (h : r.importReq = none) (i : ExascriptImportReq) :
    merge r (messageField 6 (stringField 1 i.scriptName ::
      optionField (fun k => (2, .varint (varintOfI32 k))) i.kind))
      = some { r with importReq := some i } := by
  obtain ⟨scriptName, _ | kind⟩ := i <;>
    simp [merge, h, messageField, decodeMessage_encodeFields, stringField, optionField, mergeImport,
      Utf8.text?_bytes, i32OfVarint_varintOfI32]

theorem merge_emit {r : ExascriptRequest} (h : r.emit = none) (t : ExascriptTableData) :
    merge r (messageField 7 [messageField 2 t.fields]) = some { r with emit := some t } := by
  simp [merge, h, messageField, decodeMessage_encodeFields, mergeEmit,
    ExascriptTableData.foldlM_merge_fields]

theorem merge_ping (r : ExascriptRequest) (s : String) :
    merge r (messageField 8 [stringField 1 s]) = some { r with ping := some s } := by
  simp [merge, messageField, decodeText_encode]

theorem merge_callResult (r : ExascriptRequest) (s : String) :
    merge r (messageField 9 [stringField 1 s]) = some { r with callResult := some s } := by
  simp [merge, messageField, decodeText_encode]

theorem merge_undefinedCall (r : ExascriptRequest) (s : String) :
    merge r (messageField 10 [stringField 1 s]) = some { r with undefinedCall := some s } := by
  simp [merge, messageField, decodeText_encode]

/-- **Round trip**: decoding the frame of a request gives the request back. -/
theorem decode_encodeToVec (r : ExascriptRequest) : decode r.encodeToVec = some r := by
  rw [decode, encodeToVec, decodeMessage_encodeFields]
  simp only [fields, List.foldlM_append, List.foldlM_cons, List.foldlM_nil, merge,
    i32OfVarint_varintOfI32, UInt64.ofNat_toNat, empty, Option.bind_eq_bind, Option.bind_some,
    Option.pure_def]
  rw [foldlM_optionField (fun r c => { r with client := c }) (merge_client rfl) _ rfl,
    Option.bind_some,
    foldlM_optionField (fun r c => { r with close := c }) (merge_close rfl) _ rfl,
    Option.bind_some,
    foldlM_optionField (fun r i => { r with importReq := i }) (merge_import rfl) _ rfl,
    Option.bind_some,
    foldlM_optionField (fun r t => { r with emit := t }) (merge_emit rfl) _ rfl,
    Option.bind_some,
    foldlM_optionField (fun r s => { r with ping := s }) (merge_ping _) _ rfl,
    Option.bind_some,
    foldlM_optionField (fun r s => { r with callResult := s }) (merge_callResult _) _ rfl,
    Option.bind_some,
    foldlM_optionField (fun r s => { r with undefinedCall := s }) (merge_undefinedCall _) _ rfl]

end ExascriptRequest

end ExaUdf
