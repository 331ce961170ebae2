import ExaUdf.Lib.Varint

/-!
# The protobuf wire format

A message on the wire is a list of fields, each a tag and a `WireValue`.  `encodeFields` writes
them in order, `decodeFields` reads them back; `decodeFields_encodeFields` is the round trip.

A packed repeated field is one length-delimited value whose payload is the concatenation of its
items (`packVarints`, `packFixed64`); `packedField` leaves an empty one out, as proto2 does.
-/

namespace Protobuf

open Varint

/-- The three wire types a proto2 message without groups and 32-bit fixed fields uses. -/
inductive WireValue where
  | varint (n : Nat)
  | fixed64 (w : UInt64)
  | bytes (bs : List UInt8)
  deriving DecidableEq, Repr

/-- A field on the wire: its tag and its value. -/
abbrev Field := Nat × WireValue

namespace WireValue

/-- The wire type, the low three bits of a key. -/
def wireType : WireValue → Nat
  | varint _ => 0
  | fixed64 _ => 1
  | bytes _ => 2

end WireValue

/-- The eight bytes of a `fixed64`, low byte first. -/
def le64 (w : UInt64) : List UInt8 :=
  (List.range 8).map fun i => UInt8.ofNat (w.toNat / 256 ^ i)

/-- The number whose bytes, low byte first, are `bs`. -/
def ofLe : List UInt8 → Nat
  | [] => 0
  | b :: bs => b.toNat + 256 * ofLe bs

/-- The key of a field. -/
def encodeKey (tag wireType : Nat) : List UInt8 :=
  encode (8 * tag + wireType)

/-- The bytes after the key. -/
def encodePayload : WireValue → List UInt8
  | .varint n => encode n
  | .fixed64 w => le64 w
  | .bytes bs => encode bs.length ++ bs

def encodeField (f : Field) : List UInt8 :=
  encodeKey f.1 f.2.wireType ++ encodePayload f.2

/-- A message body: its fields one after the other. -/
def encodeFields (fs : List Field) : List UInt8 :=
  fs.flatMap encodeField

/-- Read the payload of a field of the given wire type. -/
def decodePayload (wireType : Nat) (bs : List UInt8) : Option (WireValue × List UInt8) :=
  match wireType with
  | 0 => (decode bs).map fun p => (.varint p.1, p.2)
  | 1 => if 8 ≤ bs.length then some (.fixed64 (UInt64.ofNat (ofLe (bs.take 8))), bs.drop 8)
    else none
  | 2 => (decode bs).bind fun p =>
    if p.1 ≤ p.2.length then some (.bytes (p.2.take p.1), p.2.drop p.1) else none
  | _ => none

/-- Read one field. -/
def decodeField (bs : List UInt8) : Option (Field × List UInt8) :=
  (decode bs).bind fun p =>
    (decodePayload (p.1 % 8) p.2).map fun q => ((p.1 / 8, q.1), q.2)

/-- Read at most `fuel` fields; what is left must be empty. -/
def decodeFieldsAux : Nat → List UInt8 → Option (List Field)
  | _, [] => some []
  | 0, _ :: _ => none
  | fuel + 1, b :: bs => (decodeField (b :: bs)).bind fun p =>
    (decodeFieldsAux fuel p.2).map (p.1 :: ·)

/-- Read a whole message body.  Every field takes at least a byte, so `bs.length` bounds them. -/
def decodeFields (bs : List UInt8) : Option (List Field) :=
  decodeFieldsAux bs.length bs

/-! ### Round trip -/

theorem encodeFields_nil : encodeFields [] = [] := rfl

theorem encodeFields_cons (f : Field) (fs : List Field) :
    encodeFields (f :: fs) = encodeField f ++ encodeFields fs := rfl

theorem encodeFields_append (fs gs : List Field) :
    encodeFields (fs ++ gs) = encodeFields fs ++ encodeFields gs :=
  List.flatMap_append

@[simp] theorem le64_length (w : UInt64) : (le64 w).length = 8 := by
  simp [le64]

theorem ofLe_map_range (x : Nat) : ∀ n : Nat,
    ofLe ((List.range n).map fun i => UInt8.ofNat (x / 256 ^ i)) = x % 256 ^ n
  | 0 => by simp [ofLe, Nat.mod_one]
  | n + 1 => by
    have ih := ofLe_map_range (x / 256) n
    have hshift : ((List.range n).map fun i => UInt8.ofNat (x / 256 ^ (i + 1)))
        = (List.range n).map fun i => UInt8.ofNat (x / 256 / 256 ^ i) := by
      refine List.map_congr_left fun i _ => ?_
      rw [Nat.div_div_eq_div_mul, pow_succ, Nat.mul_comm 256]
    have hmod : x % 256 ^ (n + 1) = x % 256 + 256 * (x / 256 % 256 ^ n) := by
      rw [pow_succ, Nat.mul_comm, Nat.mod_mul]
    have hhead : (UInt8.ofNat (x / 256 ^ 0)).toNat = x % 256 := by
      rw [UInt8.toNat_ofNat', pow_zero, Nat.div_one]
    rw [List.range_succ_eq_map, List.map_cons, List.map_map, ofLe, hhead, hmod, ← ih, ← hshift]
    rfl

theorem ofLe_le64 (w : UInt64) : UInt64.ofNat (ofLe (le64 w)) = w := by
  have hw := w.toNat_lt
  have hval : ofLe (le64 w) = w.toNat := by
    rw [le64, ofLe_map_range]
    exact Nat.mod_eq_of_lt (by omega)
  rw [hval, UInt64.ofNat_toNat]

theorem decodePayload_encodePayload (v : WireValue) (rest : List UInt8) :
    decodePayload v.wireType (encodePayload v ++ rest) = some (v, rest) := by
  cases v with
  | varint n =>
    simp only [WireValue.wireType, encodePayload, decodePayload, decode_encode, Option.map_some]
  | fixed64 w =>
    have hlen : 8 ≤ (le64 w ++ rest).length := by simp
    have htake : (le64 w ++ rest).take 8 = le64 w := by
      rw [← le64_length w, List.take_left]
    have hdrop : (le64 w ++ rest).drop 8 = rest := by
      rw [← le64_length w, List.drop_left]
    simp only [WireValue.wireType, encodePayload, decodePayload, if_pos hlen, htake, hdrop,
      ofLe_le64]
  | bytes bs =>
    simp only [WireValue.wireType, encodePayload, decodePayload, List.append_assoc, decode_encode,
      Option.bind_some, List.length_append, Nat.le_add_right, if_true, List.take_left,
      List.drop_left]

theorem decodeField_encodeField (f : Field) (rest : List UInt8) :
    decodeField (encodeField f ++ rest) = some (f, rest) := by
  obtain ⟨tag, v⟩ := f
  have hw : v.wireType < 8 := by cases v <;> simp [WireValue.wireType]
  have hmod : (8 * tag + v.wireType) % 8 = v.wireType := by omega
  have hdiv : (8 * tag + v.wireType) / 8 = tag := by omega
  simp only [decodeField, encodeField, encodeKey, List.append_assoc, decode_encode,
    Option.bind_some, hmod, hdiv, decodePayload_encodePayload, Option.map_some]

theorem encodeField_ne_nil (f : Field) : encodeField f ≠ [] :=
  List.append_ne_nil_of_left_ne_nil (encode_ne_nil _) _

theorem decodeFieldsAux_encodeFields (fs : List Field) : ∀ fuel : Nat, fs.length ≤ fuel →
    decodeFieldsAux fuel (encodeFields fs) = some fs := by
  induction fs with
  | nil => intro fuel _; cases fuel <;> rfl
  | cons f fs ih =>
    intro fuel hfuel
    obtain ⟨b, bs, hb⟩ := List.exists_cons_of_ne_nil
      (List.append_ne_nil_of_left_ne_nil (encodeField_ne_nil f) (encodeFields fs))
    cases fuel with
    | zero => simp at hfuel
    | succ fuel =>
      have hf := decodeField_encodeField f (encodeFields fs)
      rw [hb] at hf
      rw [encodeFields_cons, hb, decodeFieldsAux, hf, Option.bind_some,
        ih fuel (by simpa using hfuel), Option.map_some]

theorem length_le_encodeFields (fs : List Field) : fs.length ≤ (encodeFields fs).length := by
  induction fs with
  | nil => simp
  | cons f fs ih =>
    have hf := List.length_pos_iff.mpr (encodeField_ne_nil f)
    rw [encodeFields_cons, List.length_append, List.length_cons]
    omega

/-- **Round trip**: the fields read off a message body are the ones it was written from. -/
theorem decodeFields_encodeFields (fs : List Field) :
    decodeFields (encodeFields fs) = some fs :=
  decodeFieldsAux_encodeFields fs _ (length_le_encodeFields fs)

/-! ### Messages

A message is read by merging its fields, in the order they come, into an initial value. -/

/-- Read a message body, merging field by field. -/
def decodeMessage {α : Type} (merge : α → Field → Option α) (init : α) (bs : List UInt8) :
    Option α :=
  (decodeFields bs).bind (·.foldlM merge init)

/-- A message is read back by merging the fields it was written from. -/
theorem decodeMessage_encodeFields {α : Type} (merge : α → Field → Option α) (init : α)
    (fs : List Field) : decodeMessage merge init (encodeFields fs) = fs.foldlM merge init := by
  rw [decodeMessage, decodeFields_encodeFields, Option.bind_some]

/-- Merging fields that never fail is folding. -/
theorem foldlM_eq_foldl {α β : Type} {merge : α → Field → Option α} {f : α → β → α}
    (field : β → Field) (h : ∀ a b, merge a (field b) = some (f a b)) (a : α) (bs : List β) :
    (bs.map field).foldlM merge a = some (bs.foldl f a) := by
  induction bs generalizing a with
  | nil => rfl
  | cons b bs ih =>
    rw [List.map_cons, List.foldlM_cons, h]
    exact ih (f a b)

/-- Merging an optional field that was not there before. -/
theorem foldlM_optional {α β : Type} {merge : α → Field → Option α} {field : β → Field}
    (put : α → Option β → α) {a : α} (hnone : put a none = a)
    (hsome : ∀ b, merge a (field b) = some (put a (some b))) (b : Option β) :
    (b.toList.map field).foldlM merge a = some (put a b) := by
  cases b with
  | none => rw [hnone]; rfl
  | some b =>
    rw [Option.toList_some, List.map_singleton, List.foldlM_cons, hsome]
    rfl

/-- Merging a repeated field, an item at a time. -/
theorem foldlM_repeated {α β : Type} (merge : α → Field → Option α) (field : β → Field)
    (put : α → List β → α) {a : α}
    (hitem : ∀ bs b, merge (put a bs) (field b) = some (put a (bs ++ [b]))) (bs cs : List β) :
    (cs.map field).foldlM merge (put a bs) = some (put a (bs ++ cs)) := by
  induction cs generalizing bs with
  | nil => rw [List.append_nil]; rfl
  | cons c cs ih =>
    rw [List.map_cons, List.foldlM_cons, hitem]
    show (cs.map field).foldlM merge (put a (bs ++ [c])) = _
    rw [ih, List.append_assoc, List.singleton_append]

/-! ### Packed repeated fields -/

/-- The payload of a packed field of varints. -/
def packVarints (ns : List Nat) : List UInt8 :=
  ns.flatMap encode

/-- The payload of a packed field of `fixed64`s. -/
def packFixed64 (ws : List UInt64) : List UInt8 :=
  ws.flatMap le64

/-- A packed field; an empty one is not written. -/
def packedField (tag : Nat) (payload : List UInt8) : List Field :=
  if payload = [] then [] else [(tag, .bytes payload)]

/-- Read at most `fuel` varints; what is left must be empty. -/
def unpackVarintsAux : Nat → List UInt8 → Option (List Nat)
  | _, [] => some []
  | 0, _ :: _ => none
  | fuel + 1, b :: bs => (decode (b :: bs)).bind fun p =>
    (unpackVarintsAux fuel p.2).map (p.1 :: ·)

def unpackVarints (bs : List UInt8) : Option (List Nat) :=
  unpackVarintsAux bs.length bs

/-- Read at most `fuel` words of eight bytes; what is left must be empty. -/
def unpackFixed64Aux : Nat → List UInt8 → Option (List UInt64)
  | _, [] => some []
  | 0, _ :: _ => none
  | fuel + 1, b :: bs =>
    if 8 ≤ (b :: bs).length then
      (unpackFixed64Aux fuel ((b :: bs).drop 8)).map
        (UInt64.ofNat (ofLe ((b :: bs).take 8)) :: ·)
    else none

def unpackFixed64 (bs : List UInt8) : Option (List UInt64) :=
  unpackFixed64Aux bs.length bs

theorem unpackVarintsAux_packVarints (ns : List Nat) : ∀ fuel : Nat, ns.length ≤ fuel →
    unpackVarintsAux fuel (packVarints ns) = some ns := by
  induction ns with
  | nil => intro fuel _; cases fuel <;> rfl
  | cons n ns ih =>
    intro fuel hfuel
    have hpack : packVarints (n :: ns) = encode n ++ packVarints ns := rfl
    obtain ⟨b, bs, hb⟩ := List.exists_cons_of_ne_nil
      (List.append_ne_nil_of_left_ne_nil (encode_ne_nil n) (packVarints ns))
    cases fuel with
    | zero => simp at hfuel
    | succ fuel =>
      have hn := decode_encode n (packVarints ns)
      rw [hb] at hn
      rw [hpack, hb, unpackVarintsAux, hn, Option.bind_some, ih fuel (by simpa using hfuel),
        Option.map_some]

theorem unpackVarints_packVarints (ns : List Nat) : unpackVarints (packVarints ns) = some ns := by
  refine unpackVarintsAux_packVarints ns _ ?_
  induction ns with
  | nil => simp
  | cons n ns ih =>
    have hpos := List.length_pos_iff.mpr (encode_ne_nil n)
    have hpack : packVarints (n :: ns) = encode n ++ packVarints ns := rfl
    rw [hpack, List.length_append, List.length_cons]
    omega

theorem unpackFixed64Aux_packFixed64 (ws : List UInt64) : ∀ fuel : Nat, ws.length ≤ fuel →
    unpackFixed64Aux fuel (packFixed64 ws) = some ws := by
  induction ws with
  | nil => intro fuel _; cases fuel <;> rfl
  | cons w ws ih =>
    intro fuel hfuel
    have hpack : packFixed64 (w :: ws) = le64 w ++ packFixed64 ws := rfl
    have hne : le64 w ≠ [] := List.ne_nil_of_length_pos (by simp)
    obtain ⟨b, bs, hb⟩ := List.exists_cons_of_ne_nil
      (List.append_ne_nil_of_left_ne_nil hne (packFixed64 ws))
    cases fuel with
    | zero => simp at hfuel
    | succ fuel =>
      have hlen : 8 ≤ (le64 w ++ packFixed64 ws).length := by simp
      have htake : (le64 w ++ packFixed64 ws).take 8 = le64 w := by
        rw [← le64_length w, List.take_left]
      have hdrop : (le64 w ++ packFixed64 ws).drop 8 = packFixed64 ws := by
        rw [← le64_length w, List.drop_left]
      rw [hb] at hlen htake hdrop
      rw [hpack, hb, unpackFixed64Aux, if_pos hlen, htake, hdrop, ofLe_le64,
        ih fuel (by simpa using hfuel), Option.map_some]

theorem unpackFixed64_packFixed64 (ws : List UInt64) :
    unpackFixed64 (packFixed64 ws) = some ws := by
  refine unpackFixed64Aux_packFixed64 ws _ ?_
  induction ws with
  | nil => simp
  | cons w ws ih =>
    have hpack : packFixed64 (w :: ws) = le64 w ++ packFixed64 ws := rfl
    rw [hpack, List.length_append, List.length_cons, le64_length]
    omega

end Protobuf
