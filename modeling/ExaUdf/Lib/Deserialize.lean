import ExaUdf.Lib.JsonText
import Mathlib.Data.List.Perm.Basic
import Mathlib.Data.List.Sort
import Mathlib.Data.String.Basic

/-!
# Structs from JSON values

A struct is read from an object by the names of its fields: a member with another name is passed
over, a field that is given twice is an error, an optional field may be absent or `null`.  It is
read from an array by position.

An object that a sorted map wrote gives each field the value it was written with
(`fields?_sorted`).
-/

namespace Json

/-! ### Values -/

def bool? : Json → Option Bool
  | bool b => some b
  | _ => none

/-- A number without sign, fraction and exponent. -/
def natural? : Json → Option Nat
  | number text =>
    if text ≠ "" ∧ text.toList.all Char.isDigit then some (Nat.ofDigitChars 10 text.toList 0)
    else none
  | _ => none

def u32? (v : Json) : Option UInt32 :=
  (natural? v).bind fun n => if n < 2 ^ 32 then some (UInt32.ofNat n) else none

def listOf? {α : Type} (decode : Json → Option α) (v : Json) : Option (List α) :=
  v.array?.bind fun items => items.mapM decode

/-! ### Fields -/

/-- The values of the fields `names`. -/
def fields? (names : List String) : Json → Option (List (String × Json))
  | object members =>
    let known := members.filter fun m => names.contains m.1
    if (known.map Prod.fst).Nodup then some known else none
  | array items => if items.length = names.length then some (names.zip items) else none
  | _ => none

def required {α : Type} (name : String) (decode : Json → Option α)
    (fields : List (String × Json)) : Option α :=
  (fields.lookup name).bind decode

def optional {α : Type} (name : String) (decode : Json → Option α)
    (fields : List (String × Json)) : Option (Option α) :=
  match fields.lookup name with
  | none => some none
  | some null => some none
  | some v => (decode v).map some

/-! ### What is written is read back -/

theorem string?_string (s : String) : string? (string s) = some s :=
  rfl

theorem natural?_toString (n : Nat) : natural? (number (toString n)) = some n := by
  obtain ⟨hdigits, -⟩ := toString_digits n
  have hne : toString n ≠ "" := by
    rw [Nat.toString_eq_repr]
    exact Nat.repr_ne_empty
  rw [natural?, if_pos ⟨hne, List.all_eq_true.mpr hdigits⟩, Nat.toString_eq_repr, Nat.toList_repr,
    Nat.ofDigitChars_ten_toDigits]

theorem u32?_toString (n : UInt32) : u32? (number (toString n.toNat)) = some n := by
  rw [u32?, natural?_toString, Option.bind_some, if_pos n.toNat_lt, UInt32.ofNat_toNat]

/-- Reading a list back, item by item. -/
theorem listOf?_map {α β : Type} {decode : Json → Option β} {encode : α → Json} {f : α → β}
    (h : ∀ a, decode (encode a) = some (f a)) (as : List α) :
    listOf? decode (array (as.map encode)) = some (as.map f) := by
  rw [listOf?, array?, Option.bind_some]
  induction as with
  | nil => rfl
  | cons a as ih =>
    rw [List.map_cons, List.mapM_cons, h, ih]
    rfl

section

variable {α : Type} {name : String} {decode : Json → Option α} {fields : List (String × Json)}

theorem required_of_lookup {v : Json} (h : fields.lookup name = some v) :
    required name decode fields = decode v := by
  rw [required, h, Option.bind_some]

/-- An optional field that was written as a value or as `null`. -/
theorem optional_of_lookup {β : Type} {encode : β → Json} {f : β → α}
    (hdecode : ∀ b, decode (encode b) = some (f b)) (hnull : ∀ b, encode b ≠ null)
    {value : Option β} (h : fields.lookup name = some (ofOption encode value)) :
    optional name decode fields = some (value.map f) := by
  rw [optional, h]
  cases value with
  | none => rfl
  | some b =>
    have hb := hnull b
    have hd := hdecode b
    simp only [ofOption]
    generalize encode b = v at hb hd
    cases v with
    | null => exact absurd rfl hb
    | _ => simp only [hd, Option.map_some]

end

/-! ### Sorted objects -/

/-- The members in the order of their keys. -/
def byKey (members : List (String × Json)) : List (String × Json) :=
  members.mergeSort fun a b => a.1 ≤ b.1

theorem sorted_eq (members : List (String × Json)) : sorted members = object (byKey members) :=
  rfl

theorem byKey_perm (members : List (String × Json)) : (byKey members).Perm members :=
  List.mergeSort_perm _ _

theorem byKey_pairwise {members : List (String × Json)} (h : (members.map Prod.fst).Nodup) :
    (byKey members).Pairwise fun a b => a.1 < b.1 := by
  have hnodup : ((byKey members).map Prod.fst).Nodup :=
    ((byKey_perm members).map Prod.fst).nodup_iff.mpr h
  have hle : (byKey members).Pairwise fun a b => decide (a.1 ≤ b.1) = true :=
    List.pairwise_mergeSort (fun a b c hab hbc => by
      simp only [decide_eq_true_eq] at *
      exact le_trans hab hbc) (fun a b => by
      simp only [Bool.or_eq_true, decide_eq_true_eq]
      exact le_total a.1 b.1) members
  refine (hle.and (List.pairwise_map.mp hnodup)).imp fun hab => ?_
  exact lt_of_le_of_ne (of_decide_eq_true hab.1) hab.2

/-- A sorted object of printable values is printable. -/
theorem printableAt_sorted (names : List String) (hnodup : names.Nodup) {depth : Nat} {v : Json}
    {members : List (String × Json)} (hv : v = sorted members)
    (hnames : members.map Prod.fst = names) (h : ∀ m ∈ members, PrintableAt depth m.2) :
    PrintableAt (depth + 1) v := by
  subst hv hnames
  exact .object (byKey_pairwise hnodup) fun m hm => h m ((byKey_perm members).mem_iff.mp hm)

theorem lookup_of_mem {members : List (String × Json)} (hkeys : (members.map Prod.fst).Nodup)
    {name : String} {v : Json} (h : (name, v) ∈ members) : members.lookup name = some v := by
  induction members with
  | nil => cases h
  | cons m members ih =>
    rw [List.map_cons, List.nodup_cons] at hkeys
    obtain rfl | htail := List.mem_cons.mp h
    · rw [List.lookup_cons_self]
    · have hne : name ≠ m.1 := fun heq =>
        hkeys.1 (List.mem_map.mpr ⟨(name, v), htail, heq⟩)
      rw [List.lookup_cons, beq_false_of_ne hne]
      exact ih hkeys.2 htail

/-- **A struct's fields from a sorted object**: each one has the value it was written with. -/
theorem fields?_sorted (names : List String) (hnodup : names.Nodup) {v : Json}
    {members : List (String × Json)} (hv : v = sorted members)
    (hnames : members.map Prod.fst = names) :
    ∃ fields, fields? names v = some fields ∧ ∀ m ∈ members, fields.lookup m.1 = some m.2 := by
  subst hv hnames
  have hsorted : ((byKey members).map Prod.fst).Nodup :=
    ((byKey_perm members).map Prod.fst).nodup_iff.mpr hnodup
  have hknown : (((byKey members).filter fun m => (members.map Prod.fst).contains m.1).map
      Prod.fst).Nodup := hsorted.sublist (List.filter_sublist.map Prod.fst)
  refine ⟨_, by rw [sorted_eq, fields?, if_pos hknown], fun m hm => ?_⟩
  refine lookup_of_mem hknown (List.mem_filter.mpr ⟨(byKey_perm members).mem_iff.mpr hm, ?_⟩)
  exact List.contains_iff_mem.mpr (List.mem_map_of_mem hm)

end Json
