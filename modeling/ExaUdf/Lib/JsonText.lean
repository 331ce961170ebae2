import ExaUdf.Lib.Json
import Mathlib.Algebra.Group.Nat.Defs
import Mathlib.Data.List.TakeWhile

/-!
# Reading JSON text

A reader of JSON is `Faithful` if it gives back every `Printable` value from its compact text: a
value whose numbers are `u64`s, whose objects have their keys in order, and whose nesting stays
within the depth that a reader with a recursion limit accepts.

`read` is such a reader (`read_faithful`).  It takes compact text only: no blanks, no fractions, no
surrogate pairs.
-/

namespace Json

/-! ### Printable values -/

/-- A value that a sorted map of `u64`s, strings and lists, at most `depth` levels deep, prints. -/
inductive PrintableAt : Nat → Json → Prop
  | null (depth : Nat) : PrintableAt depth null
  | bool (depth : Nat) (b : Bool) : PrintableAt depth (bool b)
  | number (depth : Nat) {n : Nat} (hn : n < 2 ^ 64) : PrintableAt depth (number (toString n))
  | string (depth : Nat) (s : String) : PrintableAt depth (string s)
  | array {depth : Nat} {items : List Json} (hitems : ∀ v ∈ items, PrintableAt depth v) :
    PrintableAt (depth + 1) (array items)
  | object {depth : Nat} {members : List (String × Json)}
    (hkeys : members.Pairwise fun a b => a.1 < b.1)
    (hmembers : ∀ m ∈ members, PrintableAt depth m.2) : PrintableAt (depth + 1) (object members)

/-- Printable within a recursion limit of 128. -/
def Printable (v : Json) : Prop :=
  PrintableAt 127 v

/-- A reader that gives back what was printed. -/
def Faithful (read : String → Option Json) : Prop :=
  ∀ v, Printable v → read v.render = some v

/-- A printer and a reader of one library: a printed value is read back, and its text can cross as a
C string. -/
structure RoundTrip (print : Json → String) (read : String → Option Json) : Prop where
  read_print {v : Json} (h : Printable v) : read (print v) = some v
  nul_not_mem {v : Json} (h : Printable v) : Char.ofNat 0 ∉ (print v).toList

/-! ### The reader -/

def hexValue (c : Char) : Option Nat :=
  if '0' ≤ c ∧ c ≤ '9' then some (c.toNat - 48)
  else if 'a' ≤ c ∧ c ≤ 'f' then some (c.toNat - 87)
  else if 'A' ≤ c ∧ c ≤ 'F' then some (c.toNat - 55)
  else none

def readHex (n : Nat) : List Char → Option Nat
  | [] => some n
  | c :: cs => (hexValue c).bind fun digit => readHex (16 * n + digit) cs

/-- The character that an escape stands for; the backslash is gone. -/
def readEscape : List Char → Option (Char × List Char)
  | [] => none
  | c :: rest =>
    if c = '"' ∨ c = '\\' ∨ c = '/' then some (c, rest)
    else if c = 'b' then some (Char.ofNat 8, rest)
    else if c = 't' then some (Char.ofNat 9, rest)
    else if c = 'n' then some (Char.ofNat 10, rest)
    else if c = 'f' then some (Char.ofNat 12, rest)
    else if c = 'r' then some (Char.ofNat 13, rest)
    else if c = 'u' ∧ 4 ≤ rest.length then
      (readHex 0 (rest.take 4)).bind fun n =>
        if n.isValidChar then some (Char.ofNat n, rest.drop 4) else none
    else none

/-- The characters up to the closing quote. -/
def readString : Nat → List Char → Option (List Char × List Char)
  | 0, _ => none
  | _ + 1, [] => none
  | fuel + 1, c :: rest =>
    if c = '"' then some ([], rest)
    else if c = '\\' then (readEscape rest).bind fun p =>
      (readString fuel p.2).map fun q => (p.1 :: q.1, q.2)
    else if c.toNat < 32 then none
    else (readString fuel rest).map fun q => (c :: q.1, q.2)

def readWord (word : String) (v : Json) (text : List Char) : Option (Json × List Char) :=
  if word.toList.isPrefixOf text then some (v, text.drop word.toList.length) else none

mutual

def readValue : Nat → List Char → Option (Json × List Char)
  | 0, _ => none
  | _ + 1, [] => none
  | fuel + 1, c :: rest =>
    if c = '"' then (readString fuel rest).map fun p => (string (String.ofList p.1), p.2)
    else if c = '[' then
      if rest.head? = some ']' then some (array [], rest.tail)
      else (readItems fuel rest).map fun p => (array p.1, p.2)
    else if c = Char.ofNat 123 then
      if rest.head? = some (Char.ofNat 125) then some (object [], rest.tail)
      else (readMembers fuel rest).map fun p => (object p.1, p.2)
    else if c.isDigit then
      some (number (String.ofList ((c :: rest).takeWhile Char.isDigit)),
        (c :: rest).dropWhile Char.isDigit)
    else if c = 'n' then readWord "null" null (c :: rest)
    else if c = 't' then readWord "true" (bool true) (c :: rest)
    else readWord "false" (bool false) (c :: rest)

def readItems : Nat → List Char → Option (List Json × List Char)
  | 0, _ => none
  | fuel + 1, text => (readValue fuel text).bind fun p =>
    if p.2.head? = some ',' then
      (readItems fuel p.2.tail).map fun q => (p.1 :: q.1, q.2)
    else if p.2.head? = some ']' then some ([p.1], p.2.tail)
    else none

def readMembers : Nat → List Char → Option (List (String × Json) × List Char)
  | 0, _ => none
  | fuel + 1, text =>
    if text.head? ≠ some '"' then none
    else (readString fuel text.tail).bind fun key =>
      if key.2.head? ≠ some ':' then none
      else (readValue fuel key.2.tail).bind fun p =>
        if p.2.head? = some ',' then
          (readMembers fuel p.2.tail).map fun q => ((String.ofList key.1, p.1) :: q.1, q.2)
        else if p.2.head? = some (Char.ofNat 125) then
          some ([(String.ofList key.1, p.1)], p.2.tail)
        else none

end

/-- Read a whole text. -/
def read (text : String) : Option Json :=
  match readValue text.toList.length text.toList with
  | some (v, []) => some v
  | _ => none

/-! ### Strings -/

theorem escapeChar_ne_nil (c : Char) : escapeChar c ≠ [] := by
  unfold escapeChar
  split_ifs <;> exact List.cons_ne_nil _ _

theorem hexValue_hexDigit {n : Nat} (h : n < 16) : hexValue (hexDigit n) = some n := by
  have hall : ∀ n : Fin 16, hexValue (hexDigit n) = some (n : Nat) := by decide
  exact hall ⟨n, h⟩

/-- An escape of a control character is read back. -/
theorem readEscape_control {n : Nat} (h : n < 32) (rest : List Char) :
    readEscape ('u' :: '0' :: '0' :: hexDigit (n / 16) :: hexDigit (n % 16) :: rest)
      = some (Char.ofNat n, rest) := by
  have hhigh := hexValue_hexDigit (n := n / 16) (by omega)
  have hlow := hexValue_hexDigit (n := n % 16) (by omega)
  have hzero : hexValue '0' = some 0 := by decide
  have hnumber : readHex 0 ['0', '0', hexDigit (n / 16), hexDigit (n % 16)] = some n := by
    simp only [readHex, hzero, hhigh, hlow, Option.bind_some]
    congr 1
    omega
  have hvalid : n.isValidChar := .inl (by omega)
  simp only [readEscape, List.take_succ_cons, List.take_zero, List.drop_succ_cons, List.drop_zero,
    hnumber, Option.bind_some, if_pos hvalid]
  simp

theorem readString_escapeChar (c : Char) (fuel : Nat) (rest : List Char) :
    readString (fuel + 1) (escapeChar c ++ rest)
      = (readString fuel rest).map fun q => (c :: q.1, q.2) := by
  have hnat : ∀ n : Nat, c.toNat = n → Char.ofNat n = c := fun n hn => by
    rw [← hn, Char.ofNat_toNat]
  unfold escapeChar
  split_ifs with hquote hslash h8 h9 h10 h12 h13 hcontrol
  · subst hquote
    rfl
  · subst hslash
    rfl
  · rw [← hnat 8 h8]
    rfl
  · rw [← hnat 9 h9]
    rfl
  · rw [← hnat 10 h10]
    rfl
  · rw [← hnat 12 h12]
    rfl
  · rw [← hnat 13 h13]
    rfl
  · have hread := readEscape_control hcontrol rest
    rw [hnat _ rfl] at hread
    simp only [List.cons_append, List.nil_append, readString, hread, Option.bind_some]
    simp
  · rw [List.singleton_append, readString, if_neg hquote, if_neg hslash, if_neg hcontrol]

/-- What stands between the quotes is read back. -/
theorem readString_escaped (cs rest : List Char) :
    ∀ fuel : Nat, cs.length < fuel →
      readString fuel (cs.flatMap escapeChar ++ '"' :: rest) = some (cs, rest) := by
  induction cs with
  | nil =>
    intro fuel hfuel
    obtain ⟨fuel, rfl⟩ := Nat.exists_eq_succ_of_ne_zero (Nat.ne_of_gt hfuel)
    rfl
  | cons c cs ih =>
    intro fuel hfuel
    obtain ⟨fuel, rfl⟩ := Nat.exists_eq_succ_of_ne_zero (Nat.ne_of_gt (Nat.zero_lt_of_lt hfuel))
    rw [List.flatMap_cons, List.append_assoc, readString_escapeChar, ih fuel (by simpa using hfuel),
      Option.map_some]

theorem length_le_escaped (cs : List Char) : cs.length ≤ (cs.flatMap escapeChar).length := by
  induction cs with
  | nil => exact Nat.le_refl 0
  | cons c cs ih =>
    have hpos := List.length_pos_iff.mpr (escapeChar_ne_nil c)
    rw [List.flatMap_cons, List.length_append, List.length_cons]
    omega

theorem renderString_eq (s : String) (rest : List Char) :
    renderString s ++ rest = '"' :: (s.toList.flatMap escapeChar ++ '"' :: rest) := by
  simp [renderString]

theorem length_renderString (s : String) :
    (renderString s).length = (s.toList.flatMap escapeChar).length + 2 := by
  simp only [renderString, List.length_append, List.length_cons, List.length_nil]
  omega

/-- A string is read back. -/
theorem readString_renderString (s : String) (rest : List Char) {fuel : Nat}
    (h : (renderString s).length ≤ fuel + 1) :
    readString fuel (s.toList.flatMap escapeChar ++ '"' :: rest) = some (s.toList, rest) := by
  have hlen := length_renderString s
  have hle := length_le_escaped s.toList
  exact readString_escaped s.toList rest fuel (by omega)

/-! ### Values -/

/-- What may follow a number. -/
def EndsNumber (rest : List Char) : Prop :=
  ∀ c, rest.head? = some c → c.isDigit = false

theorem endsNumber_cons {c : Char} (h : c.isDigit = false) (rest : List Char) :
    EndsNumber (c :: rest) := by
  intro d hd
  obtain rfl := Option.some.inj hd
  exact h

theorem takeWhile_append_ends {ds rest : List Char} (hds : ∀ c ∈ ds, c.isDigit = true)
    (hrest : EndsNumber rest) :
    (ds ++ rest).takeWhile Char.isDigit = ds ∧ (ds ++ rest).dropWhile Char.isDigit = rest := by
  rw [List.takeWhile_append_of_pos hds, List.dropWhile_append_of_pos hds]
  cases rest with
  | nil => simp
  | cons c rest =>
    have hc := hrest c rfl
    simp [hc]

/-- A digit is no other sign of JSON. -/
theorem isDigit_ne {c : Char} (h : c.isDigit = true) :
    c ≠ '"' ∧ c ≠ '[' ∧ c ≠ Char.ofNat 123 ∧ c ≠ ']' := by
  refine ⟨?_, ?_, ?_, ?_⟩ <;> (rintro rfl; revert h; decide)

/-- The text of a number is a run of digits. -/
theorem toString_digits (n : Nat) :
    (∀ c ∈ (toString n).toList, c.isDigit = true) ∧ (toString n).toList ≠ [] := by
  rw [Nat.toString_eq_repr, Nat.toList_repr]
  have h10 : 0 < 10 := by decide
  exact ⟨fun c hc => Nat.isDigit_of_mem_toDigits h10 (Nat.le_refl 10) hc, Nat.toDigits_ne_nil⟩

theorem readValue_number (n fuel : Nat) {rest : List Char} (hrest : EndsNumber rest) :
    readValue (fuel + 1) ((toString n).toList ++ rest) = some (number (toString n), rest) := by
  obtain ⟨hdigits, hne⟩ := toString_digits n
  obtain ⟨htake, hdrop⟩ := takeWhile_append_ends hdigits hrest
  obtain ⟨c, cs, hcs⟩ := List.exists_cons_of_ne_nil hne
  rw [hcs] at hdigits htake hdrop
  have hc := hdigits c List.mem_cons_self
  obtain ⟨hquote, hbracket, hbrace, -⟩ := isDigit_ne hc
  rw [hcs, List.cons_append, readValue, if_neg hquote, if_neg hbracket, if_neg hbrace, if_pos hc,
    ← List.cons_append, htake, hdrop, ← hcs, String.ofList_toList]

/-- The text of a value does not begin with a closing bracket. -/
theorem renderChars_head {depth : Nat} {v : Json} (h : PrintableAt depth v) :
    ∃ c cs, renderChars v = c :: cs ∧ c ≠ ']' := by
  cases h with
  | null => exact ⟨'n', _, rfl, by decide⟩
  | bool _ b => cases b <;> exact ⟨_, _, rfl, by decide⟩
  | @number _ n _ =>
    obtain ⟨hdigits, hne⟩ := toString_digits n
    obtain ⟨c, cs, hcs⟩ := List.exists_cons_of_ne_nil hne
    exact ⟨c, cs, hcs, (isDigit_ne (hdigits c (hcs ▸ List.mem_cons_self))).2.2.2⟩
  | string _ s => exact ⟨'"', _, rfl, by decide⟩
  | array => exact ⟨'[', _, rfl, by decide⟩
  | object => exact ⟨Char.ofNat 123, _, rfl, by decide⟩

/-- `v` is read back with the fuel that its text has characters. -/
def ReadsBack (v : Json) : Prop :=
  ∀ fuel rest, (renderChars v).length ≤ fuel → EndsNumber rest →
    readValue fuel (renderChars v ++ rest) = some (v, rest)

theorem renderItems_cons (v w : Json) (items : List Json) :
    renderItems (v :: w :: items) = renderChars v ++ [','] ++ renderItems (w :: items) := by
  rw [renderItems]
  exact List.cons_ne_nil w items

theorem renderMembers_cons (key : String) (v : Json) (m : String × Json)
    (members : List (String × Json)) :
    renderMembers ((key, v) :: m :: members)
      = renderString key ++ [':'] ++ renderChars v ++ [','] ++ renderMembers (m :: members) := by
  rw [renderMembers]
  exact List.cons_ne_nil m members

theorem readItems_renderItems (items : List Json) (hne : items ≠ [])
    (hitems : ∀ v ∈ items, ReadsBack v) :
    ∀ fuel rest, (renderItems items).length < fuel →
      readItems fuel (renderItems items ++ ']' :: rest) = some (items, rest) := by
  induction items with
  | nil => exact absurd rfl hne
  | cons v items ih =>
    intro fuel rest hfuel
    obtain ⟨fuel, rfl⟩ := Nat.exists_eq_succ_of_ne_zero (Nat.ne_of_gt (Nat.zero_lt_of_lt hfuel))
    have hv := hitems v List.mem_cons_self
    cases items with
    | nil =>
      rw [renderItems] at hfuel ⊢
      rw [readItems, hv fuel _ (by omega) (endsNumber_cons (by decide) rest), Option.bind_some]
      rfl
    | cons w items =>
      rw [renderItems_cons] at hfuel ⊢
      simp only [List.length_append, List.length_singleton] at hfuel
      have htail := ih (List.cons_ne_nil w items)
        (fun u hu => hitems u (List.mem_cons_of_mem v hu)) fuel rest (by omega)
      rw [List.append_assoc, List.append_assoc, List.singleton_append, readItems,
        hv fuel _ (by omega) (endsNumber_cons (by decide) _), Option.bind_some]
      simp only [List.head?_cons, List.tail_cons, if_true, htail, Option.map_some]

theorem readMembers_renderMembers (members : List (String × Json)) (hne : members ≠ [])
    (hmembers : ∀ m ∈ members, ReadsBack m.2) :
    ∀ fuel rest, (renderMembers members).length < fuel →
      readMembers fuel (renderMembers members ++ Char.ofNat 125 :: rest)
        = some (members, rest) := by
  induction members with
  | nil => exact absurd rfl hne
  | cons m members ih =>
    intro fuel rest hfuel
    obtain ⟨key, v⟩ := m
    obtain ⟨fuel, rfl⟩ := Nat.exists_eq_succ_of_ne_zero (Nat.ne_of_gt (Nat.zero_lt_of_lt hfuel))
    have hv : ReadsBack v := hmembers (key, v) List.mem_cons_self
    -- The key and its colon are read in the same way whatever follows the value.
    have hkey : ∀ text, (renderString key).length ≤ fuel + 1 →
        readMembers (fuel + 1) (renderString key ++ ([':'] ++ text)) = (readValue fuel text).bind
          fun p => if p.2.head? = some ',' then
              (readMembers fuel p.2.tail).map fun q => ((key, p.1) :: q.1, q.2)
            else if p.2.head? = some (Char.ofNat 125) then some ([(key, p.1)], p.2.tail)
            else none := by
      intro text hlen
      rw [renderString_eq, readMembers, if_neg (by simp), List.tail_cons,
        readString_renderString key _ hlen, Option.bind_some, String.ofList_toList,
        if_neg (by simp), List.singleton_append, List.tail_cons]
    cases members with
    | nil =>
      rw [renderMembers] at hfuel ⊢
      simp only [List.length_append, List.length_singleton] at hfuel
      rw [List.append_assoc, List.append_assoc, hkey _ (by omega),
        hv fuel _ (by omega) (endsNumber_cons (by decide) rest), Option.bind_some]
      rfl
    | cons n members =>
      rw [renderMembers_cons] at hfuel ⊢
      simp only [List.length_append, List.length_singleton] at hfuel
      have htail := ih (List.cons_ne_nil n members)
        (fun u hu => hmembers u (List.mem_cons_of_mem (key, v) hu)) fuel rest (by omega)
      simp only [List.append_assoc]
      rw [hkey _ (by omega), List.singleton_append,
        hv fuel _ (by omega) (endsNumber_cons (by decide) _), Option.bind_some]
      simp only [List.head?_cons, List.tail_cons, if_true, htail, Option.map_some]

/-- Every value has a character, so there is fuel for a step. -/
theorem ReadsBack.of_step {depth : Nat} {v : Json} (hv : PrintableAt depth v)
    (h : ∀ fuel rest, (renderChars v).length ≤ fuel + 1 → EndsNumber rest →
      readValue (fuel + 1) (renderChars v ++ rest) = some (v, rest)) : ReadsBack v := by
  intro fuel rest hfuel hrest
  obtain ⟨c, cs, hcs, -⟩ := renderChars_head hv
  cases fuel with
  | zero => simp [hcs] at hfuel
  | succ fuel => exact h fuel rest hfuel hrest

/-- **Round trip**: what is printed is read back. -/
theorem readValue_renderChars {depth : Nat} {v : Json} (h : PrintableAt depth v) :
    ReadsBack v := by
  induction h with
  | null depth => exact .of_step (.null depth) fun _ _ _ _ => rfl
  | bool depth b => exact .of_step (.bool depth b) fun _ _ _ _ => by cases b <;> rfl
  | number depth hn =>
    exact .of_step (.number depth hn) fun fuel _ _ hrest => readValue_number _ fuel hrest
  | string depth s =>
    refine .of_step (.string depth s) fun fuel rest hfuel _ => ?_
    rw [renderChars] at hfuel ⊢
    rw [renderString_eq, readValue, if_pos rfl, readString_renderString s rest hfuel,
      Option.map_some, String.ofList_toList]
  | @array depth items hitems ih =>
    refine .of_step (.array hitems) fun fuel rest hfuel _ => ?_
    rw [renderChars] at hfuel ⊢
    simp only [List.length_append, List.length_singleton] at hfuel
    have htext : ['['] ++ renderItems items ++ [']'] ++ rest
        = '[' :: (renderItems items ++ ']' :: rest) := by simp
    rw [htext, readValue, if_neg (by decide), if_pos rfl]
    cases items with
    | nil =>
      rw [renderItems, List.nil_append, if_pos List.head?_cons, List.tail_cons]
    | cons w items =>
      have hhead : (renderItems (w :: items) ++ ']' :: rest).head? ≠ some ']' := by
        obtain ⟨c, cs, hcs, hc⟩ := renderChars_head (hitems w List.mem_cons_self)
        cases items with
        | nil => simpa [renderItems, hcs] using hc
        | cons u items => simpa [renderItems_cons, hcs] using hc
      rw [if_neg hhead, readItems_renderItems _ (List.cons_ne_nil w items) ih fuel rest (by omega),
        Option.map_some]
  | @object depth members hkeys hmembers ih =>
    refine .of_step (.object hkeys hmembers) fun fuel rest hfuel _ => ?_
    rw [renderChars] at hfuel ⊢
    simp only [List.length_append, List.length_singleton] at hfuel
    have htext : [Char.ofNat 123] ++ renderMembers members ++ [Char.ofNat 125] ++ rest
        = Char.ofNat 123 :: (renderMembers members ++ Char.ofNat 125 :: rest) := by simp
    rw [htext, readValue, if_neg (by decide), if_neg (by decide), if_pos rfl]
    cases members with
    | nil =>
      rw [renderMembers, List.nil_append, if_pos List.head?_cons, List.tail_cons]
    | cons m members =>
      obtain ⟨key, v⟩ := m
      have hhead : (renderMembers ((key, v) :: members) ++ Char.ofNat 125 :: rest).head?
          ≠ some (Char.ofNat 125) := by
        cases members <;> simp [renderMembers, renderString]
      rw [if_neg hhead, readMembers_renderMembers _ (List.cons_ne_nil _ members) ih fuel rest
        (by omega), Option.map_some]

theorem read_faithful : Faithful read := by
  intro v hv
  have hread := readValue_renderChars hv (renderChars v).length [] (Nat.le_refl _)
    (fun c hc => by cases hc)
  rw [List.append_nil] at hread
  rw [read, render, String.toList_ofList, hread]

/-! ### No control characters -/

theorem escapeChar_printing (c : Char) : ∀ d ∈ escapeChar c, 32 ≤ d.toNat := by
  have hhex : ∀ n : Fin 16, 32 ≤ (hexDigit n).toNat := by decide
  intro d hd
  unfold escapeChar at hd
  split_ifs at hd with _ _ _ _ _ _ _ hcontrol <;>
    simp only [List.mem_cons, List.not_mem_nil, or_false] at hd
  · rcases hd with rfl | rfl <;> decide
  · rcases hd with rfl | rfl <;> decide
  · rcases hd with rfl | rfl <;> decide
  · rcases hd with rfl | rfl <;> decide
  · rcases hd with rfl | rfl <;> decide
  · rcases hd with rfl | rfl <;> decide
  · rcases hd with rfl | rfl <;> decide
  · have hhigh := hhex ⟨c.toNat / 16, by omega⟩
    have hlow := hhex ⟨c.toNat % 16, by omega⟩
    rcases hd with rfl | rfl | rfl | rfl | rfl | rfl
    · decide
    · decide
    · decide
    · decide
    · exact hhigh
    · exact hlow
  · rw [hd]
    omega

theorem renderString_printing (s : String) : ∀ d ∈ renderString s, 32 ≤ d.toNat := by
  intro d hd
  simp only [renderString, List.mem_append, List.mem_singleton, List.mem_flatMap] at hd
  obtain (rfl | ⟨c, -, hc⟩) | rfl := hd
  · decide
  · exact escapeChar_printing c d hc
  · decide

theorem renderItems_printing (items : List Json)
    (h : ∀ v ∈ items, ∀ d ∈ renderChars v, 32 ≤ d.toNat) :
    ∀ d ∈ renderItems items, 32 ≤ d.toNat := by
  induction items with
  | nil => intro d hd; cases hd
  | cons v items ih =>
    have hv := h v List.mem_cons_self
    have htail := ih fun w hw => h w (List.mem_cons_of_mem v hw)
    intro d hd
    cases items with
    | nil => exact hv d (by rwa [renderItems] at hd)
    | cons w items =>
      simp only [renderItems_cons, List.mem_append, List.mem_singleton] at hd
      obtain (hd | rfl) | hd := hd
      · exact hv d hd
      · decide
      · exact htail d hd

theorem renderMembers_printing (members : List (String × Json))
    (h : ∀ m ∈ members, ∀ d ∈ renderChars m.2, 32 ≤ d.toNat) :
    ∀ d ∈ renderMembers members, 32 ≤ d.toNat := by
  induction members with
  | nil => intro d hd; cases hd
  | cons m members ih =>
    obtain ⟨key, v⟩ := m
    have hv := h (key, v) List.mem_cons_self
    have hkey := renderString_printing key
    have htail := ih fun w hw => h w (List.mem_cons_of_mem (key, v) hw)
    intro d hd
    cases members with
    | nil =>
      simp only [renderMembers, List.mem_append, List.mem_singleton] at hd
      obtain (hd | rfl) | hd := hd
      · exact hkey d hd
      · decide
      · exact hv d hd
    | cons n members =>
      simp only [renderMembers_cons, List.mem_append, List.mem_singleton] at hd
      obtain (((hd | rfl) | hd) | rfl) | hd := hd
      · exact hkey d hd
      · decide
      · exact hv d hd
      · decide
      · exact htail d hd

theorem printing_of_all {text : List Char} (h : text.all (fun c => 32 ≤ c.toNat) = true) :
    ∀ d ∈ text, 32 ≤ d.toNat :=
  fun d hd => of_decide_eq_true (List.all_eq_true.mp h d hd)

/-- **No control character** stands in the text of a value, whatever its strings hold. -/
theorem renderChars_printing {depth : Nat} {v : Json} (h : PrintableAt depth v) :
    ∀ d ∈ renderChars v, 32 ≤ d.toNat := by
  induction h with
  | null => exact printing_of_all (by decide)
  | bool _ b => exact printing_of_all (by cases b <;> decide)
  | @number _ n _ =>
    intro d hd
    have hdigit := (toString_digits n).1 d hd
    rw [Char.isDigit, Bool.and_eq_true] at hdigit
    have hlo := of_decide_eq_true hdigit.1
    rw [ge_iff_le, UInt32.le_iff_toNat_le] at hlo
    exact le_trans (by decide) hlo
  | string _ s => exact renderString_printing s
  | array _ ih =>
    intro d hd
    simp only [renderChars, List.mem_append, List.mem_singleton] at hd
    obtain (rfl | hd) | rfl := hd
    · decide
    · exact renderItems_printing _ ih d hd
    · decide
  | object _ _ ih =>
    intro d hd
    simp only [renderChars, List.mem_append, List.mem_singleton] at hd
    obtain (rfl | hd) | rfl := hd
    · decide
    · exact renderMembers_printing _ ih d hd
    · decide

/-- The text of a value can cross as a C string. -/
theorem nul_not_mem_render {depth : Nat} {v : Json} (h : PrintableAt depth v) :
    Char.ofNat 0 ∉ v.render.toList := by
  rw [render, String.toList_ofList]
  intro hmem
  exact absurd (renderChars_printing h _ hmem) (by decide)

theorem roundTrip_render : RoundTrip render read where
  read_print h := read_faithful _ h
  nul_not_mem h := nul_not_mem_render h

end Json
