import ExaUdf.Equiv.Wire
import ExaUdf.Lib.JsonText
import ExaUdf.SchemaCheck
import ExaUdf.SchemaMacro

/-!
# Which columns an annotated schema accepts

The macro writes a schema and the runtime compares it with the columns.  `validateOne_schemaJson`:
the columns are accepted that have the types of the fields and the names as the macro prints them.
It prints a raw identifier with its prefix, so the columns that the fields describe are accepted if
and only if no identifier is raw (`schemaJson_exact`).
-/

namespace ExaUdf

/-! ### What a field list describes -/

/-- The type is the one that is called `name`. -/
def RustType.Is (name : String) : RustType → Prop
  | path segments => ∃ ident, segments.getLast? = some ident ∧ ident.raw = false ∧ ident.name = name
  | reference _ => False
  | other tokens => String.ofList (tokens.toList.filter (· ≠ ' ')) = name

/-- The type is `str` or a reference to it. -/
def RustType.IsStr : RustType → Prop
  | path segments => RustType.Is "str" (.path segments)
  | reference elem => elem.Is "str"
  | other tokens => RustType.Is "str" (.other tokens) ∨ RustType.Is "&str" (.other tokens)

/-- The Rust types that stand for a column type. -/
def RustType.StandsFor (ty : RustType) : ExaType → Prop
  | .int32 => ty.Is "i32"
  | .int64 => ty.Is "i64"
  | .numeric _ _ => ty.Is "Decimal"
  | .double => ty.Is "f64" ∨ ty.Is "f32"
  | .boolean => ty.Is "bool"
  | .date => ty.Is "NaiveDate"
  | .timestamp _ => ty.Is "NaiveDateTime"
  | .string _ | .char _ => ty.Is "String" ∨ ty.IsStr
  | .unsupported => False

/-- The column has the field's name and a type that its Rust type stands for. -/
def SchemaField.Describes (f : SchemaField) (col : ColumnInfo) : Prop :=
  f.name.name = col.name ∧ f.ty.StandsFor col.typ

/-- As many columns as fields, each described by the field at its position. -/
def Described (fields : List SchemaField) (columns : List ColumnInfo) : Prop :=
  List.Forall₂ SchemaField.Describes fields columns

/-! ### The spelling of a type -/

/-- A prefix that no identifier has. -/
theorem Ident.text_eq_iff {name : String} (hname : name.toList.all isIdentChar = true)
    (ident : Ident) : ident.text = name ↔ ident.raw = false ∧ ident.name = name := by
  rw [Ident.text]
  cases hraw : ident.raw with
  | false => simp
  | true =>
    simp only [if_true, Bool.true_eq_false, false_and, iff_false]
    rintro rfl
    have hhash := List.all_eq_true.mp hname '#' (by simp)
    exact absurd hhash (by decide)

theorem RustType.is_iff {name : String} (hne : name ≠ "")
    (hname : name.toList.all isIdentChar = true) (ty : RustType) :
    ty.Is name ↔ typeTokenString ty = name := by
  cases ty with
  | path segments =>
    rw [Is, typeTokenString]
    cases hlast : segments.getLast? with
    | none => simp [Ne.symm hne]
    | some ident => simp [Ident.text_eq_iff hname]
  | reference elem =>
    rw [Is, typeTokenString, false_iff]
    rintro rfl
    have hand := List.all_eq_true.mp hname '&' (by simp)
    exact absurd hand (by decide)
  | other tokens => rw [Is, typeTokenString]

/-- What an identifier is printed with. -/
theorem Ident.text_chars (ident : Ident) :
    ∀ c ∈ ident.text.toList, isIdentChar c = true ∨ c = '#' := by
  intro c hc
  rw [text] at hc
  split_ifs at hc
  · rw [String.toList_append, List.mem_append] at hc
    obtain hprefix | hname := hc
    · have hall : "r#".toList.all (fun d => isIdentChar d || d == '#') = true := by decide
      simpa using List.all_eq_true.mp hall c hprefix
    · exact .inl (List.all_eq_true.mp ident.valid c hname)
  · exact .inl (List.all_eq_true.mp ident.valid c hc)

theorem RustType.isStr_iff (ty : RustType) :
    ty.IsStr ↔ typeTokenString ty = "str" ∨ typeTokenString ty = "&str" := by
  have hstr : ∀ ty : RustType, ty.Is "str" ↔ typeTokenString ty = "str" :=
    RustType.is_iff (by decide) (by decide)
  cases ty with
  | path segments =>
    have hand : typeTokenString (.path segments) ≠ "&str" := by
      rw [typeTokenString]
      cases segments.getLast? with
      | none => decide
      | some ident =>
        intro htext
        simp only [Option.map_some, Option.getD_some] at htext
        obtain hchar | hhash := ident.text_chars '&' (by rw [htext]; decide)
        · exact absurd hchar (by decide)
        · exact absurd hhash (by decide)
    rw [IsStr, hstr, or_iff_left hand]
  | reference elem =>
    have hplain : typeTokenString (.reference elem) ≠ "str" := by
      intro htext
      have hhead := congrArg (fun s : String => s.toList.head?) htext
      simp [typeTokenString] at hhead
    have hand : "&str" = "&" ++ "str" := by decide
    rw [IsStr, hstr, or_iff_right hplain, typeTokenString, hand, String.append_right_inj]
  | other tokens => rw [IsStr, Is, Is, typeTokenString]

/-- How the Rust types for a column type are spelled. -/
def ExaType.spellings : ExaType → List String
  | .int32 => ["i32"]
  | .int64 => ["i64"]
  | .numeric _ _ => ["Decimal"]
  | .double => ["f64", "f32"]
  | .boolean => ["bool"]
  | .date => ["NaiveDate"]
  | .timestamp _ => ["NaiveDateTime"]
  | .string _ | .char _ => ["String", "str", "&str"]
  | .unsupported => []

theorem RustType.standsFor_iff (ty : RustType) (typ : ExaType) :
    ty.StandsFor typ ↔ typeTokenString ty ∈ typ.spellings := by
  have his : ∀ name : String, name ≠ "" → name.toList.all isIdentChar = true →
      (ty.Is name ↔ typeTokenString ty = name) := fun _ hne hname => is_iff hne hname ty
  cases typ with
  | unsupported => simp [StandsFor, ExaType.spellings]
  | double =>
    rw [StandsFor, his "f64" (by decide) (by decide), his "f32" (by decide) (by decide)]
    simp [ExaType.spellings]
  | string | char =>
    rw [StandsFor, his "String" (by decide) (by decide), isStr_iff]
    simp [ExaType.spellings]
  | _ =>
    rw [StandsFor, his _ (by decide) (by decide)]
    simp [ExaType.spellings]

/-- **The two type tables agree**: the macro's name for a Rust type is the runtime's name for just
the column types that it stands for. -/
theorem rustTypeToExatype_iff {ty : RustType} {name : String}
    (h : rustTypeToExatype ty = .ok name) (typ : ExaType) :
    name = exatypeName typ ↔ ty.StandsFor typ := by
  rw [RustType.standsFor_iff]
  rw [rustTypeToExatype] at h
  generalize typeTokenString ty = spelling at h ⊢
  split at h <;> cases h <;> cases typ <;> simp [exatypeName, ExaType.spellings]

/-- Each type that has a name stands for a column type. -/
theorem rustTypeToExatype_exists {ty : RustType} {name : String}
    (h : rustTypeToExatype ty = .ok name) : ∃ typ : ExaType, ty.StandsFor typ := by
  have hname : ∃ typ, name = exatypeName typ := by
    rw [rustTypeToExatype] at h
    split at h <;> cases h
    · exact ⟨.int32, rfl⟩
    · exact ⟨.int64, rfl⟩
    · exact ⟨.double, rfl⟩
    · exact ⟨.double, rfl⟩
    · exact ⟨.boolean, rfl⟩
    · exact ⟨.string 0, rfl⟩
    · exact ⟨.string 0, rfl⟩
    · exact ⟨.string 0, rfl⟩
    · exact ⟨.numeric 0 0, rfl⟩
    · exact ⟨.date, rfl⟩
    · exact ⟨.timestamp 0, rfl⟩
  obtain ⟨typ, htyp⟩ := hname
  exact ⟨typ, (rustTypeToExatype_iff h typ).mp htyp⟩

/-! ### The text that is embedded -/

open Json (Printable PrintableAt)

/-- A schema as a JSON value. -/
def AnnotatedField.entry (a : AnnotatedField) : Json :=
  .object [("name", .string a.name), ("type", .string a.typ)]

def schemaValue (annotated : List AnnotatedField) : Json :=
  .array (annotated.map AnnotatedField.entry)

theorem schemaValue_printable (annotated : List AnnotatedField) :
    Printable (schemaValue annotated) := by
  refine .array fun v hv => ?_
  obtain ⟨a, -, rfl⟩ := List.mem_map.mp hv
  have hkeys : "name" < "type" := String.lt_iff_toList_lt.mpr (by decide)
  refine .object (by simpa using hkeys) ?_
  simp only [List.forall_mem_cons]
  exact ⟨.string _ _, .string _ _, by simp⟩

/-- A text without a character that JSON escapes. -/
def Unescaped (s : String) : Prop :=
  ∀ c ∈ s.toList, Json.escapeChar c = [c]

theorem Unescaped.of_all {s : String}
    (h : s.toList.all (fun c => Json.escapeChar c == [c]) = true) : Unescaped s :=
  fun c hc => beq_iff_eq.mp (List.all_eq_true.mp h c hc)

theorem renderString_unescaped {s : String} (h : Unescaped s) :
    Json.renderString s = ['"'] ++ s.toList ++ ['"'] := by
  have hall : ∀ cs : List Char, (∀ c ∈ cs, Json.escapeChar c = [c]) →
      cs.flatMap Json.escapeChar = cs := by
    intro cs hcs
    induction cs with
    | nil => rfl
    | cons c cs ih =>
      rw [List.flatMap_cons, hcs c List.mem_cons_self,
        ih fun d hd => hcs d (List.mem_cons_of_mem c hd), List.singleton_append]
  rw [Json.renderString, hall _ h]

theorem escapeChar_ident {c : Char} (h : isIdentChar c = true ∨ c = '#') :
    Json.escapeChar c = [c] := by
  obtain hident | rfl := h
  · have hnot : ∀ d : Char, isIdentChar d = false → c ≠ d := by
      rintro d hd rfl
      rw [hident] at hd
      cases hd
    have hcontrol : 32 ≤ c.toNat := by
      have hlow : ∀ n : Fin 32, isIdentChar (Char.ofNat n) = false := by decide
      by_contra hlt
      exact hnot _ (hlow ⟨c.toNat, by omega⟩) (Char.ofNat_toNat c).symm
    rw [Json.escapeChar, if_neg (hnot '"' (by decide)), if_neg (hnot '\\' (by decide)),
      if_neg (by omega), if_neg (by omega), if_neg (by omega), if_neg (by omega),
      if_neg (by omega), if_neg (by omega)]
  · rfl

theorem Ident.text_unescaped (ident : Ident) : Unescaped ident.text :=
  fun c hc => escapeChar_ident (ident.text_chars c hc)

theorem rustTypeToExatype_unescaped {ty : RustType} {name : String}
    (h : rustTypeToExatype ty = .ok name) : Unescaped name := by
  refine .of_all ?_
  rw [rustTypeToExatype] at h
  split at h <;> cases h <;> decide

/-- The fields as the runtime reads them. -/
def Annotates (f : SchemaField) (a : AnnotatedField) : Prop :=
  a.name = f.name.text ∧ rustTypeToExatype f.ty = .ok a.typ

theorem schemaEntry_ok {f : SchemaField} {entry : String} (h : schemaEntry f = .ok entry) :
    ∃ a, Annotates f a ∧ entry.toList = Json.renderChars a.entry := by
  rw [schemaEntry] at h
  cases htyp : rustTypeToExatype f.ty with
  | error e => rw [htyp] at h; cases h
  | ok typ =>
    rw [htyp] at h
    cases h
    refine ⟨⟨f.name.text, typ⟩, ⟨rfl, htyp⟩, ?_⟩
    have hkeys : Unescaped "name" ∧ Unescaped "type" :=
      ⟨.of_all (by decide), .of_all (by decide)⟩
    rw [AnnotatedField.entry, Json.renderChars, Json.renderMembers_cons, Json.renderMembers,
      renderString_unescaped hkeys.1, renderString_unescaped hkeys.2, Json.renderChars,
      Json.renderChars, renderString_unescaped f.name.text_unescaped,
      renderString_unescaped (rustTypeToExatype_unescaped htyp)]
    simp

theorem schemaEntries_ok {fields : List SchemaField} {entries : List String}
    (h : fields.mapM schemaEntry = .ok entries) :
    ∃ annotated, List.Forall₂ Annotates fields annotated ∧
      entries.map String.toList = annotated.map (Json.renderChars ∘ AnnotatedField.entry) := by
  induction fields generalizing entries with
  | nil => cases h; exact ⟨[], .nil, rfl⟩
  | cons f fields ih =>
    rw [List.mapM_cons] at h
    cases hentry : schemaEntry f with
    | error e => rw [hentry] at h; cases h
    | ok entry =>
      cases hrest : fields.mapM schemaEntry with
      | error e => rw [hentry, hrest] at h; cases h
      | ok rest =>
        rw [hentry, hrest] at h
        cases h
        obtain ⟨a, ha, htext⟩ := schemaEntry_ok hentry
        obtain ⟨annotated, hall, htexts⟩ := ih hrest
        exact ⟨a :: annotated, .cons ha hall, by rw [List.map_cons, htext, htexts]; rfl⟩

theorem renderItems_eq (items : List Json) :
    Json.renderItems items = [','].intercalate (items.map Json.renderChars) := by
  induction items with
  | nil => rfl
  | cons v items ih =>
    cases items with
    | nil => simp [Json.renderItems]
    | cons w items =>
      rw [Json.renderItems_cons, ih]
      simp [List.intercalate]

/-- **What the macro embeds** is the text of a JSON value, and a C string holds all of it. -/
theorem schemaJson_ok {fields : List SchemaField} {json : String}
    (h : schemaJson fields = .ok json) :
    ∃ annotated, List.Forall₂ Annotates fields annotated ∧
      cStr json = (schemaValue annotated).render := by
  rw [schemaJson] at h
  cases hentries : fields.mapM schemaEntry with
  | error e => rw [hentries] at h; cases h
  | ok entries =>
    rw [hentries] at h
    cases h
    obtain ⟨annotated, hall, htexts⟩ := schemaEntries_ok hentries
    refine ⟨annotated, hall, ?_⟩
    have htext : ("[" ++ ",".intercalate entries ++ "]\x00").toList
        = (schemaValue annotated).render.toList ++ [Char.ofNat 0] := by
      rw [Json.render, String.toList_ofList, schemaValue, Json.renderChars, renderItems_eq,
        List.map_map, ← htexts]
      simp [String.toList_intercalate]
    rw [cStr, htext, List.takeWhile_append_of_pos]
    · simp
    · intro c hc
      have hnul := Json.nul_not_mem_render (schemaValue_printable annotated)
      simp only [decide_not, Bool.not_eq_true', decide_eq_false_iff_not]
      rintro rfl
      exact hnul hc

/-! ### What the runtime makes of it -/

theorem parseField_entry (side : String) (a : AnnotatedField) :
    parseField side a.entry = .ok a :=
  rfl

/-- The environment reads JSON as it is written. -/
def Env.ReadsJson (env : Env) : Prop :=
  Json.Faithful fun text => (env.parseJson text).toOption

theorem parseSchema_schemaValue {env : Env} (henv : env.ReadsJson) (side : String)
    (annotated : List AnnotatedField) :
    parseSchema env side (schemaValue annotated).render = .ok annotated := by
  have hread := henv _ (schemaValue_printable annotated)
  have hparse : env.parseJson (schemaValue annotated).render = .ok (schemaValue annotated) := by
    cases hresult : env.parseJson (schemaValue annotated).render with
    | error e => simp [hresult, Except.toOption] at hread
    | ok v => simpa [hresult, Except.toOption] using hread
  have hfields : ∀ as : List AnnotatedField,
      (as.map AnnotatedField.entry).mapM (parseField side) = .ok as := by
    intro as
    induction as with
    | nil => rfl
    | cons a as ih =>
      rw [List.map_cons, List.mapM_cons, parseField_entry, ih]
      rfl
  rw [parseSchema, hparse]
  exact hfields annotated

/-- The loop accepts what agrees at every position. -/
theorem matchFields_iff (side : String) {annotated : List AnnotatedField}
    {columns : List ColumnInfo} (hlength : annotated.length = columns.length) (idx : Nat) :
    matchFields side idx annotated columns = .ok () ↔
      List.Forall₂ (fun a col => a.name = col.name ∧ a.typ = exatypeName col.typ)
        annotated columns := by
  induction annotated generalizing columns idx with
  | nil =>
    cases columns with
    | nil => exact iff_of_true rfl .nil
    | cons => cases hlength
  | cons a annotated ih =>
    cases columns with
    | nil => cases hlength
    | cons col columns =>
      rw [matchFields, List.forall₂_cons, and_assoc]
      split_ifs with hname htyp
      · exact iff_of_false (fun h => nomatch h) (fun h => hname h.1)
      · exact iff_of_false (fun h => nomatch h) (fun h => htyp h.2.1)
      · rw [ih (Nat.succ.inj hlength) (idx + 1)]
        simp [not_not.mp hname, not_not.mp htyp]

/-- The column has the name that the macro prints for the field. -/
def SchemaField.Prints (f : SchemaField) (col : ColumnInfo) : Prop :=
  f.name.text = col.name ∧ f.ty.StandsFor col.typ

theorem printed_iff_of_annotates {fields : List SchemaField} {annotated : List AnnotatedField}
    (h : List.Forall₂ Annotates fields annotated) (columns : List ColumnInfo) :
    List.Forall₂ (fun a col => a.name = col.name ∧ a.typ = exatypeName col.typ) annotated columns ↔
      List.Forall₂ SchemaField.Prints fields columns := by
  induction h generalizing columns with
  | nil => rw [List.forall₂_nil_left_iff, List.forall₂_nil_left_iff]
  | @cons f a fields annotated ha _ ih =>
    obtain ⟨hname, htyp⟩ := ha
    cases columns with
    | nil => simp
    | cons col columns =>
      rw [List.forall₂_cons, List.forall₂_cons, ih columns, hname, rustTypeToExatype_iff htyp,
        SchemaField.Prints]

/-- **What an embedded schema accepts**: columns with the printed names. -/
theorem validateOne_schemaJson {env : Env} (henv : env.ReadsJson) {fields : List SchemaField}
    {json : String} (hjson : schemaJson fields = .ok json) (side : String)
    (columns : List ColumnInfo) :
    validateOne env side (cStr json) columns = .ok () ↔
      List.Forall₂ SchemaField.Prints fields columns := by
  obtain ⟨annotated, hannotates, htext⟩ := schemaJson_ok hjson
  rw [← printed_iff_of_annotates hannotates, validateOne, htext, parseSchema_schemaValue henv]
  simp only [bind, Except.bind]
  split_ifs with hlength
  · exact iff_of_false (fun h => nomatch h) (fun h => hlength h.length_eq)
  · exact matchFields_iff side (not_not.mp hlength) 0

/-- Some columns fit the fields, whatever the names are. -/
theorem exists_columns {fields : List SchemaField} {json : String}
    (hjson : schemaJson fields = .ok json) : ∃ columns, Described fields columns := by
  obtain ⟨annotated, hannotates, -⟩ := schemaJson_ok hjson
  clear hjson
  induction hannotates with
  | nil => exact ⟨[], .nil⟩
  | @cons f a fields annotated ha _ ih =>
    obtain ⟨typ, htyp⟩ := rustTypeToExatype_exists ha.2
    obtain ⟨columns, hcolumns⟩ := ih
    exact ⟨⟨f.name.name, typ, "", none, none, none⟩ :: columns, .cons ⟨rfl, htyp⟩ hcolumns⟩

theorem Ident.text_eq_name_iff (ident : Ident) : ident.text = ident.name ↔ ident.raw = false := by
  rw [ident.text_eq_iff ident.valid, and_iff_left rfl]

/-- Described columns have the printed names if and only if no field is raw. -/
theorem printed_iff_of_described {fields : List SchemaField} {columns : List ColumnInfo}
    (h : Described fields columns) :
    List.Forall₂ SchemaField.Prints fields columns ↔ ∀ f ∈ fields, f.name.raw = false := by
  induction h with
  | nil => simp
  | @cons f col fields columns hdescribes _ ih =>
    rw [List.forall₂_cons, List.forall_mem_cons, ih, SchemaField.Prints, ← hdescribes.1,
      Ident.text_eq_name_iff, and_iff_left hdescribes.2]

theorem printed_iff_of_not_raw {fields : List SchemaField}
    (hraw : ∀ f ∈ fields, f.name.raw = false) (columns : List ColumnInfo) :
    List.Forall₂ SchemaField.Prints fields columns ↔ Described fields columns := by
  rw [Described]
  induction fields generalizing columns with
  | nil => rw [List.forall₂_nil_left_iff, List.forall₂_nil_left_iff]
  | cons f fields ih =>
    rw [List.forall_mem_cons] at hraw
    cases columns with
    | nil => simp
    | cons col columns =>
      rw [List.forall₂_cons, List.forall₂_cons, ih hraw.2 columns, SchemaField.Prints,
        f.name.text_eq_name_iff.mpr hraw.1, SchemaField.Describes]

/-- **When the embedded schema accepts what it describes**: exactly if no identifier is raw.  With a
raw one every list of columns that the fields describe is refused. -/
theorem schemaJson_exact {env : Env} (henv : env.ReadsJson) {fields : List SchemaField}
    {json : String} (hjson : schemaJson fields = .ok json) (side : String) :
    ((∀ columns, validateOne env side (cStr json) columns = .ok () ↔ Described fields columns) ↔
      ∀ f ∈ fields, f.name.raw = false) ∧
    ∀ columns, Described fields columns →
      (validateOne env side (cStr json) columns = .ok () ↔ ∀ f ∈ fields, f.name.raw = false) := by
  have hdescribed : ∀ columns, Described fields columns →
      (validateOne env side (cStr json) columns = .ok () ↔ ∀ f ∈ fields, f.name.raw = false) := by
    intro columns hcolumns
    rw [validateOne_schemaJson henv hjson, printed_iff_of_described hcolumns]
  refine ⟨⟨fun h => ?_, fun hraw columns => ?_⟩, hdescribed⟩
  · obtain ⟨columns, hcolumns⟩ := exists_columns hjson
    exact (hdescribed columns hcolumns).mp ((h columns).mpr hcolumns)
  · rw [validateOne_schemaJson henv hjson, printed_iff_of_not_raw hraw]

/-- A container that reads the JSON of schemas. -/
def Env.reading : Env :=
  { Env.reference (.emitting fun _ => .done ⟨0, ""⟩) with
    parseJson := fun text =>
      match Json.read text with
      | some v => .ok v
      | none => .error "expected value at line 1 column 1" }

theorem Env.reading_readsJson : Env.reading.ReadsJson := by
  intro v hv
  have hread := Json.read_faithful v hv
  simp only [reading, hread, Except.toOption]

/-- The fields `id: i64`, `label: &str` and `seen: chrono::NaiveDateTime`. -/
def plainFields : List SchemaField :=
  [{ name := ⟨false, "id", by decide⟩, ty := .path [⟨false, "i64", by decide⟩] },
    { name := ⟨false, "label", by decide⟩, ty := .reference (.path [⟨false, "str", by decide⟩]) },
    { name := ⟨false, "seen", by decide⟩
      ty := .path [⟨false, "chrono", by decide⟩, ⟨false, "NaiveDateTime", by decide⟩] }]

/-- The columns of `plainFields`. -/
def plainColumns : List ColumnInfo :=
  [⟨"id", .int64, "BIGINT", none, none, none⟩,
    ⟨"label", .string 20, "VARCHAR(20) UTF8", none, none, none⟩,
    ⟨"seen", .timestamp 3, "TIMESTAMP(3)", none, none, none⟩]

/-- The field `r#type: i64`. -/
def rawField : SchemaField where
  name := ⟨true, "type", by decide⟩
  ty := .path [⟨false, "i64", by decide⟩]

/-- A `BIGINT` column. -/
def int64Column (name : String) : ColumnInfo :=
  ⟨name, .int64, "BIGINT", none, none, none⟩

theorem schemaJson_exact_plain :
    ∃ json, schemaJson plainFields = .ok json ∧
      validateOne .reading "input" (cStr json) plainColumns = .ok () := by
  have hjson : schemaJson plainFields = .ok _ := rfl
  have hdescribed : Described plainFields plainColumns :=
    .cons ⟨rfl, ⟨_, rfl, rfl, rfl⟩⟩
      (.cons ⟨rfl, .inr ⟨_, rfl, rfl, rfl⟩⟩ (.cons ⟨rfl, ⟨_, rfl, rfl, rfl⟩⟩ .nil))
  exact ⟨_, hjson, ((schemaJson_exact Env.reading_readsJson hjson "input").2 _ hdescribed).mpr
    (by simp [plainFields])⟩

/-- A raw identifier keeps its prefix, so its own column is refused. -/
theorem schemaJson_raw_refused :
    ∃ json, schemaJson [rawField] = .ok json ∧
      ¬ (validateOne .reading "input" (cStr json) [int64Column "type"] = .ok () ↔
        Described [rawField] [int64Column "type"]) := by
  have hjson : schemaJson [rawField] = .ok _ := rfl
  have hdescribed : Described [rawField] [int64Column "type"] :=
    .cons ⟨rfl, ⟨_, rfl, rfl, rfl⟩⟩ .nil
  refine ⟨_, hjson, fun h => ?_⟩
  have hprinted := (validateOne_schemaJson Env.reading_readsJson hjson "input" _).mp
    (h.mpr hdescribed)
  exact absurd ((printed_iff_of_described hdescribed).mp hprinted) (by simp [rawField])

end ExaUdf
