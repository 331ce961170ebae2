import ExaUdf.Artifact
import ExaUdf.Lib.Search

/-!
# Which lines are script directives

A directive is a line whose first word is its name; its argument is the rest without the semicolons
and the white space at its end.  The code looks for a prefix.  `recognisesWords_iff`: for every
source it treats the directives as whole words exactly if no longer word stands in for one before
the right line, and the right line ends in one run of semicolons.
-/

namespace ExaUdf

open Search (Thinned first)

/-! ### Lines -/

theorem stripCarriageReturn_subset (line : List Char) : stripCarriageReturn line ⊆ line := by
  rw [stripCarriageReturn]
  split_ifs
  · exact List.dropLast_subset line
  · exact List.Subset.refl line

/-- No line has a line feed. -/
theorem not_mem_lines (s : List Char) : ∀ line ∈ lines s, '\n' ∉ line := by
  intro line hline
  have hsplit := Search.not_mem_splitOn '\n' s
  have hne : s.splitOn '\n' ≠ [] := List.splitOn_ne_nil '\n' s
  rw [lines] at hline
  obtain hmap | hlast := List.mem_append.mp hline
  · obtain ⟨segment, hsegment, rfl⟩ := List.mem_map.mp hmap
    exact fun hmem => hsplit segment (List.dropLast_subset _ hsegment)
      (stripCarriageReturn_subset segment hmem)
  · split_ifs at hlast
    · cases hlast
    · rw [List.mem_singleton.mp hlast, List.getLastD_eq_getLast?, List.getLast?_eq_some_getLast hne]
      exact hsplit _ (List.getLast_mem hne)

/-- A source with the given lines. -/
def unlines (ls : List (List Char)) : String :=
  String.ofList (['\n'].intercalate (ls.map (· ++ ['\r']) ++ [[]]))

/-- Lines with a carriage return and a line feed each are read back. -/
theorem lines_unlines {ls : List (List Char)} (h : ∀ line ∈ ls, '\n' ∉ line) :
    lines (unlines ls).toList = ls := by
  have hsplit : (['\n'].intercalate (ls.map (· ++ ['\r']) ++ [[]])).splitOn '\n'
      = ls.map (· ++ ['\r']) ++ [[]] := by
    refine List.splitOn_intercalate '\n' (fun line hline => ?_) (by simp)
    obtain hmap | hlast := List.mem_append.mp hline
    · obtain ⟨l, hl, rfl⟩ := List.mem_map.mp hmap
      simpa using h l hl
    · simp [List.mem_singleton.mp hlast]
  rw [unlines, String.toList_ofList, lines, hsplit]
  simp [stripCarriageReturn, Function.comp_def]

/-! ### The words of a line -/

def firstWord (line : List Char) : List Char :=
  (line.dropWhile isWhitespace).takeWhile fun c => !isWhitespace c

def afterWord (line : List Char) : List Char :=
  (line.dropWhile isWhitespace).dropWhile fun c => !isWhitespace c

def isTerminator (c : Char) : Bool :=
  isWhitespace c || c == ';'

/-- What stands after the first word, without the semicolons and the white space at its end. -/
def argument (line : List Char) : List Char :=
  ((afterWord line).dropWhile isWhitespace).rdropWhile isTerminator

/-- The first word of the line begins with the name. -/
def BeginsWith (name : String) (line : List Char) : Prop :=
  name.toList <+: firstWord line

/-- The first word of the line is longer than the name and begins with it. -/
def Stray (name : String) (line : List Char) : Prop :=
  BeginsWith name line ∧ firstWord line ≠ name.toList

theorem beginsWith_of_whole {name : String} {line : List Char} (h : firstWord line = name.toList) :
    BeginsWith name line :=
  ⟨[], by rw [List.append_nil, h]⟩

theorem trim_eq (line : List Char) :
    trim line = firstWord line ++ (afterWord line).rdropWhile isWhitespace := by
  have hsplit : firstWord line ++ afterWord line = line.dropWhile isWhitespace :=
    List.takeWhile_append_dropWhile
  rw [trim, ← hsplit]
  by_cases hafter : (afterWord line).rdropWhile isWhitespace = []
  · -- The last character of a word is not a blank, so a line without argument ends with it.
    rw [hafter, List.append_nil,
      Search.rdropWhile_append_of_forall _ (List.rdropWhile_eq_nil_iff.mp hafter),
      List.rdropWhile_eq_self_iff]
    intro hne
    have hlast := List.mem_takeWhile_imp (List.getLast_mem hne)
    simpa using hlast
  · exact Search.rdropWhile_append_of_ne_nil _ hafter

/-- What follows a word starts with a blank, so a name that is a prefix ends within the word. -/
theorem prefix_trim_iff {name : String} (hname : name.toList.any isWhitespace = false)
    (line : List Char) : name.toList <+: trim line ↔ BeginsWith name line := by
  rw [trim_eq, BeginsWith]
  refine ⟨fun h => ?_, fun h => h.trans (List.prefix_append _ _)⟩
  obtain hshort | ⟨rest, hlong⟩ :=
    List.prefix_or_prefix_of_prefix h (List.prefix_append (firstWord line) _)
  · exact hshort
  · cases rest with
    | nil =>
      rw [List.append_nil] at hlong
      exact hlong ▸ List.prefix_refl _
    | cons c rest =>
      rw [← hlong, List.prefix_append_right_inj] at h
      have hc : c ∈ name.toList := by rw [← hlong]; simp
      have hblank : isWhitespace c = true := by
        obtain ⟨t, ht⟩ := h.trans (List.rdropWhile_prefix isWhitespace (afterWord line))
        have hhead := List.head?_dropWhile_not (fun c => !isWhitespace c)
          (line.dropWhile isWhitespace)
        rw [show (line.dropWhile isWhitespace).dropWhile (fun c => !isWhitespace c)
          = afterWord line from rfl, ← ht] at hhead
        simpa using hhead
      exact absurd hblank (List.any_eq_false.mp hname c hc)

/-! ### Terminators -/

/-- Trim, strip the semicolons, trim again. -/
def stripTerminators (rest : List Char) : List Char :=
  trim (trimEndMatches ';' (trim rest))

/-- Within the trimmed text only the end is stripped. -/
theorem stripTerminators_eq (rest : List Char) :
    stripTerminators rest = (((rest.dropWhile isWhitespace).rdropWhile isWhitespace).rdropWhile
      (· == ';')).rdropWhile isWhitespace := by
  have hstart : (rest.dropWhile isWhitespace).dropWhile isWhitespace
      = rest.dropWhile isWhitespace := List.dropWhile_idempotent isWhitespace rest
  have hprefix := (List.rdropWhile_prefix (· == ';') (trim rest)).trans
    (List.rdropWhile_prefix isWhitespace _)
  rw [stripTerminators, trimEndMatches, trim, Search.dropWhile_of_prefix hstart hprefix, trim]

theorem isTerminator_of_blank {c : Char} (h : isWhitespace c = true) : isTerminator c = true := by
  rw [isTerminator, h, Bool.true_or]

theorem isTerminator_of_semicolon {c : Char} (h : (c == ';') = true) : isTerminator c = true := by
  rw [isTerminator, h, Bool.or_true]

section

variable (line : List Char)

/-- The text after the first word as the code strips it. -/
def stripped : List Char :=
  ((((afterWord line).dropWhile isWhitespace).rdropWhile isWhitespace).rdropWhile
    (· == ';')).rdropWhile isWhitespace

/-- Stripping goes as far as the argument or stops before. -/
theorem stripped_rdropWhile : (stripped line).rdropWhile isTerminator = argument line := by
  rw [stripped, Search.rdropWhile_of_imp fun _ => isTerminator_of_blank,
    Search.rdropWhile_of_imp fun _ => isTerminator_of_semicolon,
    Search.rdropWhile_of_imp fun _ => isTerminator_of_blank, argument]

theorem argument_rdropWhile : (argument line).rdropWhile isTerminator = argument line :=
  List.rdropWhile_idempotent isTerminator _

theorem argument_eq_nil (h : stripped line = []) : argument line = [] := by
  rw [← stripped_rdropWhile, h, List.rdropWhile_nil]

/-- Where stripping stops before the argument, it stops at a semicolon. -/
theorem stripped_getLast (h : stripped line ≠ argument line) :
    (stripped line).getLast? = some ';' := by
  have hne : stripped line ≠ [] := fun hnil => h (hnil.trans (argument_eq_nil line hnil).symm)
  have hblank := List.rdropWhile_last_not isWhitespace _ hne
  have hterm : isTerminator ((stripped line).getLast hne) = true := by
    by_contra hlast
    have hself := List.rdropWhile_eq_self_iff.mpr fun _ : stripped line ≠ [] => hlast
    exact h (hself.symm.trans (stripped_rdropWhile line))
  rw [List.getLast?_eq_some_getLast hne]
  rw [isTerminator, Bool.or_eq_true] at hterm
  exact congrArg some (beq_iff_eq.mp (hterm.resolve_left hblank))

/-- The semicolons at the end of the line stand together. -/
def OneRun : Prop :=
  ∃ blanks semicolons blanks', (afterWord line).dropWhile isWhitespace
      = argument line ++ (blanks ++ (semicolons ++ blanks')) ∧
    (∀ c ∈ blanks, isWhitespace c = true) ∧ (∀ c ∈ semicolons, (c == ';') = true) ∧
    ∀ c ∈ blanks', isWhitespace c = true

theorem oneRun_iff : OneRun line ↔ stripped line = argument line := by
  rw [OneRun, stripped]
  constructor
  · rintro ⟨blanks, semicolons, blanks', hsplit, hblanks, hsemicolons, hblanks'⟩
    rw [hsplit]
    refine Search.rdropWhile_runs (fun c hc => ?_)
      (Search.rdropWhile_self_of_imp (fun _ => isTerminator_of_blank) _)
      (Search.rdropWhile_self_of_imp (fun _ => isTerminator_of_semicolon) _)
      hblanks hsemicolons hblanks'
    rw [beq_eq_false_iff_ne]
    rintro rfl
    exact absurd hc (by decide)
  · intro h
    generalize (afterWord line).dropWhile isWhitespace = text at h ⊢
    refine ⟨((text.rdropWhile isWhitespace).rdropWhile (· == ';')).rtakeWhile isWhitespace,
      (text.rdropWhile isWhitespace).rtakeWhile (· == ';'), text.rtakeWhile isWhitespace, ?_,
      fun c => List.mem_rtakeWhile_imp, fun c => List.mem_rtakeWhile_imp,
      fun c => List.mem_rtakeWhile_imp⟩
    rw [← h, ← List.append_assoc, List.rdropWhile_append_rtakeWhile, ← List.append_assoc,
      List.rdropWhile_append_rtakeWhile, List.rdropWhile_append_rtakeWhile]

end

/-! ### Directives -/

/-- A directive: its name, what a text after it says, and what holds without it. -/
structure Directive (β : Type) where
  name : String
  value : List Char → Option β
  default : β
  name_visible : name.toList.any isWhitespace = false
  value_none : ∀ text, value text = none → text = []
  value_injective : value [] = none → ∀ text text' b,
    value text = some b → value text' = some b → text = text'
  value_ne_default : value [] = none → ∀ text, value text ≠ some default

/-- The path of a shared object; an empty one says nothing. -/
def objectDirective : Directive (Option String) where
  name := "%udf_object"
  value text := if text = [] then none else some (some (String.ofList text))
  default := none
  name_visible := by decide
  value_none text := by simp
  value_injective := by
    intro _ text text' b h h'
    split_ifs at h h'
    exact String.ofList_injective (Option.some.inj (Option.some.inj (h.trans h'.symm)))
  value_ne_default := by
    intro _ text
    split_ifs <;> simp

/-- A tracing level; an unknown one is `info`. -/
def debugLevelDirective : Directive Level where
  name := "%udf_debug_level"
  value text := some (levelOfToken text)
  default := .info
  name_visible := by decide
  value_none _ := nofun
  value_injective := nofun
  value_ne_default := nofun

namespace Directive

variable {β : Type} (d : Directive β)

/-- What the code takes from a line. -/
def read (line : List Char) : Option β :=
  (stripPrefix d.name (trim line)).bind fun rest => d.value (stripTerminators rest)

/-- What a line says whose first word is the name. -/
def spec (line : List Char) : Option β :=
  if firstWord line = d.name.toList then d.value (argument line) else none

/-- The text after the name in a line that begins with it, as the code strips it. -/
def textAfter (line : List Char) : List Char :=
  stripTerminators ((trim line).drop d.name.length)

variable {d} {line : List Char}

theorem read_eq_none (h : ¬ BeginsWith d.name line) : d.read line = none := by
  have hprefix : ¬ d.name.toList.isPrefixOf (trim line) = true := by
    rw [List.isPrefixOf_iff_prefix, prefix_trim_iff d.name_visible]
    exact h
  rw [read, stripPrefix, if_neg hprefix, Option.bind_none]

theorem read_eq (h : BeginsWith d.name line) : d.read line = d.value (d.textAfter line) := by
  have hprefix : d.name.toList.isPrefixOf (trim line) = true := by
    rw [List.isPrefixOf_iff_prefix, prefix_trim_iff d.name_visible]
    exact h
  rw [read, stripPrefix, if_pos hprefix, Option.bind_some, textAfter]

/-- On a whole word the code strips the text after it. -/
theorem textAfter_whole (h : firstWord line = d.name.toList) :
    d.textAfter line = stripped line := by
  rw [textAfter, trim_eq, h, ← String.length_toList, List.drop_left, stripTerminators_eq,
    Search.trimming_comm, List.rdropWhile_idempotent, stripped]

theorem read_whole (h : firstWord line = d.name.toList) :
    d.read line = d.value (stripped line) := by
  rw [read_eq (beginsWith_of_whole h), textAfter_whole h]

theorem spec_eq_none_of_ne (h : firstWord line ≠ d.name.toList) : d.spec line = none := by
  rw [spec, if_neg h]

theorem spec_whole (h : firstWord line = d.name.toList) :
    d.spec line = d.value (argument line) := by
  rw [spec, if_pos h]

theorem value_eq_iff (hnil : d.value [] = none) {text text' : List Char} :
    d.value text = d.value text' ↔ text = text' := by
  refine ⟨fun h => ?_, fun h => by rw [h]⟩
  cases hvalue : d.value text with
  | none => rw [d.value_none text hvalue, d.value_none text' (h ▸ hvalue)]
  | some b => exact d.value_injective hnil _ _ b hvalue (h ▸ hvalue)

theorem beginsWith_of_read {b : β} (h : d.read line = some b) : BeginsWith d.name line := by
  by_contra hnot
  rw [read_eq_none hnot] at h
  cases h

/-- A text that says nothing is stripped completely. -/
theorem value_argument_none (h : d.value (stripped line) = none) :
    d.value (argument line) = none := by
  have hnil := d.value_none _ h
  rw [argument_eq_nil line hnil, ← hnil, h]

/-- The code overlooks no directive. -/
theorem spec_eq_none_of_read (h : d.read line = none) : d.spec line = none := by
  by_cases hword : firstWord line = d.name.toList
  · rw [read_whole hword] at h
    rw [spec_whole hword, value_argument_none h]
  · exact spec_eq_none_of_ne hword

/-- What is read from a whole word that says nothing is never the right value. -/
theorem read_ne_spec {b : β} (hstray : ¬ Stray d.name line) (hspec : d.spec line = none)
    (hread : d.read line = some b) : b ≠ d.default ∧ ∀ other, d.spec other ≠ some b := by
  have hword : firstWord line = d.name.toList := by
    by_contra hne
    exact hstray ⟨beginsWith_of_read hread, hne⟩
  rw [read_whole hword] at hread
  rw [spec_whole hword] at hspec
  have harg := d.value_none _ hspec
  have hnil : d.value [] = none := harg ▸ hspec
  refine ⟨fun hdefault => d.value_ne_default hnil _ (hdefault ▸ hread), fun other hother => ?_⟩
  by_cases hword' : firstWord other = d.name.toList
  · rw [spec_whole hword'] at hother
    -- The stripped text would be an argument, and so be stripped completely.
    have hsame := d.value_injective hnil _ _ b hread hother
    have hempty := stripped_rdropWhile line
    rw [hsame, argument_rdropWhile, harg] at hempty
    rw [hsame, hempty, hnil] at hread
    cases hread
  · rw [spec_eq_none_of_ne hword'] at hother
    cases hother

/-- **When the lines do not disturb the code**: up to the directive, a whole word is stripped
completely or to no effect, and a longer word says what the directive says. -/
theorem undisturbed_iff (ls : List (List Char)) :
    Search.Undisturbed d.default d.read d.spec ls ↔
      ∀ before line after, ls = before ++ line :: after → (∀ l ∈ before, d.spec l = none) →
        (firstWord line = d.name.toList → d.value (stripped line) = d.value (argument line)) ∧
        (Stray d.name line → ∀ b, d.value (d.textAfter line) = some b →
          first d.default d.spec ls = b) := by
  constructor
  · intro h before line after heq hbefore
    have hline := h before line after heq hbefore
    refine ⟨fun hword => ?_, fun hstray b hb => hline b ((read_eq hstray.1).trans hb)⟩
    cases hvalue : d.value (stripped line) with
    | none => rw [value_argument_none hvalue]
    | some b =>
      have hread : d.read line = some b := (read_whole hword).trans hvalue
      have hfirst := hline b hread
      cases hspec : d.spec line with
      | some c =>
        rw [heq, Search.first_append_cons hbefore hspec] at hfirst
        rw [← spec_whole hword, hspec, hfirst]
      | none =>
        obtain ⟨hdefault, hother⟩ := read_ne_spec (fun hstray => hstray.2 hword) hspec hread
        rw [Search.first_eq_iff] at hfirst
        obtain ⟨-, other, -, -, hb, -⟩ | ⟨-, hb⟩ := hfirst
        · exact absurd hb (hother other)
        · exact absurd hb hdefault
  · intro h before line after heq hbefore b hread
    obtain ⟨hwhole, hstray⟩ := h before line after heq hbefore
    by_cases hword : firstWord line = d.name.toList
    · rw [read_whole hword, hwhole hword, ← spec_whole hword] at hread
      rw [heq, Search.first_append_cons hbefore hread]
    · have hbegins := beginsWith_of_read hread
      exact hstray ⟨hbegins, hword⟩ b ((read_eq hbegins).symm.trans hread)

/-- The code finds the directive in a source and in the source without some of the noise exactly if
the lines do not disturb it. -/
theorem thinned_iff (noise : List Char → Prop) (hown : ∀ l, Stray d.name l → noise l)
    (hnoise : ∀ l, noise l → d.spec l = none) (source : String) :
    (∀ thinned : String, Thinned noise (lines source.toList) (lines thinned.toList) →
      first d.default d.read (lines thinned.toList)
        = first d.default d.spec (lines source.toList)) ↔
      Search.Undisturbed d.default d.read d.spec (lines source.toList) := by
  have hspec : ∀ l, d.read l = none → d.spec l = none := fun _ => spec_eq_none_of_read
  rw [← Search.first_thinned_iff hnoise hspec fun l b hl => read_ne_spec fun h => hl (hown l h)]
  refine ⟨fun h ls hthin => ?_, fun h thinned => h (lines thinned.toList)⟩
  -- The thinned lines are the lines of a source too.
  have hlines : lines (unlines ls).toList = ls :=
    lines_unlines fun line hline => not_mem_lines _ line (hthin.subset hline)
  rw [← hlines] at hthin ⊢
  exact h _ hthin

end Directive

/-! ### The two directives of the code -/

theorem parseUdfObjectPath_eq (source : String) :
    parseUdfObjectPath source = first none objectDirective.read (lines source.toList) := by
  have hread : objectDirective.read = fun line =>
      ((stripPrefix "%udf_object" (trim line)).bind fun rest =>
        let path := trim (trimEndMatches ';' (trim rest))
        if path = [] then none else some (String.ofList path)).map some := by
    funext line
    rw [Directive.read, objectDirective]
    dsimp only
    cases stripPrefix "%udf_object" (trim line) with
    | none => rfl
    | some rest =>
      rw [Option.bind_some, Option.bind_some, stripTerminators]
      split_ifs <;> rfl
  rw [parseUdfObjectPath, hread, Search.first_map_some]

theorem parseDebugLevel_eq (source : String) :
    parseDebugLevel source = first .info debugLevelDirective.read (lines source.toList) := by
  have hline : debugLevelDirective.read = fun line =>
      (stripPrefix "%udf_debug_level" (trim line)).map fun rest =>
        levelOfToken (trim (trimEndMatches ';' (trim rest))) := by
    funext line
    rw [Directive.read, Option.map_eq_bind]
    rfl
  rw [parseDebugLevel, first, hline]

/-! ### Whole words -/

/-- The line is a `%udf_object` directive with the path. -/
def PathLine (line : List Char) (path : String) : Prop :=
  firstWord line = "%udf_object".toList ∧ argument line = path.toList ∧ path ≠ ""

/-- The line is a `%udf_debug_level` directive. -/
def LevelLine (line : List Char) : Prop :=
  firstWord line = "%udf_debug_level".toList

/-- The path is that of the first line that has one. -/
def FirstPath (source path : String) : Prop :=
  ∃ before line after, lines source.toList = before ++ line :: after ∧ PathLine line path ∧
    ∀ l ∈ before, ∀ other, ¬ PathLine l other

/-- The level is named on the first line that asks for one, or `info` without such a line. -/
def FirstLevel (source : String) (level : Level) : Prop :=
  (∃ before line after, lines source.toList = before ++ line :: after ∧
    (LevelLine line ∧ levelOfToken (argument line) = level) ∧ ∀ l ∈ before, ¬ LevelLine l) ∨
  (∀ l ∈ lines source.toList, ¬ LevelLine l) ∧ level = .info

/-- The first word of the line merely begins with the name of a directive. -/
def StrayLine (line : List Char) : Prop :=
  Stray "%udf_object" line ∨ Stray "%udf_debug_level" line

/-- The directives of the source are recognised as whole words. -/
structure RecognisesWords (source : String) : Prop where
  path : ∀ path, parseUdfObjectPath source = some path ↔ FirstPath source path
  level : FirstLevel source (parseDebugLevel source)
  stray : ∀ thinned : String, Thinned StrayLine (lines source.toList) (lines thinned.toList) →
    parseUdfObjectPath thinned = parseUdfObjectPath source ∧
      parseDebugLevel thinned = parseDebugLevel source
  path_alone : ∀ thinned : String,
    Thinned (BeginsWith "%udf_debug_level") (lines source.toList) (lines thinned.toList) →
      parseUdfObjectPath thinned = parseUdfObjectPath source
  level_alone : ∀ thinned : String,
    Thinned (BeginsWith "%udf_object") (lines source.toList) (lines thinned.toList) →
      parseDebugLevel thinned = parseDebugLevel source

/-- Up to the first line with a path, the semicolons at the end of a directive are one run, and
what follows the name in a longer word is empty or that path. -/
def PathUndisturbed (source : String) : Prop :=
  ∀ before line after, lines source.toList = before ++ line :: after →
    (∀ l ∈ before, ∀ path, ¬ PathLine l path) →
    (firstWord line = "%udf_object".toList → OneRun line) ∧
    (Stray "%udf_object" line → ∀ path : String,
      objectDirective.textAfter line = path.toList → path ≠ "" → FirstPath source path)

/-- Up to the first line that asks for a level, the semicolons at its end are one run or it asks
for `info`, and a longer word is followed by the name of that level. -/
def LevelUndisturbed (source : String) : Prop :=
  ∀ before line after, lines source.toList = before ++ line :: after →
    (∀ l ∈ before, ¬ LevelLine l) →
    (LevelLine line → OneRun line ∨ levelOfToken (argument line) = .info) ∧
    (Stray "%udf_debug_level" line →
      FirstLevel source (levelOfToken (debugLevelDirective.textAfter line)))

theorem objectDirective_value {text : List Char} {path : String} :
    objectDirective.value text = some (some path) ↔ text = path.toList ∧ path ≠ "" := by
  rw [objectDirective]
  dsimp only
  split_ifs with hnil
  · refine iff_of_false nofun fun ⟨htext, hpath⟩ => hpath ?_
    rw [← String.ofList_toList (s := path), ← htext, hnil]
  · rw [Option.some_inj, Option.some_inj]
    constructor
    · rintro rfl
      refine ⟨String.toList_ofList.symm, fun hempty => hnil ?_⟩
      rw [← String.toList_ofList (l := text), hempty]
      rfl
    · rintro ⟨rfl, -⟩
      exact String.ofList_toList

theorem objectDirective_spec_eq_some {line : List Char} {path : String} :
    objectDirective.spec line = some (some path) ↔ PathLine line path := by
  rw [Directive.spec, PathLine]
  split_ifs with hword
  · rw [objectDirective_value]
    exact (and_iff_right hword).symm
  · exact iff_of_false nofun (fun h => hword h.1)

theorem objectDirective_spec_eq_none {line : List Char} :
    objectDirective.spec line = none ↔ ∀ path, ¬ PathLine line path := by
  simp only [← objectDirective_spec_eq_some]
  cases hspec : objectDirective.spec line with
  | none => simp
  | some value =>
    cases value with
    | some path => simp
    | none =>
      rw [Directive.spec] at hspec
      split_ifs at hspec
      exact absurd hspec (objectDirective.value_ne_default rfl _)

theorem firstPath_iff {source path : String} :
    FirstPath source path ↔
      first none objectDirective.spec (lines source.toList) = some path := by
  simp only [Search.first_eq_iff, objectDirective_spec_eq_some, objectDirective_spec_eq_none,
    FirstPath, reduceCtorEq, and_false, or_false]

theorem debugLevelDirective_spec_eq_none {line : List Char} :
    debugLevelDirective.spec line = none ↔ ¬ LevelLine line := by
  rw [Directive.spec, LevelLine]
  split_ifs with hword
  · exact iff_of_false nofun (fun h => h hword)
  · exact iff_of_true rfl hword

theorem debugLevelDirective_spec_eq_some {line : List Char} {level : Level} :
    debugLevelDirective.spec line = some level ↔
      LevelLine line ∧ levelOfToken (argument line) = level := by
  rw [Directive.spec, LevelLine]
  split_ifs with hword
  · exact Option.some_inj.trans (and_iff_right hword).symm
  · exact iff_of_false nofun (fun h => hword h.1)

theorem firstLevel_iff {source : String} {level : Level} :
    FirstLevel source level ↔
      first .info debugLevelDirective.spec (lines source.toList) = level := by
  simp only [Search.first_eq_iff, debugLevelDirective_spec_eq_some,
    debugLevelDirective_spec_eq_none, FirstLevel]

/-! ### Lines that the code passes over -/

/-- No line begins with both names. -/
theorem not_beginsWith_both {line : List Char} (h : BeginsWith "%udf_object" line) :
    ¬ BeginsWith "%udf_debug_level" line := by
  intro h'
  obtain hprefix | hprefix := List.prefix_or_prefix_of_prefix h h'
  · exact absurd hprefix (by decide)
  · exact absurd hprefix (by decide)

theorem objectDirective_spec_stray {line : List Char} (h : StrayLine line) :
    objectDirective.spec line = none := by
  refine Directive.spec_eq_none_of_ne fun hword => ?_
  obtain hstray | hstray := h
  · exact hstray.2 hword
  · exact not_beginsWith_both (beginsWith_of_whole hword) hstray.1

theorem debugLevelDirective_spec_stray {line : List Char} (h : StrayLine line) :
    debugLevelDirective.spec line = none := by
  refine Directive.spec_eq_none_of_ne fun hword => ?_
  obtain hstray | hstray := h
  · exact not_beginsWith_both hstray.1 (beginsWith_of_whole hword)
  · exact hstray.2 hword

/-- A name does not end in a semicolon. -/
theorem levelOfToken_semicolon {token : List Char} (h : token.getLast? = some ';') :
    levelOfToken token = .info := by
  have hlast : (String.ofList (token.map Char.toLower)).toList.getLast? = some ';' := by
    rw [String.toList_ofList, List.getLast?_map, h]
    rfl
  rw [levelOfToken]
  generalize String.ofList (token.map Char.toLower) = name at hlast ⊢
  split
  · exact absurd hlast (by decide)
  · rfl
  · exact absurd hlast (by decide)
  · exact absurd hlast (by decide)
  · rfl

theorem objectDirective_undisturbed (source : String) :
    Search.Undisturbed none objectDirective.read objectDirective.spec (lines source.toList) ↔
      PathUndisturbed source := by
  have hd := Directive.undisturbed_iff (d := objectDirective) (lines source.toList)
  refine hd.trans (forall₃_congr fun before line after => forall_congr' fun _ => ?_)
  simp only [objectDirective_spec_eq_none]
  refine forall_congr' fun _ => and_congr (forall_congr' fun _ => ?_) (forall_congr' fun _ => ?_)
  · rw [Directive.value_eq_iff rfl, oneRun_iff]
  · simp only [firstPath_iff]
    constructor
    · intro h path htext hpath
      exact h (some path) (objectDirective_value.mpr ⟨htext, hpath⟩)
    · intro h b hb
      cases b with
      | none => exact absurd hb (objectDirective.value_ne_default rfl _)
      | some path =>
        obtain ⟨htext, hpath⟩ := objectDirective_value.mp hb
        exact h path htext hpath

theorem debugLevelDirective_undisturbed (source : String) :
    Search.Undisturbed .info debugLevelDirective.read debugLevelDirective.spec
      (lines source.toList) ↔ LevelUndisturbed source := by
  have hd := Directive.undisturbed_iff (d := debugLevelDirective) (lines source.toList)
  refine hd.trans (forall₃_congr fun before line after => forall_congr' fun _ => ?_)
  simp only [debugLevelDirective_spec_eq_none]
  refine forall_congr' fun _ => and_congr (forall_congr' fun _ => ?_) (forall_congr' fun _ => ?_)
  · rw [oneRun_iff]
    by_cases hrun : stripped line = argument line
    · rw [hrun]
      exact iff_of_true rfl (.inl rfl)
    · have hinfo := levelOfToken_semicolon (stripped_getLast line hrun)
      rw [or_iff_right hrun, ← hinfo, eq_comm]
      exact Option.some_inj
  · rw [firstLevel_iff]
    exact ⟨fun h => h _ rfl, fun h b hb => h.trans (Option.some.inj hb)⟩

/-! ### When the directives are whole words -/

/-- **Exactly when directives are recognised as whole words**: no longer word stands in for one
before the right line, and the semicolons at the end of the right line stand together. -/
theorem recognisesWords_iff (source : String) :
    RecognisesWords source ↔ PathUndisturbed source ∧ LevelUndisturbed source := by
  have hpath := Directive.thinned_iff (d := objectDirective) StrayLine
    (fun _ => .inl) (fun _ => objectDirective_spec_stray) source
  have hlevel := Directive.thinned_iff (d := debugLevelDirective) StrayLine
    (fun _ => .inr) (fun _ => debugLevelDirective_spec_stray) source
  rw [← objectDirective_undisturbed, ← debugLevelDirective_undisturbed]
  constructor
  · intro h
    refine ⟨hpath.mp fun thinned hthin => ?_, hlevel.mp fun thinned hthin => ?_⟩
    · have hparse := (h.stray thinned hthin).1
      rw [parseUdfObjectPath_eq] at hparse
      refine hparse.trans (Option.ext fun path => ?_)
      exact (h.path path).trans firstPath_iff
    · have hparse := (h.stray thinned hthin).2
      rw [parseDebugLevel_eq] at hparse
      exact hparse.trans (firstLevel_iff.mp h.level).symm
  · rintro ⟨hpathLines, hlevelLines⟩
    have hpathThin := hpath.mpr hpathLines
    have hlevelThin := hlevel.mpr hlevelLines
    have hpathSource : parseUdfObjectPath source
        = first none objectDirective.spec (lines source.toList) :=
      (parseUdfObjectPath_eq source).trans (hpathThin source (.refl _ _))
    have hlevelSource : parseDebugLevel source
        = first .info debugLevelDirective.spec (lines source.toList) :=
      (parseDebugLevel_eq source).trans (hlevelThin source (.refl _ _))
    refine ⟨fun path => ?_, firstLevel_iff.mpr hlevelSource.symm, fun thinned hthin => ⟨?_, ?_⟩,
      fun thinned hthin => ?_, fun thinned hthin => ?_⟩
    · rw [hpathSource, firstPath_iff]
    · rw [hpathSource, parseUdfObjectPath_eq]
      exact hpathThin thinned hthin
    · rw [hlevelSource, parseDebugLevel_eq]
      exact hlevelThin thinned hthin
    · rw [parseUdfObjectPath_eq, parseUdfObjectPath_eq, first, first, hthin.findSome?_eq]
      exact fun line hline => Directive.read_eq_none fun h => not_beginsWith_both h hline
    · rw [parseDebugLevel_eq, parseDebugLevel_eq, first, first, hthin.findSome?_eq]
      exact fun line hline => Directive.read_eq_none (not_beginsWith_both hline)

/-- A longer word is taken for the directive, and the rest of it for the path. -/
theorem parseUdfObjectPath_longer :
    parseUdfObjectPath "%udf_object_v2 /x.so\n%udf_object /a.so" = some "_v2 /x.so" ∧
      ¬ RecognisesWords "%udf_object_v2 /x.so\n%udf_object /a.so" := by
  have hlines : lines "%udf_object_v2 /x.so\n%udf_object /a.so".toList
      = ["%udf_object_v2 /x.so".toList, "%udf_object /a.so".toList] := by decide
  have hparse : parseUdfObjectPath "%udf_object_v2 /x.so\n%udf_object /a.so"
      = some "_v2 /x.so" := by decide
  refine ⟨hparse, fun h => ?_⟩
  obtain ⟨before, line, after, heq, ⟨hword, hpath, -⟩, -⟩ := (h.path _).mp hparse
  have hmem : line ∈ lines "%udf_object_v2 /x.so\n%udf_object /a.so".toList := by
    rw [heq]
    exact List.mem_append_right _ List.mem_cons_self
  rw [hlines, List.mem_pair] at hmem
  obtain rfl | rfl := hmem
  · exact absurd hword (by decide)
  · exact absurd hpath (by decide)

end ExaUdf
