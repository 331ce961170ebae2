import ExaUdf.Validate

/-!
# Validation foresees loading

`run_ok_iff`: `validate` accepts an artifact exactly when it is acceptable for the container.  An
`Acceptable` object references no glibc version above the floor, and the runtime opens it for every
script that it exports an entry point for.
-/

namespace ExaUdf

namespace Elf

variable {elf : Elf} {name : String} {v : GlibcVersion}

/-- The object exports an entry point for a script of this name. -/
def Exports (elf : Elf) (name : String) : Prop :=
  ∃ symbol ∈ elf.dynsyms, symbol.stShndx ≠ 0 ∧ symbol.name = some ("__exa_udf_entry_" ++ name)

/-- The object needs a symbol of this version of glibc. -/
def References (elf : Elf) (v : GlibcVersion) : Prop :=
  ∃ files, elf.verneed = some files ∧ ∃ versions ∈ files, ∃ text : String,
    some ("GLIBC_" ++ text) ∈ versions ∧ GlibcVersion.parse text = some v

end Elf

namespace Validate

variable {pf : Platform} {sdk : SdkBuild} {elf : Elf} {path : String} {deny : Bool}

/-! ### Reading the object -/

theorem stripPrefixOf_eq_some {start name rest : String} :
    stripPrefixOf start name = some rest ↔ name = start ++ rest := by
  unfold stripPrefixOf stripPrefix
  split_ifs with h
  · obtain ⟨tail, htail⟩ := List.isPrefixOf_iff_prefix.mp h
    have hdrop : name.toList.drop start.length = tail := by
      rw [← htail, ← String.length_toList, List.drop_left]
    rw [Option.map_some, Option.some.injEq, hdrop]
    constructor
    · rintro rfl
      apply String.toList_inj.mp
      rw [String.toList_append, String.toList_ofList, htail]
    · rintro rfl
      rw [String.toList_append, List.append_cancel_left_eq] at htail
      rw [htail, String.ofList_toList]
  · simp only [Option.map_none, reduceCtorEq, false_iff]
    rintro rfl
    apply h
    rw [String.toList_append]
    exact List.isPrefixOf_iff_prefix.mpr (List.prefix_append _ _)

theorem mem_udfEntryNames {name : String} : name ∈ udfEntryNames elf ↔ elf.Exports name := by
  unfold udfEntryNames Elf.Exports
  simp only [List.mem_filterMap, List.mem_filter, stripPrefixOf_eq_some, decide_eq_true_eq]
  constructor
  · rintro ⟨_, ⟨symbol, ⟨hmem, hdefined⟩, hname⟩, rfl⟩
    exact ⟨symbol, hmem, hdefined, hname⟩
  · rintro ⟨symbol, hmem, hdefined, hname⟩
    exact ⟨_, ⟨symbol, ⟨hmem, hdefined⟩, hname⟩, rfl⟩

theorem mem_versions {v : GlibcVersion} :
    v ∈ ((referencedVersionNames elf).filterMap (stripPrefixOf glibcVersionPrefix)).filterMap
      GlibcVersion.parse ↔ elf.References v := by
  unfold referencedVersionNames Elf.References
  cases elf.verneed with
  | none => simp
  | some files =>
    simp only [List.mem_filterMap, stripPrefixOf_eq_some, List.mem_flatten, id]
    constructor
    · rintro ⟨text, ⟨_, ⟨_, ⟨versions, hversions, hmem⟩, rfl⟩, rfl⟩, hparse⟩
      exact ⟨files, rfl, versions, hversions, text, hmem, hparse⟩
    · rintro ⟨_, hfiles, versions, hversions, text, hmem, hparse⟩
      cases hfiles
      exact ⟨text, ⟨_, ⟨_, ⟨versions, hversions, hmem⟩, rfl⟩, rfl⟩, hparse⟩

/-- The highest version stands for all of them. -/
theorem maxGlibcVersion_le_iff {floor : GlibcVersion} :
    (∀ v, maxGlibcVersion (referencedVersionNames elf) = some v → v ≤ floor)
      ↔ ∀ v, elf.References v → v ≤ floor := by
  simp only [← mem_versions]
  unfold maxGlibcVersion
  generalize ((referencedVersionNames elf).filterMap _).filterMap GlibcVersion.parse = versions
  constructor
  · intro h v hv
    cases hmax : versions.max? with
    | none =>
      rw [List.max?_eq_none_iff.mp hmax] at hv
      exact absurd hv List.not_mem_nil
    | some top => exact (List.max?_le_iff hmax).mp (h top hmax) v hv
  · exact fun h v hmax => h v (List.max?_mem hmax)

/-- What is derived from an object. -/
def factsOf (elf : Elf) : SharedObject where
  udfNames := udfEntryNames elf
  neededSonames := elf.libraries
  maxGlibcVersion := maxGlibcVersion (referencedVersionNames elf)

theorem sharedObjectFrom_ok {bytes : List UInt8} {artifact : SharedObject} :
    sharedObjectFrom pf bytes = .ok artifact ↔
      ∃ elf, pf.parseElf bytes = .ok elf ∧ elf.eType = etDyn ∧ artifact = factsOf elf := by
  unfold sharedObjectFrom
  cases pf.parseElf bytes with
  | error e => simp
  | ok elf =>
    constructor
    · intro h
      dsimp only at h
      split_ifs at h with htype
      exact ⟨elf, rfl, not_not.mp htype, (Except.ok.inj h).symm⟩
    · rintro ⟨_, helf, htype, rfl⟩
      cases helf
      exact if_neg (not_not.mpr htype)

theorem read_ok {artifact : SharedObject} : read pf path = .ok artifact ↔
    ∃ bytes, pf.readFile path = .ok bytes ∧ sharedObjectFrom pf bytes = .ok artifact := by
  unfold read
  cases pf.readFile path with
  | error e => simp
  | ok bytes => cases h : sharedObjectFrom pf bytes <;> simp [Except.mapError, h]

/-! ### Arguments -/

/-- The arguments name one artifact, and maybe the flag. -/
def Args (args : List String) (path : String) (deny : Bool) : Prop :=
  args.filter (· ≠ denyUnknownDeps) = [path] ∧ "--".toList.isPrefixOf path.toList = false ∧
    deny = args.contains denyUnknownDeps

theorem parseValidateArgs_ok {args : List String} : ∀ {found : Option String} {flag : Bool},
    parseValidateArgs args found flag = .ok (path, deny) ↔
      found.toList ++ args.filter (· ≠ denyUnknownDeps) = [path] ∧
        (found = none → "--".toList.isPrefixOf path.toList = false) ∧
        deny = (flag || args.contains denyUnknownDeps) := by
  induction args with
  | nil =>
    intro found flag
    unfold parseValidateArgs
    cases found with
    | none => simp
    | some word =>
      constructor
      · rintro ⟨⟩
        exact ⟨rfl, nofun, (Bool.or_false _).symm⟩
      · rintro ⟨hpath, -, rfl⟩
        cases hpath
        rw [List.contains_nil, Bool.or_false]
  | cons arg args ih =>
    intro found flag
    unfold parseValidateArgs
    by_cases hflag : arg = denyUnknownDeps
    · rw [if_pos hflag, ih, hflag]
      simp
    have hkept : (arg :: args).filter (· ≠ denyUnknownDeps)
        = arg :: args.filter (· ≠ denyUnknownDeps) := by simp [hflag]
    have hcontains : (arg :: args).contains denyUnknownDeps = args.contains denyUnknownDeps := by
      rw [List.contains_cons, beq_eq_false_iff_ne.mpr (Ne.symm hflag), Bool.false_or]
    rw [if_neg hflag, hkept, hcontains]
    cases found with
    | none =>
      rw [Option.toList_none, List.nil_append, List.cons.injEq]
      split_ifs with hdash
      -- A word that looks like a flag is not the artifact.
      · refine iff_of_false nofun ?_
        rintro ⟨⟨rfl, -⟩, hpath, -⟩
        rw [hpath rfl] at hdash
        cases hdash
      · dsimp only
        rw [ih, Option.toList_some, List.singleton_append, List.cons.injEq]
        constructor
        · rintro ⟨⟨rfl, hrest⟩, -, hdeny⟩
          exact ⟨⟨rfl, hrest⟩, fun _ => Bool.not_eq_true _ ▸ hdash, hdeny⟩
        · rintro ⟨hwords, -, hdeny⟩
          exact ⟨hwords, nofun, hdeny⟩
    | some word =>
      refine iff_of_false ?_ ?_
      · split_ifs <;> rintro ⟨⟩
      · rintro ⟨hwords, -⟩
        cases hwords

/-! ### Entry points -/

theorem fingerprint_ne_empty (sdk : SdkBuild) : sdk.fingerprint ≠ "" := by
  intro h
  have hall : trimEndMatches '\x00' sdk.exaSdkFingerprint.toList = [] := by
    rw [← String.toList_ofList (l := trimEndMatches _ _)]
    exact congrArg String.toList h
  -- The colon is not trimmed.
  have hcolon : ':' ∈ sdk.exaSdkFingerprint.toList := by
    simp [SdkBuild.exaSdkFingerprint]
  have hnul := List.rdropWhile_eq_nil_iff.mp hall ':' hcolon
  cases hnul

/-- **An entry point** that is found good is one that the runtime opens. -/
theorem verifyVtable_ok {name : String} : verifyVtable pf sdk path name = .ok () ↔
    ∃ udf, LoadedUdf.openObject pf.dlopen sdk path name = some (.ok udf) := by
  unfold verifyVtable loadVtableFields LoadedUdf.openObject
  cases pf.dlopen path with
  | error e => simp
  | ok lib =>
    dsimp only
    rcases lib.get (entrySymbol name) with - | - | vtable
    · simp
    · simp
    · dsimp only
      cases vtable.fingerprint with
      | none => split_ifs <;> simp
      | some bytes =>
        rw [Option.map_some]
        dsimp only
        cases Utf8.text? bytes with
        -- What is not UTF-8 counts as empty, and so differs from any fingerprint.
        | none =>
          have hempty : (none : Option String).getD "" ≠ sdk.fingerprint :=
            (fingerprint_ne_empty sdk).symm
          split_ifs <;> simp
        | some fingerprint =>
          dsimp only [Option.getD_some]
          split_ifs <;> simp


/-! ### The command -/

/-- What an artifact has to be for the container and its runtime. -/
structure Acceptable (pf : Platform) (sdk : SdkBuild) (path : String) (deny : Bool) (elf : Elf) :
    Prop where
  shared : elf.eType = etDyn
  exports : ∃ name, elf.Exports name
  glibc : ∀ v, elf.References v → v ≤ glibcFloor
  dependencies : deny = true → ∀ soname ∈ elf.libraries, isKnownSoname soname = true
  opens : ∀ name, elf.Exports name →
    ∃ udf, LoadedUdf.openObject pf.dlopen sdk path name = some (.ok udf)

theorem udfEntryNames_ne_nil : (udfEntryNames elf).isEmpty = false ↔ ∃ name, elf.Exports name := by
  simp only [← mem_udfEntryNames, List.isEmpty_eq_false_iff_exists_mem]

theorem reportGlibcFloor_ok (elf : Elf) (path : String) :
    (∃ line, reportGlibcFloor (factsOf elf) path = .ok line) ↔
      ∀ v, elf.References v → v ≤ glibcFloor := by
  rw [← maxGlibcVersion_le_iff]
  unfold reportGlibcFloor checkAgainstFloor
  dsimp only [factsOf]
  cases maxGlibcVersion (referencedVersionNames elf) with
  | none => simp
  | some version => by_cases hle : version ≤ glibcFloor <;> simp [hle]

theorem reportDynamicDependencies_ok (elf : Elf) (path : String) (deny : Bool) :
    (∃ line, reportDynamicDependencies (factsOf elf) path deny = .ok line) ↔
      (deny = true → ∀ soname ∈ elf.libraries, isKnownSoname soname = true) := by
  have hempty : (unknownSonames elf.libraries).isEmpty = true ↔
      ∀ soname ∈ elf.libraries, isKnownSoname soname = true := by
    rw [List.isEmpty_iff, unknownSonames, List.filter_eq_nil_iff]
    simp
  unfold reportDynamicDependencies
  dsimp only [factsOf]
  rw [← hempty]
  by_cases h : (unknownSonames elf.libraries).isEmpty = true <;> cases deny <;> simp [h]

theorem verifyVtables_ok (pf : Platform) (sdk : SdkBuild) (elf : Elf) (path : String) :
    (∃ lines, verifyVtables pf sdk (factsOf elf) path = .ok lines) ↔ ∀ name, elf.Exports name →
      ∃ udf, LoadedUdf.openObject pf.dlopen sdk path name = some (.ok udf) := by
  have hnone : ∀ name, vtableError pf sdk path name = none ↔
      ∃ udf, LoadedUdf.openObject pf.dlopen sdk path name = some (.ok udf) := by
    intro name
    rw [← verifyVtable_ok]
    unfold vtableError
    cases verifyVtable pf sdk path name <;> simp
  have hempty : ((udfEntryNames elf).filterMap (vtableError pf sdk path)).isEmpty = true ↔
      ∀ name, elf.Exports name →
        ∃ udf, LoadedUdf.openObject pf.dlopen sdk path name = some (.ok udf) := by
    rw [List.isEmpty_iff, List.filterMap_eq_nil_iff]
    simp only [hnone, mem_udfEntryNames]
  unfold verifyVtables
  dsimp only [factsOf]
  rw [← hempty]
  by_cases h : ((udfEntryNames elf).filterMap (vtableError pf sdk path)).isEmpty = true <;>
    simp [h]

/-- The checks of a run, one after the other. -/
theorem run_ok (pf : Platform) (sdk : SdkBuild) (args : List String) :
    (run pf sdk args).2 = .ok () ↔ ∃ path deny artifact,
      parseValidateArgs args none false = .ok (path, deny) ∧ read pf path = .ok artifact ∧
      artifact.udfNames.isEmpty = false ∧ (∃ line, reportGlibcFloor artifact path = .ok line) ∧
      (∃ line, reportDynamicDependencies artifact path deny = .ok line) ∧
      ∃ lines, verifyVtables pf sdk artifact path = .ok lines := by
  constructor
  · intro h
    unfold run at h
    split at h
    · cases h
    rename_i path deny hparse
    split at h
    · cases h
    rename_i artifact hread
    split_ifs at h with hnames
    split at h
    · cases h
    rename_i glibc hglibc
    split at h
    · cases h
    rename_i dependencies hdependencies
    split at h
    · cases h
    rename_i entries hentries
    exact ⟨path, deny, artifact, hparse, hread, Bool.eq_false_iff.mpr hnames, ⟨glibc, hglibc⟩,
      ⟨dependencies, hdependencies⟩, entries, hentries⟩
  · rintro ⟨path, deny, artifact, hparse, hread, hnames, ⟨glibc, hglibc⟩,
      ⟨dependencies, hdependencies⟩, entries, hentries⟩
    simp [run, hparse, hread, hnames, hglibc, hdependencies, hentries]

/-- **Validation** of an artifact succeeds exactly if the artifact is acceptable.  In particular no
reference exceeds the glibc floor, and the runtime opens the object for each of its scripts. -/
theorem run_ok_iff (pf : Platform) (sdk : SdkBuild) (args : List String) :
    (run pf sdk args).2 = .ok () ↔ ∃ path deny bytes elf, Args args path deny ∧
      pf.readFile path = .ok bytes ∧ pf.parseElf bytes = .ok elf ∧
      Acceptable pf sdk path deny elf := by
  have hargs : ∀ path deny, parseValidateArgs args none false = .ok (path, deny) ↔
      Args args path deny := by
    intro path deny
    rw [parseValidateArgs_ok, Bool.false_or]
    exact and_congr_right fun _ => and_congr_left fun _ => ⟨fun h => h rfl, fun h _ => h⟩
  rw [run_ok]
  constructor
  · rintro ⟨path, deny, artifact, hparse, hread, hnames, hglibc, hdependencies, hentries⟩
    obtain ⟨bytes, hbytes, hobject⟩ := read_ok.mp hread
    obtain ⟨elf, helf, htype, rfl⟩ := sharedObjectFrom_ok.mp hobject
    exact ⟨path, deny, bytes, elf, (hargs path deny).mp hparse, hbytes, helf, htype,
      udfEntryNames_ne_nil.mp hnames, (reportGlibcFloor_ok elf path).mp hglibc,
      (reportDynamicDependencies_ok elf path deny).mp hdependencies,
      (verifyVtables_ok pf sdk elf path).mp hentries⟩
  · rintro ⟨path, deny, bytes, elf, hwords, hbytes, helf, h⟩
    exact ⟨path, deny, factsOf elf, (hargs path deny).mpr hwords,
      read_ok.mpr ⟨bytes, hbytes, sharedObjectFrom_ok.mpr ⟨elf, helf, h.shared, rfl⟩⟩,
      udfEntryNames_ne_nil.mpr h.exports, (reportGlibcFloor_ok elf path).mpr h.glibc,
      (reportDynamicDependencies_ok elf path deny).mpr h.dependencies,
      (verifyVtables_ok pf sdk elf path).mpr h.opens⟩

end Validate

end ExaUdf
