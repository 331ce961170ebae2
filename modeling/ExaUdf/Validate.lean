import Mathlib.Data.List.Lex
import Mathlib.Order.Lex
import ExaUdf.Loader

/-!
# Validating a shared object

`Validate.run` is the `validate` subcommand: it reads an object once, compares what the object needs
with what the script language container ships, and probes the vtable of every UDF that the object
exports.  A run leaves the lines that it prints and its result.

`Platform` is what the command takes from outside: the file system, the ELF reader and the dynamic
linker.
-/

namespace ExaUdf

/-! ### glibc versions -/

/-- A glibc symbol version, ordered component by component. -/
structure GlibcVersion where
  components : List UInt32
  deriving DecidableEq, Repr

namespace GlibcVersion

instance : LinearOrder GlibcVersion :=
  LinearOrder.lift' (fun v => v.components.map UInt32.toNat) fun v w h => by
    obtain ⟨v⟩ := v
    obtain ⟨w⟩ := w
    exact congrArg mk ((List.map_injective_iff.mpr fun _ _ => UInt32.toNat_inj.mp) h)

/-- A dot-separated numeric version; glibc's other names have no order. -/
def parse (text : String) : Option GlibcVersion :=
  ((text.toList.splitOn '.').mapM fun component =>
    parseU32 (Utf8.bytes (String.ofList component))).map mk

def display (v : GlibcVersion) : String :=
  ".".intercalate (v.components.map fun component => toString component.toNat)

end GlibcVersion

/-! ### The object -/

/-- A symbol of an object; its name is missing where the string table has none. -/
structure ElfSymbol where
  stShndx : Nat
  name : Option String
  deriving DecidableEq, Repr

/-- The parts of an ELF file that are read.  `verneed` has the versions that are needed of each
file. -/
structure Elf where
  eType : UInt16
  dynsyms : List ElfSymbol
  libraries : List String
  verneed : Option (List (List (Option String)))
  deriving DecidableEq, Repr

structure Platform where
  readFile : String → Except String (List UInt8)
  parseElf : List UInt8 → Except String Elf
  etToStr : UInt16 → String
  dlopen : String → Except String Library
  /-- The text of an `Utf8Error`. -/
  utf8Error : List UInt8 → String

structure SharedObject where
  udfNames : List String
  neededSonames : List String
  maxGlibcVersion : Option GlibcVersion
  deriving DecidableEq, Repr

inductive ElfError where
  | unreadable (path reason : String)
  | notASharedObject (path reason : String)
  deriving DecidableEq, Repr

def ElfError.display : ElfError → String
  | .unreadable path reason => "reading '" ++ path ++ "': " ++ reason
  | .notASharedObject path reason =>
    "'" ++ path ++ "' is not a parseable ELF shared object: " ++ reason

namespace Validate

def etDyn : UInt16 := 3

def shnUndef : Nat := 0

def glibcVersionPrefix : String := "GLIBC_"

/-- `str::strip_prefix` -/
def stripPrefixOf (start name : String) : Option String :=
  (stripPrefix start name.toList).map String.ofList

def udfEntryNames (elf : Elf) : List String :=
  ((elf.dynsyms.filter fun symbol => symbol.stShndx ≠ shnUndef).filterMap ElfSymbol.name).filterMap
    (stripPrefixOf udfEntryPrefix)

def referencedVersionNames (elf : Elf) : List String :=
  match elf.verneed with
  | none => []
  | some neededFiles => neededFiles.flatten.filterMap id

def maxGlibcVersion (versionNames : List String) : Option GlibcVersion :=
  ((versionNames.filterMap (stripPrefixOf glibcVersionPrefix)).filterMap GlibcVersion.parse).max?

def sharedObjectFrom (pf : Platform) (bytes : List UInt8) : Except String SharedObject :=
  match pf.parseElf bytes with
  | .error e => .error e
  | .ok elf =>
    if elf.eType ≠ etDyn then
      .error ("its ELF type is ET_" ++ pf.etToStr elf.eType ++ ", not ET_DYN")
    else .ok
      { udfNames := udfEntryNames elf
        neededSonames := elf.libraries
        maxGlibcVersion := maxGlibcVersion (referencedVersionNames elf) }

def read (pf : Platform) (path : String) : Except ElfError SharedObject :=
  match pf.readFile path with
  | .error e => .error (.unreadable path e)
  | .ok bytes => (sharedObjectFrom pf bytes).mapError (.notASharedObject path)

/-! ### What the container ships -/

/-- The sonames that the container stages. -/
def allowedSonames : List String :=
  ["libc.so.6", "libm.so.6", "libpthread.so.0", "libdl.so.2", "librt.so.1", "libnss_files.so.2",
    "libnss_dns.so.2", "libresolv.so.2", "libgcc_s.so.1", "libstdc++.so.6", "libssl.so.3",
    "libcrypto.so.3", "libz.so.1", "libbz2.so.1", "libbz2.so.1.0", "libzstd.so.1"]

def loaderSonames : List String :=
  ["ld-linux-x86-64.so.2", "ld-linux-aarch64.so.1"]

def vdsoSoname : String := "linux-vdso.so.1"

/-- The version of the container's glibc. -/
def glibcFloor : GlibcVersion := ⟨[2, 41]⟩

example : GlibcVersion.parse "2.41" = some glibcFloor := by decide +kernel

inductive FloorCompliance where
  | withinFloor
  | exceedsFloor
  deriving DecidableEq, Repr

def checkAgainstFloor (referenced : GlibcVersion) : FloorCompliance :=
  if referenced ≤ glibcFloor then .withinFloor else .exceedsFloor

def isKnownSoname (soname : String) : Bool :=
  soname == vdsoSoname || loaderSonames.contains soname || allowedSonames.contains soname

def unknownSonames (neededSonames : List String) : List String :=
  neededSonames.filter fun soname => !isKnownSoname soname

/-! ### The command -/

def usage : String :=
  "Usage: cargo exasol-udf validate <path-to-so> [--deny-unknown-deps]"

def denyUnknownDeps : String := "--deny-unknown-deps"

/-- The artifact, and whether a dependency that is not staged is an error. -/
def parseValidateArgs : List String → Option String → Bool → Except String (String × Bool)
  | [], path, deny =>
    match path with
    | some path => .ok (path, deny)
    | none => .error usage
  | arg :: args, path, deny =>
    if arg = denyUnknownDeps then parseValidateArgs args path true
    else if "--".toList.isPrefixOf arg.toList then
      .error ("unrecognized argument '" ++ arg ++ "'. " ++ usage)
    else
      match path with
      | none => parseValidateArgs args (some arg) deny
      | some _ => .error ("unrecognized argument '" ++ arg ++ "'. " ++ usage)

/-- The highest version that the object references, against the floor; the line is printed. -/
def reportGlibcFloor (artifact : SharedObject) (soPath : String) : Except String String :=
  match artifact.maxGlibcVersion with
  | some version =>
    if checkAgainstFloor version = .exceedsFloor then
      .error ("'" ++ soPath ++ "' references GLIBC_" ++ version.display
        ++ " which exceeds the SLC's glibc floor " ++ glibcFloor.display
        ++ "; it cannot load in the container")
    else .ok ("glibc: highest reference GLIBC_" ++ version.display ++ " (SLC floor "
      ++ glibcFloor.display ++ ")")
  | none => .ok ("glibc: no GLIBC_x.y reference (SLC floor " ++ glibcFloor.display ++ ")")

def reportDynamicDependencies (artifact : SharedObject) (soPath : String)
    (denyUnknownDeps : Bool) : Except String String :=
  let unknownDeps := unknownSonames artifact.neededSonames
  if unknownDeps.isEmpty then
    .ok ("dependencies: " ++ ", ".intercalate artifact.neededSonames
      ++ " (all within the SLC library surface)")
  else if denyUnknownDeps then
    .error ("'" ++ soPath ++ "' links dependencies outside the SLC library surface: "
      ++ ", ".intercalate unknownDeps)
  else .ok ("warning: '" ++ soPath ++ "' links dependencies outside the SLC library surface: "
    ++ ", ".intercalate unknownDeps)

/-- The ABI version and the fingerprint under an entry symbol. -/
def loadVtableFields (pf : Platform) (soPath udfName : String) :
    Except String (UInt32 × String) :=
  match pf.dlopen soPath with
  | .error e => .error ("dlopen '" ++ soPath ++ "' failed: " ++ e)
  | .ok lib =>
    match lib.get (entrySymbol udfName) with
    | none =>
      let symName := String.ofList (trimEndMatches '\x00' (entrySymbol udfName).toList)
      .error ("symbol " ++ symName ++ " not found in '" ++ soPath ++ "'")
    | some none => .error "entry function returned null vtable pointer"
    | some (some vtable) =>
      match vtable.fingerprint with
      | none => .error "vtable fingerprint pointer is null"
      | some bytes =>
        match Utf8.text? bytes with
        | none => .error ("fingerprint is not valid UTF-8: " ++ pf.utf8Error bytes)
        | some fingerprint => .ok (vtable.abiVersion, fingerprint)

/-- One entry point. -/
def verifyVtable (pf : Platform) (sdk : SdkBuild) (soPath udfName : String) : Except String Unit :=
  match loadVtableFields pf soPath udfName with
  | .error e => .error e
  | .ok (abiVersion, fingerprint) =>
    if abiVersion ≠ exaUdfAbiVersion then
      .error ("ABI version mismatch — .so has " ++ toString abiVersion.toNat
        ++ ", runtime expects " ++ toString exaUdfAbiVersion.toNat)
    else if fingerprint ≠ sdk.fingerprint then
      .error ("SDK fingerprint mismatch — .so has '" ++ fingerprint ++ "', runtime has '"
        ++ sdk.fingerprint ++ "'")
    else .ok ()

def vtableError (pf : Platform) (sdk : SdkBuild) (soPath udfName : String) : Option String :=
  match verifyVtable pf sdk soPath udfName with
  | .error e => some ("  " ++ udfName ++ ": " ++ e)
  | .ok () => none

/-- Every entry point; the lines are printed if none fails. -/
def verifyVtables (pf : Platform) (sdk : SdkBuild) (artifact : SharedObject) (soPath : String) :
    Except String (List String) :=
  let errors := artifact.udfNames.filterMap (vtableError pf sdk soPath)
  if errors.isEmpty then
    .ok (artifact.udfNames.map fun udfName => "  " ++ udfName ++ ": ABI version "
      ++ toString exaUdfAbiVersion.toNat ++ ", fingerprint " ++ sdk.fingerprint ++ " — OK")
  else .error ("validation failed for '" ++ soPath ++ "':\n" ++ "\n".intercalate errors)

def noEntryPoints (soPath : String) : String :=
  "no __exa_udf_entry_<NAME> entry point found in '" ++ soPath ++ "'; "
    ++ "hint: rebuild against sdk >= 0.14.0"

/-- Validate a compiled UDF. -/
def run (pf : Platform) (sdk : SdkBuild) (args : List String) :
    List String × Except String Unit :=
  match parseValidateArgs args none false with
  | .error e => ([], .error e)
  | .ok (soPath, deny) =>
    match read pf soPath with
    | .error e => ([], .error e.display)
    | .ok artifact =>
      if artifact.udfNames.isEmpty then ([], .error (noEntryPoints soPath))
      else
        match reportGlibcFloor artifact soPath with
        | .error e => ([], .error e)
        | .ok glibc =>
          match reportDynamicDependencies artifact soPath deny with
          | .error e => ([glibc], .error e)
          | .ok dependencies =>
            match verifyVtables pf sdk artifact soPath with
            | .error e => ([glibc, dependencies], .error e)
            | .ok entries => ([glibc, dependencies] ++ entries
              ++ ["✓ " ++ toString artifact.udfNames.length ++ " UDF(s) validated in '" ++ soPath
                ++ "'"], .ok ())

end Validate

end ExaUdf
