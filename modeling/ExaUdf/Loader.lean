import ExaUdf.Artifact
import ExaUdf.Context

/-!
# Loading a shared object

`LoadedUdf.openObject` resolves the entry point of a script in a shared object, and checks what the
object was built against before anything else of it is called.

The dynamic linker is given by its `dlopen`, and an entry function by the vtable that it returns.
-/

namespace ExaUdf

def exaUdfAbiVersion : UInt32 := 12

/-- What the build of the SDK bakes in: its own version, and the compiler's. -/
structure SdkBuild where
  sdkVersion : String
  rustcHash : String
  deriving DecidableEq, Repr

namespace SdkBuild

/-- The fingerprint as a C string. -/
def exaSdkFingerprint (sdk : SdkBuild) : String :=
  sdk.sdkVersion ++ ":" ++ sdk.rustcHash ++ "\x00"

/-- The fingerprint without its NUL. -/
def fingerprint (sdk : SdkBuild) : String :=
  String.ofList (trimEndMatches '\x00' sdk.exaSdkFingerprint.toList)

end SdkBuild

/-- A vtable as a shared object holds it: what is checked, and what it is for.  The fingerprint is a
C string, and `none` if the pointer is null. -/
structure VTable where
  abiVersion : UInt32
  fingerprint : Option (List UInt8)
  udf : LoadedUdf

/-- An open shared object: the vtable that the function under a symbol returns, which may be
null. -/
structure Library where
  get : String → Option (Option VTable)

def udfEntryPrefix : String := "__exa_udf_entry_"

def entrySymbol (scriptName : String) : String :=
  udfEntryPrefix ++ scriptName ++ "\x00"

/-- The most common cause comes first: the symbol is derived from the SQL script name. -/
def noEntryPoint (scriptName : String) : String :=
  "no entry point found for script '" ++ scriptName ++ "': the UDF .so exports no '"
    ++ udfEntryPrefix ++ scriptName ++ "' symbol. The script name must match the UDF's exported "
    ++ "entry — a plain `fn run` exports `__exa_udf_entry_RUN`, and "
    ++ "`#[exasol_udf(name = \"...\")]` overrides it — so rename the script or the "
    ++ "function so they agree. If the .so exports no `__exa_udf_entry_*` symbol at "
    ++ "all, it predates entry-point naming: rebuild with sdk >= 0.14.0."

/-- Open an object for a script.  There is no result if a null fingerprint is read. -/
def LoadedUdf.openObject (dlopen : String → Except String Library) (sdk : SdkBuild)
    (path scriptName : String) : Option (Except RuntimeError LoadedUdf) :=
  match dlopen path with
  | .error e => some (.error (.loader e))
  | .ok lib =>
    match lib.get (entrySymbol scriptName) with
    | none => some (.error (.loader (noEntryPoint scriptName)))
    | some none => some (.error (.loader (udfEntryPrefix ++ scriptName ++ " returned null")))
    | some (some vtable) =>
      if vtable.abiVersion ≠ exaUdfAbiVersion then
        some (.error (.abiMismatch exaUdfAbiVersion vtable.abiVersion))
      else vtable.fingerprint.map fun bytes =>
        -- A fingerprint that is not UTF-8 counts as an empty one.
        let soFp := (Utf8.text? bytes).getD ""
        if soFp ≠ sdk.fingerprint then .error (.fingerprintMismatch sdk.fingerprint soFp)
        else .ok vtable.udf

end ExaUdf
