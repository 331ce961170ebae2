import ExaUdf.Arrow
import ExaUdf.Lib.Interaction
import ExaUdf.Lib.Json
import ExaUdf.Protocol

/-!
# What a UDF can do

A UDF talks to its host through the methods of its context, `CtxOp`, each with its answer `CtxAns`.
An invocation is a program over these operations that ends with a return code and a text,
`HookExit`.

A session leaves a history of `Event`s.  A `LoadedUdf` is given by what each of its hooks does after
any history, so it may remember whatever it has seen, and nothing is assumed about it.  The context
methods that only read the handshake's metadata are left out, and whatever else a UDF does outside
the control channel, such as opening a connection back, is `CtxOp.outside`.
-/

namespace ExaUdf

/-! ### Errors -/

inductive RuntimeError where
  | loader (message : String)
  | abiMismatch (expected found : UInt32)
  | fingerprintMismatch (expected found : String)
  | outputShapeMismatch (compiled registered : String)
  | unsupported (message : String)
  | protocol (e : ProtocolError)
  | udf (message : String)
  /-- A hook that failed without text of its own. -/
  | unexplained (message : String)
  | io (message : String)
  deriving DecidableEq, Repr

namespace RuntimeError

def display : RuntimeError → String
  | loader message => "Loader error: " ++ message
  | abiMismatch expected found =>
    "ABI version mismatch: expected " ++ toString expected.toNat ++ ", found "
      ++ toString found.toNat
  | fingerprintMismatch expected found =>
    "Fingerprint mismatch: expected " ++ expected ++ ", found " ++ found
  | outputShapeMismatch compiled registered =>
    "Output shape mismatch: UDF compiled as " ++ compiled ++ " but registered as " ++ registered
  | unsupported message => "Unsupported feature: " ++ message
  | protocol e => e.display
  | udf message => "UDF error: " ++ message
  | unexplained message => "UDF error: " ++ message
  | io message => "IO error: " ++ message

/-- Explain a failure without text of its own by the error the context recorded. -/
def withRecordedDetail (e : RuntimeError) (detail : Option String) : RuntimeError :=
  match e, detail with
  | unexplained text, some detail => udf (text ++ ": " ++ detail)
  | e, _ => e

end RuntimeError

/-! ### Context methods -/

/-- A call of a context method.  `emitBatch` carries what importing the Arrow batch gave. -/
inductive CtxOp where
  | get (col : Nat)
  | emit (values : List Value)
  | setReturn (value : Option Value)
  | emitBatch (imported : Except UdfError RecordBatch)
  | next
  | connection (name : String)
  | rowsInGroup
  /-- Something outside the control channel, with the error the context records for it. -/
  | outside (recorded : Option String)

/-- The answer of `get`, which panics where the host's row slice is out of bounds. -/
inductive GetAns where
  | value (v : Value)
  | error (e : UdfError)
  | panic
  deriving DecidableEq, Repr

/-- What a context method returns. -/
def CtxAns : CtxOp → Type
  | .get _ => GetAns
  | .emit _ | .setReturn _ | .emitBatch _ => Except UdfError Unit
  | .next => Except UdfError Bool
  | .connection _ => Except UdfError ConnInfo
  | .rowsInGroup => UInt64
  | .outside _ => Unit

/-- How a hook returns: its code, and the text it wrote. -/
structure HookExit where
  rc : Int32
  text : String
  deriving DecidableEq, Repr

/-- A hook running over a context. -/
abbrev UdfProg := Prog CtxOp CtxAns HookExit

inductive Hook where
  | defaultOutputColumns
  | virtualSchemaAdapterCall
  | generateSqlForImportSpec
  | generateSqlForExportSpec
  | cleanup
  deriving DecidableEq, Repr

/-! ### History -/

/-- Something that happened in a session. -/
inductive Event where
  | send (f : Frame)
  | recv (r : ExascriptResponse)
  /-- A request has got its answer, pings aside. -/
  | answered (f : Frame) (res : Except RuntimeError HostEvent)
  | runStart
  | runEnd (res : Except RuntimeError Unit)
  /-- A context method has returned; `rowNumber` is that of the current row when it was called. -/
  | call (rowNumber : UInt64) (op : CtxOp) (ans : CtxAns op)
  | hookStart (hook : Hook) (arg : String)
  | hookEnd (hook : Hook) (res : Except RuntimeError String)

/-- Whether an event is not about the wire. -/
def Event.isNote : Event → Bool
  | .runStart | .runEnd _ | .call .. | .hookStart .. | .hookEnd .. => true
  | .send _ | .recv _ | .answered .. => false

/-- Whether an event is a note of dispatch, which never is about the cleanup hook. -/
def Event.isDispatchNote : Event → Bool
  | .hookStart .cleanup _ | .hookEnd .cleanup _ => false
  | e => e.isNote

theorem Event.isNote_of_isDispatchNote {e : Event} (h : e.isDispatchNote = true) :
    e.isNote = true := by
  unfold isDispatchNote at h
  split at h
  · cases h
  · cases h
  · exact h

/-! ### The loaded UDF -/

inductive OutputShape where
  | returns | emits
  deriving DecidableEq, Repr

def shapeName : OutputShape → String
  | .returns => "RETURNS"
  | .emits => "EMITS"

/-- A validated vtable. -/
structure LoadedUdf where
  run : List Event → UdfProg
  cleanup : Option (List Event → UdfProg)
  outputShape : OutputShape
  annotatedInputSchema : Option String
  annotatedOutputSchema : Option String
  defaultOutputColumns : Option (List Event → HookExit)
  virtualSchemaAdapterCall : Option (List Event → String → UdfProg)
  generateSqlForImportSpec : Option (List Event → String → UdfProg)
  generateSqlForExportSpec : Option (List Event → String → UdfProg)

namespace LoadedUdf

def validateOutputShape (udf : LoadedUdf) (outputIter : IterType) : Except RuntimeError Unit :=
  let registered :=
    match outputIter with
    | .exactlyOnce => OutputShape.returns
    | .multiple => OutputShape.emits
  if udf.outputShape ≠ registered then
    .error (.outputShapeMismatch (shapeName udf.outputShape) (shapeName registered))
  else .ok ()

end LoadedUdf

/-- A user error (code 1) with a text surfaces verbatim; anything else is a failure the hook did not
explain. -/
def hookError (exit : HookExit) (fallback : String) : RuntimeError :=
  if exit.text = "" then .unexplained fallback
  else if exit.rc = 1 then .udf exit.text
  else .unexplained exit.text

/-- The result of a `run` or `cleanup` slot. -/
def lifecycleResult (slotName : String) (exit : HookExit) : Except RuntimeError Unit :=
  if exit.rc = 0 then .ok ()
  else .error (hookError exit
    ("UDF " ++ slotName ++ " returned error code " ++ toString exit.rc.toInt))

/-- The result of a single-call hook. -/
def singleCallResult (name : String) (exit : HookExit) : Except RuntimeError String :=
  if exit.rc = 0 then .ok exit.text
  else .error (hookError exit
    ("single-call hook " ++ name ++ " returned error code " ++ toString exit.rc.toInt))

/-- What the session takes from outside, next to `Extern`: texts of the socket's errors, the derived
`Debug` text of an event, the JSON library's parser and printer, and loading a shared object. -/
structure Env extends Extern where
  pollElapsed : String
  socketStateError : String
  debugEvent : HostEvent → String
  parseJson : String → Except String Json
  printJson : Json → String
  openUdf : String → String → Except RuntimeError LoadedUdf

end ExaUdf
