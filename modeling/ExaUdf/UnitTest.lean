import ExaUdf.RowSet
import ExaUdf.TestContext

/-!
# Unit tests of a UDF

`TestDouble` is the whole of the context for unit tests: the rows of a `TestContext`, what becomes
of the output, and the metadata that a UDF asks for in a call.  `test` runs the body of a UDF
against it, and `output` is what can be read back afterwards.

`passes` is a test worth relying on: every call succeeds, every output row fits the output columns,
and the UDF returns no error.
-/

namespace ExaUdf

/-- What `emit` does with a row: keep it, or fail. -/
inductive EmitPolicy where
  | record
  | reject (e : UdfError)
  deriving DecidableEq, Repr

/-- The context for unit tests. -/
structure TestDouble extends TestContext where
  /-- The rows that have been emitted. -/
  emitted : List (List Value)
  /-- `none` before a value is returned, and `some none` for a NULL. -/
  capturedReturn : Option (Option Value)
  emitPolicy : EmitPolicy
  rowsInGroup : UInt64
  /-- CONNECTIONs by their names in upper case, the latest first. -/
  connections : List (String × ConnInfo)
  deriving DecidableEq, Repr

namespace TestDouble

def of (t : TestContext) : TestDouble where
  toTestContext := t
  emitted := []
  capturedReturn := none
  emitPolicy := .record
  rowsInGroup := 0
  connections := []

/-- A SCALAR input, on its only row. -/
def scalar (row : List Value) : TestDouble := of (.scalar row)

/-- A SET input, before its first row. -/
def set (rows : List (List Value)) : TestDouble := of (.set rows)

def emit (t : TestDouble) (values : List Value) : Except UdfError Unit × TestDouble :=
  match t.emitPolicy with
  | .record => (.ok (), { t with emitted := t.emitted ++ [values] })
  | .reject e => (.error e, t)

def connection (t : TestDouble) (name : String) : Except UdfError ConnInfo :=
  match t.connections.lookup (name.map Char.toUpper) with
  | some obj => .ok obj
  | none => .error (.connection ("connection " ++ name ++ " does not exist"))

/-- Answer a call of a context method. -/
def handle (op : CtxOp) (t : TestDouble) : CtxAns op × TestDouble :=
  match op with
  | .get col =>
    (match t.get col with
      | .ok v => .value v
      | .error e => .error e, t)
  | .emit values => t.emit values
  | .setReturn value => (.ok (), { t with capturedReturn := some value })
  -- The double does not override the default.
  | .emitBatch _ => (.error (.unimplemented "emit_record_batch_ffi"), t)
  | .next => (t.next.1, { t with toTestContext := t.next.2 })
  | .connection name => (t.connection name, t)
  | .rowsInGroup => (t.rowsInGroup, t)
  | .outside _ => ((), t)

/-- Run the body of a UDF against the double. -/
def test (t : TestDouble) (p : UdfProg) : HookExit × TestDouble :=
  p.exec handle t

/-- The output that a test reads back: the value of a RETURNS script, the rows of an EMITS one. -/
def output (t : TestDouble) : IterType → List (List Value)
  | .exactlyOnce => t.capturedReturn.toList.map fun value => [value.getD .null]
  | .multiple => t.emitted

/-- A call that succeeds, and that the host allows in such a script. -/
def accepts (ext : Extern) (m : UdfMeta) (t : TestDouble) : CtxOp → Bool
  | .get col => (t.get col).isOk
  | .emit values =>
    m.outputIter == .multiple && t.emitPolicy == .record &&
      (checkOutputRow ext values m.outputColumns).isOk
  | .setReturn value =>
    m.outputIter == .exactlyOnce && t.capturedReturn.isNone &&
      (checkOutputRow ext [value.getD .null] m.outputColumns).isOk
  | .next => m.inputIter == .multiple && t.nextPolicy == .advance
  | .emitBatch _ | .connection _ | .rowsInGroup | .outside _ => false

/-- Every call is accepted, and the UDF returns no error. -/
def passes (ext : Extern) (m : UdfMeta) : UdfProg → TestDouble → Bool
  | .done exit, _ => exit.rc == 0
  | .call op k, t => t.accepts ext m op && passes ext m (k (handle op t).1) (handle op t).2

end TestDouble

end ExaUdf
