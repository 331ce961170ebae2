import ExaUdf.Context

/-!
# The context for unit tests

`TestContext` stands in for the host in a test without a database.  Of the context, only what a UDF
calls to read its rows is here: `get` and `next`.
-/

namespace ExaUdf

/-- What `next` does: move over the rows, or fail. -/
inductive NextPolicy where
  | advance
  | reject (e : UdfError)
  deriving DecidableEq, Repr

structure TestContext where
  rows : List (List Value)
  /-- The current row, counted from 1; `0` is before the first row. -/
  cursor : Nat
  nextPolicy : NextPolicy
  deriving DecidableEq, Repr

namespace TestContext

def positioned (rows : List (List Value)) (cursor : Nat) : TestContext where
  rows := rows
  cursor := cursor
  nextPolicy := .advance

/-- A SCALAR input, on its only row. -/
def scalar (row : List Value) : TestContext :=
  positioned [row] 1

/-- A SET input, before its first row. -/
def set (rows : List (List Value)) : TestContext :=
  positioned rows 0

def currentRow (t : TestContext) : Option (List Value) :=
  if t.cursor = 0 then none else t.rows[t.cursor - 1]?

def get (t : TestContext) (col : Nat) : Except UdfError Value :=
  match t.currentRow with
  | none => .error (.type ("get(" ++ toString col ++ ") with no current row; call next() first"))
  | some row =>
    match row[col]? with
    | some v => .ok v
    | none => .error (.type ("get(" ++ toString col ++ ") out of range; the current row has "
        ++ toString row.length ++ " columns"))

def next (t : TestContext) : Except UdfError Bool × TestContext :=
  match t.nextPolicy with
  | .reject e => (.error e, t)
  | .advance =>
    if t.cursor < t.rows.length then (.ok true, { t with cursor := t.cursor + 1 })
    else (.ok false, t)

end TestContext

/-! ### Reading rows -/

/-- A call that reads input. -/
inductive RowCall where
  | next
  | get (col : Nat)
  deriving DecidableEq, Repr

def RowCall.op : RowCall → CtxOp
  | next => .next
  | get col => .get col

/-- A call with its answer. -/
abbrev Answered := (op : CtxOp) × CtxAns op

/-- A UDF that makes these calls, whatever the answers are. -/
def script : List RowCall → UdfProg
  | [] => .done ⟨0, ""⟩
  | call :: calls => .call call.op fun _ => script calls

namespace TestContext

def answer (call : RowCall) (t : TestContext) : Answered × TestContext :=
  match call with
  | .next => (⟨.next, t.next.1⟩, t.next.2)
  | .get col =>
    (⟨.get col, match t.get col with
      | .ok v => .value v
      | .error e => .error e⟩, t)

/-- The answers of the double to a UDF's calls. -/
def answers : List RowCall → TestContext → List Answered
  | [], _ => []
  | call :: calls, t => (t.answer call).1 :: answers calls (t.answer call).2

end TestContext

end ExaUdf
