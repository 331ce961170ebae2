import ExaUdf.Context

/-!
# The generated run shim

The `#[exasol_udf]` macro wraps the author's function into the `run` slot of the vtable.  What an
author's function does is a program over the context methods that returns, fails or panics,
`BodyExit`.  `lifecycleShim` turns that into a return code and a text; `returnsBody` is the call
that the shim of a RETURNS function makes, which hands the returned value over by `set_return`.
-/

namespace ExaUdf

/-! ### Returned values -/

/-- Conversion of returned values. -/
class IntoValue (α : Type) where
  intoValue : α → Value

export IntoValue (intoValue)

instance : IntoValue Value := ⟨id⟩
instance : IntoValue Int32 := ⟨.int32⟩
instance : IntoValue Int64 := ⟨.int64⟩
instance : IntoValue F64 := ⟨.double⟩
instance : IntoValue Bool := ⟨.bool⟩
instance : IntoValue String := ⟨.string⟩
instance : IntoValue Decimal := ⟨.numeric⟩
instance : IntoValue NaiveDate := ⟨.date⟩
instance : IntoValue NaiveDateTime := ⟨.timestamp⟩

instance {α : Type} [IntoValue α] : IntoValue (Option α) where
  intoValue
    | some inner => intoValue inner
    | none => .null

/-! ### Shims -/

/-- How an author's function ends. -/
inductive BodyExit (α : Type) where
  | ok (a : α)
  | err (e : UdfError)
  | panic

/-- A text as a C string carries it. -/
def writeCString (value : String) : String :=
  value.map fun c => if c = '\x00' then '\uFFFD' else c

/-- `Ok` is 0, `Err` is 1 with its text, and a panic is 2. -/
def lifecycleExit : BodyExit Unit → HookExit
  | .ok () => ⟨0, ""⟩
  | .err e => ⟨1, writeCString e.display⟩
  | .panic => ⟨2, ""⟩

/-- The shim of a `run` or `cleanup` slot. -/
def lifecycleShim (callBody : Prog CtxOp CtxAns (BodyExit Unit)) : UdfProg :=
  callBody.bind fun exit => .done (lifecycleExit exit)

/-- Call a RETURNS function, and set what it returns. -/
def returnsBody {α : Type} [IntoValue α] (body : Prog CtxOp CtxAns (BodyExit (Option α))) :
    Prog CtxOp CtxAns (BodyExit Unit) :=
  body.bind fun
    | .ok ret => .call (.setReturn (ret.map intoValue)) fun
      | .ok () => .done (.ok ())
      | .error e => .done (.err e)
    | .err e => .done (.err e)
    | .panic => .done .panic

/-- The `run` slot of a RETURNS function. -/
def returnsShim {α : Type} [IntoValue α] (body : Prog CtxOp CtxAns (BodyExit (Option α))) :
    UdfProg :=
  lifecycleShim (returnsBody body)

end ExaUdf
