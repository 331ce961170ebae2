import ExaUdf.SingleCall

/-!
# The cleanup hook

`runHook` runs the cleanup hook after dispatch, over a context that refuses whatever would use the
control channel, and folds the hook's error into the outcome, the original error first.
-/

namespace ExaUdf

namespace Cleanup

def refusals : Refusals where
  get := "cleanup has no input row to read"
  emit := "cleanup cannot emit rows: the database accepts no output after MT_CLEANUP"
  next := "cleanup has no input rows"

/-- The refusal is recorded, so that it explains a failing hook. -/
def lookup (name : String) (ctx : HookContext) : Except UdfError ConnInfo × HookContext :=
  let refusal : UdfError :=
    .connection ("CONNECTION lookups are unavailable during cleanup: resolve \"" ++ name
      ++ "\" in run() and keep it for cleanup")
  (.error refusal, { ctx with lastError := some refusal.display })

def handle (op : CtxOp) (ctx : HookContext) : CtxAns op × HookContext :=
  ctx.handle refusals lookup op

def messageOf : RuntimeError → String
  -- These carry the text of the UDF itself, without a prefix.
  | .udf text | .unexplained text => text
  | other => other.display

def fold (outcome : Except RuntimeError Unit) (cleanup : RuntimeError) :
    Except RuntimeError Unit :=
  match outcome with
  | .ok () => .error cleanup
  | .error original =>
    .error (.udf (messageOf original ++ " (cleanup also failed: " ++ messageOf cleanup ++ ")"))

/-- Run the cleanup hook, if any. -/
def runHook (udf : LoadedUdf) (outcome : Except RuntimeError Unit) (w : World) :
    Except RuntimeError Unit × World :=
  match udf.cleanup with
  | none => (outcome, w)
  | some body =>
    let r := (body w.log).exec handle ⟨w.push (.hookStart .cleanup ""), none⟩
    let res := (lifecycleResult "cleanup" r.1).mapError (·.withRecordedDetail r.2.lastError)
    let w := r.2.world.push (.hookEnd .cleanup (res.map fun _ => ""))
    match res with
    -- A hook that succeeds leaves the outcome of dispatch as it was.
    | .ok () => (outcome, w)
    | .error e => (fold outcome e, w)

/-- The hook only adds notes to the history. -/
theorem runHook_rel {R : World → World → Prop} (hrefl : ∀ w, R w w)
    (htrans : ∀ {a b c}, R a b → R b c → R a c)
    (hnote : ∀ w e, e.isNote = true → R w (w.push e)) (udf : LoadedUdf)
    (outcome : Except RuntimeError Unit) (w : World) : R w (runHook udf outcome w).2 := by
  unfold runHook
  split
  · exact hrefl w
  · rename_i body _
    have hcall : ∀ op (ctx : HookContext), R ctx.world (handle op ctx).2.world := by
      intro op ctx
      cases op <;> exact hnote _ _ rfl
    have hexec := Prog.exec_rel handle (R := fun c c' : HookContext => R c.world c'.world)
      (fun _ => hrefl _) htrans hcall (body w.log) ⟨w.push (.hookStart .cleanup ""), none⟩
    have hall := htrans (hnote w (.hookStart .cleanup "") rfl) hexec
    dsimp only
    split <;> exact htrans hall (hnote _ _ rfl)

end Cleanup

end ExaUdf
