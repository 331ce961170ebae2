import ExaUdf.SpecJson
import ExaUdf.Wire

/-!
# Single-call sessions

`runSingleCall` answers each `MT_RUN` that brings an `MT_CALL` by the hook that the call names:
`MT_RETURN` with its result, or `MT_UNDEFINED_CALL` where the UDF has no such hook.

`HookContext` is the context of every hook without rows.  Its row methods only refuse; what differs
between single-call hooks and the cleanup hook is the texts and the lookup of a CONNECTION.
-/

namespace ExaUdf

/-! ### Contexts without rows -/

/-- What the row methods of a context without rows say. -/
structure Refusals where
  get : String
  emit : String
  next : String

structure HookContext where
  world : World
  lastError : Option String

namespace HookContext

/-- Answer a call of a context method, looking CONNECTIONs up by `lookup`. -/
def answer (refusals : Refusals)
    (lookup : String → HookContext → Except UdfError ConnInfo × HookContext) (op : CtxOp)
    (ctx : HookContext) : CtxAns op × HookContext :=
  match op with
  | .get _ => (.error (.unimplemented refusals.get), ctx)
  | .emit _ => (.error (.unimplemented refusals.emit), ctx)
  | .setReturn _ => (.error (.unimplemented "set_return"), ctx)
  | .emitBatch _ => (.error (.unimplemented "emit_record_batch_ffi"), ctx)
  | .next => (.error (.unimplemented refusals.next), ctx)
  | .connection name => lookup name ctx
  | .rowsInGroup => ((0 : UInt64), ctx)
  | .outside recorded => ((), { ctx with lastError := recorded.or ctx.lastError })

/-- Answer a call and note it in the history; there is no current row. -/
def handle (refusals : Refusals)
    (lookup : String → HookContext → Except UdfError ConnInfo × HookContext) (op : CtxOp)
    (ctx : HookContext) : CtxAns op × HookContext :=
  let r := ctx.answer refusals lookup op
  (r.1, { r.2 with world := r.2.world.push (.call 0 op r.1) })

end HookContext

def singleCallRefusals : Refusals where
  get := "single-call mode has no input columns"
  emit := "single-call mode does not emit rows"
  next := "single-call mode has no input rows"

/-- CONNECTION lookup over the control channel. -/
def singleCallLookup (env : Env) (name : String) (ctx : HookContext) :
    Except UdfError ConnInfo × HookContext :=
  match connRequester env name ctx.world with
  | (.error e, w) => (.error e, ⟨w, some e.display⟩)
  | (.ok ci, w) => (.ok ci, { ctx with world := w })

def singleCallHandle (env : Env) (op : CtxOp) (ctx : HookContext) : CtxAns op × HookContext :=
  ctx.handle singleCallRefusals (singleCallLookup env) op

/-! ### Hooks -/

inductive HookOutcome where
  | returned (result : String)
  | undefined
  deriving DecidableEq, Repr

/-- The payload of one `MT_CALL`. -/
structure SingleCallRequest where
  fnId : SingleCallFunctionId
  jsonArg : Option String
  importSpec : Option ImportSpecificationRep
  exportSpec : Option ExportSpecificationRep

def missingSpecification (hook field : String) : RuntimeError :=
  .udf ("single-call hook " ++ hook ++ ": the MT_CALL carried no " ++ field ++ " message")

/-- Run a hook with a context and an argument, which crosses as a C string. -/
def invokeCtxHook (env : Env) (hook : Hook) (name : String) (body : List Event → String → UdfProg)
    (arg : String) (w : World) : Except RuntimeError HookOutcome × World :=
  -- The argument cannot cross as a C string.
  if arg.toList.contains (Char.ofNat 0) then
    (.error (.udf (name ++ ": argument contains interior NUL")), w)
  else
    let r := (body w.log arg).exec (singleCallHandle env) ⟨w.push (.hookStart hook arg), none⟩
    let res := (singleCallResult name r.1).mapError (·.withRecordedDetail r.2.lastError)
    (res.map .returned, r.2.world.push (.hookEnd hook res))

/-- Run the hook without a context. -/
def invokeNoargHook (hook : Hook) (name : String) (body : List Event → HookExit) (w : World) :
    Except RuntimeError HookOutcome × World :=
  let res := singleCallResult name (body w.log)
  (res.map .returned, (w.push (.hookStart hook "")).push (.hookEnd hook res))

/-- Route one call to its hook. -/
def invokeHook (env : Env) (udf : LoadedUdf) (call : SingleCallRequest) (w : World) :
    Except RuntimeError HookOutcome × World :=
  match call.fnId with
  | .scFnDefaultOutputColumns =>
    match udf.defaultOutputColumns with
    -- A hook that the UDF does not have is answered by `MT_UNDEFINED_CALL`.
    | none => (.ok .undefined, w)
    | some body => invokeNoargHook .defaultOutputColumns "default_output_columns" body w
  | .scFnVirtualSchemaAdapterCall =>
    match udf.virtualSchemaAdapterCall with
    | none => (.ok .undefined, w)
    | some body => invokeCtxHook env .virtualSchemaAdapterCall "virtual_schema_adapter_call" body
        (call.jsonArg.getD "") w
  | .scFnGenerateSqlForImportSpec =>
    match udf.generateSqlForImportSpec with
    | none => (.ok .undefined, w)
    | some body =>
      match call.importSpec with
      | none =>
        (.error (missingSpecification "generate_sql_for_import_spec" "import_specification"), w)
      | some spec => invokeCtxHook env .generateSqlForImportSpec "generate_sql_for_import_spec"
          body (SpecJson.serializeImport env.printJson spec) w
  | .scFnGenerateSqlForExportSpec =>
    match udf.generateSqlForExportSpec with
    | none => (.ok .undefined, w)
    | some body =>
      match call.exportSpec with
      | none =>
        (.error (missingSpecification "generate_sql_for_export_spec" "export_specification"), w)
      | some spec => invokeCtxHook env .generateSqlForExportSpec "generate_sql_for_export_spec"
          body (SpecJson.serializeExport env.printJson spec) w
  | .scFnNil => (.ok .undefined, w)

/-- The name reported for a call without a hook. -/
def hookName : SingleCallFunctionId → String
  | .scFnDefaultOutputColumns => "default_output_columns"
  | .scFnVirtualSchemaAdapterCall => "virtual_schema_adapter_call"
  | .scFnGenerateSqlForImportSpec => "generate_sql_for_import_spec"
  | .scFnGenerateSqlForExportSpec => "generate_sql_for_export_spec"
  | .scFnNil => "SC_FN_NIL"

/-! ### The session -/

/-- No other message is valid at this point. -/
def unexpected (env : Env) (event : HostEvent) : Except RuntimeError Unit :=
  .error (.udf ("unexpected message in single-call mode: " ++ env.debugEvent event))

/-- The exchange that answers a call: `none` when the session goes on. -/
def replyCall (env : Env) (fnId : SingleCallFunctionId) (outcome : HookOutcome) (w : World) :
    Option (Except RuntimeError Unit) × World :=
  let reply :=
    match outcome with
    | .returned result => w.proto.returnRequest result
    | .undefined => w.proto.undefinedCallRequest (hookName fnId)
  match w.request env (.request reply) with
  | (.error e, w) => (some (.error e), w)
  | (.ok event, w) =>
    -- The acknowledgement has to be the one for the reply that was sent.
    match event, outcome with
    | .singleCallAck, .returned _ => (none, w)
    | .undefinedCallAck, .undefined => (none, w)
    | .cleanup, _ => (some (.ok ()), w)
    | .close message, _ => (some (closeError message), w)
    | other, _ => (some (unexpected env other), w)

/-- The `MT_DONE` that closes a call. -/
def finishCall (env : Env) (w : World) : Option (Except RuntimeError Unit) × World :=
  match w.request env (.request w.proto.doneRequest) with
  | (.error e, w) => (some (.error e), w)
  | (.ok event, w) =>
    match event with
    | .done => (none, w)
    | .cleanup => (some (.ok ()), w)
    | .close message => (some (closeError message), w)
    | other => (some (unexpected env other), w)

/-- One `MT_RUN`, and the call it brings. -/
def runSingleCallStep (env : Env) (udf : LoadedUdf) (w : World) :
    (Except RuntimeError Unit × World) ⊕ World :=
  match w.request env (.request w.proto.runRequest) with
  | (.error e, w) => .inl (.error e, w)
  | (.ok event, w) =>
    match event with
    | .singleCall fnId jsonArg importSpec exportSpec =>
      match invokeHook env udf ⟨fnId, jsonArg, importSpec, exportSpec⟩ w with
      | (.error e, w) => .inl (.error e, w)
      | (.ok outcome, w) =>
        match replyCall env fnId outcome w with
        | (some res, w) => .inl (res, w)
        | (none, w) =>
          match finishCall env w with
          | (some res, w) => .inl (res, w)
          | (none, w) => .inr w
    | .cleanup => .inl (.ok (), w)
    | .close message => .inl (closeError message, w)
    | other => .inl (unexpected env other, w)

/-! ### What every step respects -/

/-- What a call comes to: the UDF has no hook for it or the call lacks its argument, or a hook is
run, with a context or without. -/
inductive Invoked (env : Env) (w : World) : Except RuntimeError HookOutcome × World → Prop where
  | refused (res : Except RuntimeError HookOutcome) : Invoked env w (res, w)
  | noarg {hook : Hook} (name : String) (body : List Event → HookExit) : hook ≠ .cleanup →
    Invoked env w (invokeNoargHook hook name body w)
  | ctx {hook : Hook} (name : String) (body : List Event → String → UdfProg) (arg : String) :
    hook ≠ .cleanup → Invoked env w (invokeCtxHook env hook name body arg w)

theorem invokeHook_inv (env : Env) (udf : LoadedUdf) (call : SingleCallRequest) (w : World) :
    Invoked env w (invokeHook env udf call w) := by
  unfold invokeHook
  split
  · split
    · exact .refused _
    · exact .noarg _ _ (by decide)
  · split
    · exact .refused _
    · exact .ctx _ _ _ (by decide)
  · split
    · exact .refused _
    · split
      · exact .refused _
      · exact .ctx _ _ _ (by decide)
  · split
    · exact .refused _
    · split
      · exact .refused _
      · exact .ctx _ _ _ (by decide)
  · exact .refused _

/-- Dispatch notes the start and the end of every hook but the one for cleanup. -/
theorem isDispatchNote_of_ne_cleanup {hook : Hook} (h : hook ≠ .cleanup) :
    (∀ arg, (Event.hookStart hook arg).isDispatchNote = true) ∧
      ∀ res, (Event.hookEnd hook res).isDispatchNote = true := by
  cases hook with
  | cleanup => exact absurd rfl h
  | _ => exact ⟨fun _ => rfl, fun _ => rfl⟩

/-- A relation that every step of a single-call session respects. -/
structure SingleCallRel (env : Env) (R : World → World → Prop) : Prop where
  refl : ∀ w, R w w
  trans : ∀ {a b c}, R a b → R b c → R a c
  lookup : ∀ w name, R w (w.request env (.request (w.proto.importConnectionRequest name))).2
  note : ∀ w e, e.isDispatchNote = true → R w (w.push e)

section SingleCallRel

variable {env : Env} {R : World → World → Prop}

theorem singleCallHandle_rel (h : SingleCallRel env R) (op : CtxOp) (ctx : HookContext) :
    R ctx.world (singleCallHandle env op ctx).2.world := by
  refine h.trans ?_ (h.note _ _ rfl)
  cases op with
  | connection name =>
    show R ctx.world (singleCallLookup env name ctx).2.world
    have hreq := connRequester_rel (h.lookup ctx.world name)
    unfold singleCallLookup
    split <;> rename_i hr <;> rw [hr] at hreq <;> exact hreq
  | _ => exact h.refl _

theorem invokeCtxHook_rel (h : SingleCallRel env R) {hook : Hook} (hhook : hook ≠ .cleanup)
    (name : String) (body : List Event → String → UdfProg) (arg : String) (w : World) :
    R w (invokeCtxHook env hook name body arg w).2 := by
  obtain ⟨hstart, hend⟩ := isDispatchNote_of_ne_cleanup hhook
  unfold invokeCtxHook
  dsimp only
  split_ifs
  · exact h.refl _
  · have hexec := Prog.exec_rel (singleCallHandle env)
      (R := fun c c' : HookContext => R c.world c'.world) (fun _ => h.refl _) h.trans
      (fun op ctx => singleCallHandle_rel h op ctx) (body w.log arg)
      ⟨w.push (.hookStart hook arg), none⟩
    exact h.trans (h.note w _ (hstart arg)) (h.trans hexec (h.note _ _ (hend _)))

/-- **Rule for hooks**: whatever a hook does, the relation is respected. -/
theorem invokeHook_rel (h : SingleCallRel env R) (udf : LoadedUdf) (call : SingleCallRequest)
    (w : World) : R w (invokeHook env udf call w).2 := by
  have hinv := invokeHook_inv env udf call w
  generalize invokeHook env udf call w = r at hinv
  cases hinv with
  | refused res => exact h.refl w
  | noarg name body hhook =>
    obtain ⟨hstart, hend⟩ := isDispatchNote_of_ne_cleanup hhook
    exact h.trans (h.note w _ (hstart "")) (h.note _ _ (hend _))
  | ctx name body arg hhook => exact invokeCtxHook_rel h hhook name body arg w

end SingleCallRel

/-! ### The loop -/

theorem singleCallRel_weight (env : Env) :
    SingleCallRel env fun w w' => w'.weight ≤ w.weight where
  refl _ := Nat.le_refl _
  trans hab hbc := Nat.le_trans hbc hab
  lookup w _ := (World.request_weight env _ w).1
  note _ _ _ := Nat.le_refl _

theorem replyCall_weight (env : Env) (fnId : SingleCallFunctionId) (outcome : HookOutcome)
    (w : World) : (replyCall env fnId outcome w).2.weight ≤ w.weight := by
  unfold replyCall
  dsimp only
  split <;> rename_i hr
  · exact le_of_eq_of_le (congrArg (fun r => r.2.weight) hr).symm (World.request_weight env _ w).1
  · have hle := le_of_eq_of_le (congrArg (fun r => r.2.weight) hr).symm
      (World.request_weight env _ w).1
    split <;> exact hle

theorem finishCall_weight (env : Env) (w : World) :
    (finishCall env w).2.weight ≤ w.weight := by
  have hle := (World.request_weight env (.request w.proto.doneRequest) w).1
  unfold finishCall
  split <;> rename_i hr <;> rw [hr] at hle
  · exact hle
  · split <;> exact hle

theorem runSingleCallStep_decreases (env : Env) (udf : LoadedUdf) (w w' : World)
    (h : runSingleCallStep env udf w = .inr w') : w'.weight < w.weight := by
  have hopen := World.request_weight env (.request w.proto.runRequest) w
  unfold runSingleCallStep at h
  split at h <;> rename_i hr
  · cases h
  rename_i event w₁
  rw [hr] at hopen
  have hlt := hopen.2 event rfl
  -- A round goes on only after an `MT_CALL`, which was taken out of the inbox.
  split at h <;> try cases h
  rename_i fnId jsonArg importSpec exportSpec
  have hhook := invokeHook_rel (singleCallRel_weight env) udf
    ⟨fnId, jsonArg, importSpec, exportSpec⟩ w₁
  split at h <;> rename_i hi
  · cases h
  rename_i outcome w₂
  rw [hi] at hhook
  have hreply := replyCall_weight env fnId outcome w₂
  split at h <;> rename_i hp
  · cases h
  rename_i w₃
  rw [hp] at hreply
  have hfinish := finishCall_weight env w₃
  split at h <;> rename_i hd <;> cases h
  rw [hd] at hfinish
  dsimp only at hlt hhook hreply hfinish
  omega

def runSingleCallLoop (env : Env) (udf : LoadedUdf) :
    Loop World (Except RuntimeError Unit × World) where
  step := runSingleCallStep env udf
  variant := World.weight
  decreases := runSingleCallStep_decreases env udf

/-- Drive a single-call session. -/
def runSingleCall (env : Env) (udf : LoadedUdf) (w : World) : Except RuntimeError Unit × World :=
  (runSingleCallLoop env udf).run w

end ExaUdf
