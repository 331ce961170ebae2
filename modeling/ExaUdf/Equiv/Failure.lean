import ExaUdf.Equiv.Returns

/-!
# What explains a failing row

The bridge keeps the last error that the context recorded, and outlives the rows of a group.
`handle_recorded` says what a call does to it, and `runOnce_explained` that an invocation is
explained by what it recorded itself.  `runGroup_explained`: whatever came before a failing row, in
either of two groups, the errors of the groups are the same if the failing invocations are.
-/

namespace ExaUdf

open HostContextBridge

/-! ### Recorded errors -/

/-- The error that the context records in a call. -/
def recordedBy : (op : CtxOp) → CtxAns op → Option String
  | .connection _, .error e => some e.display
  | .outside recorded, _ => recorded
  | _, _ => none

def Event.recorded? : Event → Option String
  | .call _ op ans => recordedBy op ans
  | _ => none

/-- The errors that the context recorded, in order. -/
def recordedErrors (events : List Event) : List String :=
  events.filterMap Event.recorded?

theorem recordedErrors_append (as bs : List Event) :
    recordedErrors (as ++ bs) = recordedErrors as ++ recordedErrors bs :=
  List.filterMap_append

theorem recordedErrors_of_isNote {events : List Event} (h : ∀ e ∈ events, e.isNote = false) :
    recordedErrors events = [] := by
  refine List.filterMap_eq_nil_iff.mpr fun e he => ?_
  have hwire := h e he
  cases e <;> first | rfl | cases hwire

/-- The history has grown, and the bridge holds the last error recorded since, if there is one. -/
def Recorded (b b' : HostContextBridge) : Prop :=
  ∃ events, b'.world.log = b.world.log ++ events ∧
    b'.lastError = (recordedErrors events).getLast?.or b.lastError

theorem Recorded.refl (b : HostContextBridge) : Recorded b b :=
  ⟨[], (List.append_nil _).symm, rfl⟩

theorem Recorded.trans {a b c : HostContextBridge} (hab : Recorded a b) (hbc : Recorded b c) :
    Recorded a c := by
  obtain ⟨as, ha, hlast⟩ := hab
  obtain ⟨bs, hb, hlast'⟩ := hbc
  refine ⟨as ++ bs, by rw [hb, ha, List.append_assoc], ?_⟩
  rw [hlast', hlast, recordedErrors_append, List.getLast?_append, Option.or_assoc]

section

variable (env : Env) (m : UdfMeta)

theorem pushOutputRow_lastError (b : HostContextBridge) (row : List Value) :
    (b.pushOutputRow env m row).2.lastError = b.lastError := by
  unfold pushOutputRow
  split
  · rfl
  · dsimp only
    split_ifs <;> rfl

theorem refill_lastError (b : HostContextBridge) :
    (b.refill env m).2.lastError = b.lastError := by
  refine (refillLoop env m).run_rel lastError (fun r => r.2.lastError)
    (R := fun x y => y = x) (fun _ => rfl) (fun hab hbc => hbc.trans hab) (fun b => ?_) b
  show (((b.refillStep env m).elim (fun r => r.2.lastError) lastError)) = _
  unfold refillStep
  split
  · rfl
  · rfl
  · split
    · rfl
    · split_ifs <;> rfl

theorem next_lastError (b : HostContextBridge) : (b.next env m).2.lastError = b.lastError := by
  unfold next advanceRow
  split
  · rfl
  · dsimp only
    split_ifs
    · split
      · rfl
      · exact refill_lastError env m _
    · exact refill_lastError env m _
    · rfl

/-- A call records at most one error, over the last one. -/
theorem answer_lastError (op : CtxOp) (b : HostContextBridge) :
    (b.answer env m op).2.lastError
      = (recordedBy op (b.answer env m op).1).or b.lastError := by
  cases op with
  | get col => rfl
  | rowsInGroup => rfl
  | outside recorded => rfl
  | setReturn value => exact pushOutputRow_lastError env m b _
  | next => exact next_lastError env m b
  | emit values =>
    show (b.emit env m values).2.lastError = b.lastError
    unfold emit
    split_ifs
    · rfl
    · exact pushOutputRow_lastError env m b values
  | emitBatch imported =>
    show (b.emitRecordBatch env m imported).2.lastError = b.lastError
    unfold emitRecordBatch
    split_ifs
    · rfl
    · split <;> rfl
  | connection name =>
    show (b.connection env name).2.lastError
      = (recordedBy (.connection name) (b.connection env name).1).or b.lastError
    unfold connection
    split <;> rfl

theorem handle_recorded (op : CtxOp) (b : HostContextBridge) :
    Recorded b (b.handle env m op).2 := by
  obtain ⟨events, hlog, hwire⟩ := answer_rel m (feedRel_wire env) op b
  refine ⟨events ++ [.call b.input.currentRowNumber op (b.answer env m op).1], ?_, ?_⟩
  · show (b.answer env m op).2.world.log ++ _ = _
    rw [hlog, List.append_assoc]
  · show (b.answer env m op).2.lastError = _
    rw [answer_lastError, recordedErrors_append, recordedErrors_of_isNote hwire, List.nil_append]
    show _ = (List.filterMap Event.recorded? [_]).getLast?.or _
    rw [List.filterMap_cons, Event.recorded?]
    cases recordedBy op (b.answer env m op).1 <;> rfl

end

/-! ### Invocations -/

/-- What is seen of an invocation: the errors that the context recorded in it, in order, and how it
returned. -/
structure Behaviour where
  recorded : List String
  exit : HookExit
  deriving DecidableEq

/-- The behaviour of the invocation that starts with the bridge `b`. -/
def behaviour (env : Env) (m : UdfMeta) (udf : LoadedUdf) (b : HostContextBridge) : Behaviour :=
  let start := { b with lastError := none }.push .runStart
  let r := (udf.run b.world.log).exec (handle env m) start
  ⟨recordedErrors (r.2.world.log.drop start.world.log.length), r.1⟩

/-- How a failing invocation is reported: by its own text if that is a user error, else by its text
or the fallback text, with the last error that was recorded. -/
def explained (behaviour : Behaviour) : RuntimeError :=
  let exit := behaviour.exit
  if exit.rc = 1 ∧ exit.text ≠ "" then .udf exit.text
  else
    let text :=
      if exit.text = "" then "UDF run returned error code " ++ toString exit.rc.toInt else exit.text
    match behaviour.recorded.getLast? with
    | some detail => .udf (text ++ ": " ++ detail)
    | none => .unexplained text

/-- A failure is explained by the last recorded error. -/
theorem withRecordedDetail_hookError {exit : HookExit} (recorded : List String) :
    (hookError exit ("UDF run returned error code " ++ toString exit.rc.toInt)).withRecordedDetail
      recorded.getLast? = explained ⟨recorded, exit⟩ := by
  rw [hookError, explained]
  by_cases htext : exit.text = ""
  · rw [if_pos htext, if_neg fun h => h.2 htext]
    simp only [if_pos htext]
    cases recorded.getLast? <;> rfl
  by_cases hrc : exit.rc = 1
  · rw [if_neg htext, if_pos hrc, if_pos ⟨hrc, htext⟩]
    rfl
  · rw [if_neg htext, if_neg hrc, if_neg fun h => hrc h.1]
    simp only [if_neg htext]
    cases recorded.getLast? <;> rfl

/-- **Invocations.**  One fails by its code only, and is explained by what was recorded in it. -/
theorem runOnce_explained (env : Env) (m : UdfMeta) (udf : LoadedUdf) (b : HostContextBridge) :
    (runOnce env m udf b).1
      = if (behaviour env m udf b).exit.rc = 0 then .ok ()
        else .error (explained (behaviour env m udf b)) := by
  -- The bridge starts without an error of the rows before.
  have hexec := Prog.exec_rel (handle env m) Recorded.refl Recorded.trans (handle_recorded env m)
    (udf.run b.world.log) ({ b with lastError := none }.push .runStart)
  rcases hr : (udf.run b.world.log).exec (handle env m)
    ({ b with lastError := none }.push .runStart) with ⟨exit, b'⟩
  rw [hr] at hexec
  obtain ⟨events, hlog, hlast⟩ := hexec
  dsimp only at hlog hlast
  have hlast' : b'.lastError = (recordedErrors events).getLast? := hlast.trans Option.or_none
  have hbehaviour : behaviour env m udf b = ⟨recordedErrors events, exit⟩ := by
    unfold behaviour
    dsimp only
    rw [hr, hlog, List.drop_left]
  rw [hbehaviour, runOnce, hr]
  dsimp only
  rw [lifecycleResult, hlast']
  split_ifs with hrc
  · rfl
  · exact congrArg Except.error (withRecordedDetail_hookError _)

/-! ### Groups -/

/-- After `i` invocations that succeeded, each followed by another row of the group, the bridge is
`b`. -/
inductive Reached (env : Env) (m : UdfMeta) (udf : LoadedUdf) (w : World) :
    Nat → HostContextBridge → Prop where
  | first {input : InputRowSet} {fd : Feed} :
    (firstNonemptyInput env m).run ⟨w, none⟩ = (.ok (some input), fd) →
    Reached env m udf w 0 (.new fd input)
  | next {i : Nat} {b b₁ b₂ : HostContextBridge} : Reached env m udf w i b →
    runOnce env m udf b = (.ok (), b₁) → b₁.advanceRow env m = (.ok true, b₂) →
    Reached env m udf w (i + 1) b₂

/-- What a group comes to is what its rows from a reached one on come to. -/
theorem Reached.runGroup {env : Env} {m : UdfMeta} {udf : LoadedUdf} {w : World} {i : Nat}
    {b b' : HostContextBridge} {e : RuntimeError} (h : Reached env m udf w i b)
    (hscalar : m.inputIter = .exactlyOnce) (hfail : runOnce env m udf b = (.error e, b')) :
    (runGroup env m udf w).1 = .error e := by
  have hlast : (scalarLoop env m udf).run b = (some e, b') := by
    apply Loop.run_of_inl (L := scalarLoop env m udf)
    show scalarStep env m udf b = _
    rw [scalarStep, hfail]
  -- Whatever the row, the loop gets from the first one to it.
  suffices hgroup : ∀ r, (scalarLoop env m udf).run b = (some e, r) →
      (ExaUdf.runGroup env m udf w).1 = .error e from hgroup b' hlast
  clear hfail hlast
  induction h with
  | @first input fd hinput =>
    intro r hrun
    rw [ExaUdf.runGroup, hinput]
    dsimp only
    rw [driveGroupRows, hscalar]
    dsimp only
    rw [hrun]
  | @next i b b₁ b₂ _ hrun hadvance ih =>
    intro r hlast
    apply ih r
    have hstep : (scalarLoop env m udf).step b = .inr b₂ := by
      show scalarStep env m udf b = _
      rw [scalarStep, hrun]
      dsimp only
      rw [hadvance]
    rw [Loop.run_of_inr hstep, hlast]

/-- **A failing row is explained by its own invocation.**  Take two SCALAR groups, each with any
invocations before one that fails.  If the failing invocations record the same errors and return the
same code and text, the groups end in the same error, which is the text of a user error, or else the
text or the fallback text with the last error recorded in that invocation. -/
theorem runGroup_explained {env : Env} {m : UdfMeta} (hscalar : m.inputIter = .exactlyOnce)
    {udf₁ udf₂ : LoadedUdf} {w₁ w₂ : World} {i₁ i₂ : Nat} {b₁ b₂ : HostContextBridge}
    (h₁ : Reached env m udf₁ w₁ i₁ b₁) (h₂ : Reached env m udf₂ w₂ i₂ b₂)
    (hsame : behaviour env m udf₁ b₁ = behaviour env m udf₂ b₂)
    (hfail : (behaviour env m udf₁ b₁).exit.rc ≠ 0) :
    (runGroup env m udf₁ w₁).1 = (runGroup env m udf₂ w₂).1 ∧
      (runGroup env m udf₁ w₁).1 = .error (explained (behaviour env m udf₁ b₁)) := by
  have hrun : ∀ (udf : LoadedUdf) (b : HostContextBridge), (behaviour env m udf b).exit.rc ≠ 0 →
      runOnce env m udf b
        = (.error (explained (behaviour env m udf b)), (runOnce env m udf b).2) := by
    intro udf b hrc
    refine Prod.ext ?_ rfl
    rw [runOnce_explained, if_neg hrc]
  have hgroup₁ := h₁.runGroup hscalar (hrun udf₁ b₁ hfail)
  have hgroup₂ := h₂.runGroup hscalar (hrun udf₂ b₂ (hsame ▸ hfail))
  rw [hgroup₁, hgroup₂, hsame]
  exact ⟨rfl, rfl⟩

/-- A UDF whose first row records `first` and succeeds, and whose second row records a refusal and
fails without a text. -/
def LoadedUdf.refused (first : Option String) : LoadedUdf :=
  .emitting fun log =>
    if log.countP Event.isRunStart = 0 then .call (.outside first) fun _ => .done ⟨0, ""⟩
    else .call (.outside (some "refused")) fun _ => .done ⟨1, ""⟩

/-- The group after the first of two rows. -/
theorem reached_refused (first : Option String) :
    ∃ b, Reached (.reference (.refused none)) (integerMeta 1 2) (.refused first)
        (.running [batchResponse [1, 2]]) 1 b ∧
      behaviour (.reference (.refused none)) (integerMeta 1 2) (.refused first) b
        = ⟨["refused"], ⟨1, ""⟩⟩ :=
  ⟨_, .next (.first rfl) rfl rfl, rfl⟩

/-- An error that the first row recorded and swallowed does not show. -/
theorem runGroup_explained_sample :
    let env := Env.reference (.refused none)
    let w := World.running [batchResponse [1, 2]]
    (runGroup env (integerMeta 1 2) (.refused (some "swallowed")) w).1
        = (runGroup env (integerMeta 1 2) (.refused none) w).1 ∧
      (runGroup env (integerMeta 1 2) (.refused (some "swallowed")) w).1
        = .error (explained ⟨["refused"], ⟨1, ""⟩⟩) := by
  intro env w
  obtain ⟨b₁, h₁, hb₁⟩ := reached_refused (some "swallowed")
  obtain ⟨b₂, h₂, hb₂⟩ := reached_refused none
  rw [← hb₁]
  exact runGroup_explained rfl h₁ h₂ (hb₁.trans hb₂.symm) (by rw [hb₁]; decide)

end ExaUdf
