import ExaUdf.Equiv.Bridge

/-!
# Rules for groups

What holds at each point of a group, from what every step keeps: `refill_rule` and
`firstNonemptyInput_rule` for the loops that fetch, `runOnce_rule` for an invocation, and
`driveGroupRows_rule` for the rows of a group, SCALAR or SET.
-/

namespace ExaUdf

/-- The UDF is invoked. -/
def Event.isRunStart : Event → Bool
  | .runStart => true
  | _ => false

variable (env : Env) (m : UdfMeta) (udf : LoadedUdf)

/-- **Rule for refilling.** -/
theorem HostContextBridge.refill_rule {P : HostContextBridge → Prop}
    {Q : Except UdfError Bool → HostContextBridge → Prop}
    (hfailed : ∀ b e feed, P b → b.toFeed.fetch env = (.error e, feed) →
      Q (.error e) { b with toFeed := feed })
    (hended : ∀ b feed, P b → b.toFeed.fetch env = (.ok none, feed) →
      Q (.ok false) { b with toFeed := feed })
    (hundecodable : ∀ b table feed e, P b → b.toFeed.fetch env = (.ok (some table), feed) →
      InputRowSet.decode env.toExtern table m.inputColumns = .error e →
      Q (.error e) { b with toFeed := feed, input := { b.input with cells := [] } })
    (hempty : ∀ b table feed input, P b → b.toFeed.fetch env = (.ok (some table), feed) →
      InputRowSet.decode env.toExtern table m.inputColumns = .ok input → input.nRows = 0 →
      P { b with toFeed := feed, input := input })
    (hloaded : ∀ b table feed input, P b → b.toFeed.fetch env = (.ok (some table), feed) →
      InputRowSet.decode env.toExtern table m.inputColumns = .ok input → input.nRows ≠ 0 →
      Q (.ok true) { b with toFeed := feed, input := input })
    {b : HostContextBridge} (h : P b) : Q (b.refill env m).1 (b.refill env m).2 := by
  refine (refillLoop env m).run_elim (P := P) (Q := fun r => Q r.1 r.2) (fun b hb => ?_) h
  have hinv := refillStep_inv env m b
  show (b.refillStep env m).elim _ _
  generalize b.refillStep env m = round at hinv
  cases hinv with
  | failed hf => exact hfailed b _ _ hb hf
  | ended hf => exact hended b _ hb hf
  | undecodable hf hd => exact hundecodable b _ _ _ hb hf hd
  | empty hf hd hrows => exact hempty b _ _ _ hb hf hd hrows
  | loaded hf hd hrows => exact hloaded b _ _ _ hb hf hd hrows

/-- **Rule for the first batch.** -/
theorem firstNonemptyInput_rule {P : Feed → Prop}
    {Q : Except RuntimeError (Option InputRowSet) → Feed → Prop}
    (hfailed : ∀ fd e fd', P fd → fd.fetch env = (.error e, fd') → Q (.error (.udf e.display)) fd')
    (hended : ∀ fd fd', P fd → fd.fetch env = (.ok none, fd') → Q (.ok none) fd')
    (hundecodable : ∀ fd table fd' e, P fd → fd.fetch env = (.ok (some table), fd') →
      InputRowSet.decode env.toExtern table m.inputColumns = .error e →
      Q (.error (.udf e.display)) fd')
    (hempty : ∀ fd table fd' input, P fd → fd.fetch env = (.ok (some table), fd') →
      InputRowSet.decode env.toExtern table m.inputColumns = .ok input → input.nRows = 0 → P fd')
    (hloaded : ∀ fd table fd' input, P fd → fd.fetch env = (.ok (some table), fd') →
      InputRowSet.decode env.toExtern table m.inputColumns = .ok input → input.nRows ≠ 0 →
      Q (.ok (some input)) fd')
    {fd : Feed} (h : P fd) :
    Q ((firstNonemptyInput env m).run fd).1 ((firstNonemptyInput env m).run fd).2 := by
  refine (firstNonemptyInput env m).run_elim (P := P) (Q := fun r => Q r.1 r.2)
    (fun fd hfd => ?_) h
  show (firstNonemptyInputStep env m fd).elim _ _
  unfold firstNonemptyInputStep InputRowSet.fromProto
  rcases hf : fd.fetch env with ⟨e | (- | table), fd'⟩
  · exact hfailed fd e fd' hfd hf
  · exact hended fd fd' hfd hf
  · dsimp only
    rcases hd : InputRowSet.decode env.toExtern table m.inputColumns with e | input
    · exact hundecodable fd table fd' e hfd hf hd
    · dsimp only
      split_ifs with hrows
      · exact hempty fd table fd' input hfd hf hd (by simpa [InputRowSet.isEmpty] using hrows)
      · exact hloaded fd table fd' input hfd hf hd (by simpa [InputRowSet.isEmpty] using hrows)

/-- **Rule for calls**: whatever a UDF calls keeps what the exchanges keep, and fetches only where
there is a `next`. -/
theorem handle_rule {P : Feed → Prop}
    (hwrite : Feed.WriteRel env fun fd fd' => P fd → P fd')
    (hnext : m.inputIter = .multiple → ∀ fd, P fd → P ((fd.fetchStep env).elim Prod.snd id))
    (hcall : ∀ fd rowNumber op ans, P fd → P (fd.push (.call rowNumber op ans))) (op : CtxOp)
    (b : HostContextBridge) (h : P b.toFeed) : P (b.handle env m op).2.toFeed := by
  refine hcall _ _ op _ ?_
  by_cases hm : m.inputIter = .multiple
  · have hrel : Feed.Rel env fun fd fd' => P fd → P fd' := ⟨hwrite, hnext hm⟩
    exact HostContextBridge.answer_rel m hrel op b h
  · refine HostContextBridge.answer_write m hwrite op b (fun _ h => ?_) h
    unfold HostContextBridge.next
    split
    · exact h
    · rename_i hmultiple
      exact absurd hmultiple hm

/-- **Rule for an invocation**: `I` is kept by every call. -/
theorem runOnce_rule {I : HostContextBridge → Prop}
    {Q : Except RuntimeError Unit → HostContextBridge → Prop}
    (hcall : ∀ op b, I b → I (b.handle env m op).2)
    (hend : ∀ b res, I b → Q res (b.push (.runEnd res))) {b : HostContextBridge}
    (h : I ({ b with lastError := none }.push .runStart)) :
    Q (runOnce env m udf b).1 (runOnce env m udf b).2 :=
  hend _ _ (Prog.exec_invariant _ hcall (udf.run b.world.log) h)

/-- **Rule for the rows of a group**: `P` holds before each invocation, `I` after one that
succeeds, `Q` when the rows are used up, and `F` after a failure. -/
theorem driveGroupRows_rule {P I Q : HostContextBridge → Prop}
    {F : RuntimeError → HostContextBridge → Prop}
    (hok : ∀ b b', P b → runOnce env m udf b = (.ok (), b') → I b')
    (herror : ∀ b e b', P b → runOnce env m udf b = (.error e, b') → F e b')
    (hrow : m.inputIter = .exactlyOnce → ∀ b b', I b → b.advanceRow env m = (.ok true, b') →
      P b')
    (hlast : m.inputIter = .exactlyOnce → ∀ b b', I b → b.advanceRow env m = (.ok false, b') →
      Q b')
    (hlost : m.inputIter = .exactlyOnce → ∀ b e b', I b → b.advanceRow env m = (.error e, b') →
      F (.udf e.display) b')
    (hset : m.inputIter = .multiple → ∀ b, I b → Q b) {b : HostContextBridge}
    (h : P b) :
    ((driveGroupRows env m udf b).1 = none → Q (driveGroupRows env m udf b).2) ∧
      ∀ e, (driveGroupRows env m udf b).1 = some e → F e (driveGroupRows env m udf b).2 := by
  unfold driveGroupRows
  split
  · rename_i hm
    -- A SCALAR group: invocations and advances take turns.
    refine (scalarLoop env m udf).run_elim (P := P)
      (Q := fun r => (r.1 = none → Q r.2) ∧ ∀ e, r.1 = some e → F e r.2)
      (fun b hb => ?_) h
    show (scalarStep env m udf b).elim _ _
    unfold scalarStep
    split <;> rename_i hr
    · refine ⟨(fun h => nomatch h), ?_⟩
      rintro e ⟨⟩
      exact herror b _ _ hb hr
    have hidle := hok b _ hb hr
    split <;> rename_i ha
    · exact hrow hm _ _ hidle ha
    · exact ⟨fun _ => hlast hm _ _ hidle ha, fun _ h => nomatch h⟩
    · refine ⟨(fun h => nomatch h), ?_⟩
      rintro e ⟨⟩
      exact hlost hm _ _ _ hidle ha
  · rename_i hm
    split <;> rename_i hr
    · refine ⟨(fun h => nomatch h), ?_⟩
      rintro e ⟨⟩
      exact herror b _ _ h hr
    · exact ⟨fun _ => hset hm _ (hok b _ h hr), fun _ h => nomatch h⟩

/-- What every invocation and every advance keep, the rows of a group keep. -/
theorem driveGroupRows_keeps {P : HostContextBridge → Prop}
    (hrun : ∀ b, P b → P (runOnce env m udf b).2)
    (hadvance : ∀ b, P b → P (b.advanceRow env m).2) {b : HostContextBridge} (h : P b) :
    P (driveGroupRows env m udf b).2 := by
  have hran : ∀ b res b', P b → runOnce env m udf b = (res, b') → P b' := by
    intro b res b' hb hr
    have hafter := hrun b hb
    rwa [hr] at hafter
  have hadvanced : ∀ b res b', P b → b.advanceRow env m = (res, b') → P b' := by
    intro b res b' hb ha
    have hafter := hadvance b hb
    rwa [ha] at hafter
  have hdrive : ((driveGroupRows env m udf b).1 = none → P (driveGroupRows env m udf b).2) ∧
      ∀ e, (driveGroupRows env m udf b).1 = some e → P (driveGroupRows env m udf b).2 :=
    driveGroupRows_rule env m udf (P := P) (I := P) (Q := P) (F := fun _ => P)
      (fun b => hran b _) (fun b _ => hran b _) (fun _ b => hadvanced b _)
      (fun _ b => hadvanced b _) (fun _ b _ => hadvanced b _) (fun _ b h => h) h
  cases hres : (driveGroupRows env m udf b).1 with
  | none => exact hdrive.1 hres
  | some e => exact hdrive.2 e hres

end ExaUdf
