import ExaUdf.Bridge

/-!
# Dispatch

`runUdf` drives the run phase of a streaming session: every group is opened by `MT_RUN`, its rows
are fetched by `MT_NEXT` and given to the UDF, and `MT_DONE` closes it.  A SCALAR group invokes the
UDF once for each row; a SET group invokes it once, and the UDF calls `next` itself.

Each loop over the responses comes with its rule: `runGroup_rel` and `runUdf_rel` lift what every
exchange respects to a group and to the whole phase.
-/

namespace ExaUdf

open HostContextBridge

/-! ### Groups -/

def firstNonemptyInputStep (env : Env) (m : UdfMeta) (fd : Feed) :
    (Except RuntimeError (Option InputRowSet) × Feed) ⊕ Feed :=
  match fd.fetch env with
  | (.error e, fd) => .inl (.error (.udf e.display), fd)
  | (.ok none, fd) => .inl (.ok none, fd)
  | (.ok (some table), fd) =>
    match InputRowSet.fromProto env.toExtern table m.inputColumns with
    | .error e => .inl (.error (.udf e.display), fd)
    -- A group may begin with empty batches.
    | .ok rows => if rows.isEmpty then .inr fd else .inl (.ok (some rows), fd)

theorem firstNonemptyInputStep_decreases (env : Env) (m : UdfMeta) (fd fd' : Feed)
    (h : firstNonemptyInputStep env m fd = .inr fd') : fd'.world.weight < fd.world.weight := by
  have hweight := Feed.fetch_weight env fd
  unfold firstNonemptyInputStep at h
  split at h <;> rename_i hf <;> rw [hf] at hweight
  · cases h
  · cases h
  · rename_i table fd₁
    have hlt : fd₁.world.weight + 1 + table.rows ≤ fd.world.weight := hweight.2 table rfl
    split at h
    · cases h
    · split_ifs at h
      cases h
      omega

/-- The first batch of a group that has rows; `none` when the group has none. -/
def firstNonemptyInput (env : Env) (m : UdfMeta) :
    Loop Feed (Except RuntimeError (Option InputRowSet) × Feed) where
  step := firstNonemptyInputStep env m
  variant := fun fd => fd.world.weight
  decreases := firstNonemptyInputStep_decreases env m

/-- One invocation.  An error recorded in an earlier one does not explain its failure. -/
def runOnce (env : Env) (m : UdfMeta) (udf : LoadedUdf) (b : HostContextBridge) :
    Except RuntimeError Unit × HostContextBridge :=
  -- The error text of an earlier invocation is dropped first.
  let r := (udf.run b.world.log).exec (handle env m) ({ b with lastError := none }.push .runStart)
  let res := (lifecycleResult "run" r.1).mapError (·.withRecordedDetail r.2.lastError)
  (res, r.2.push (.runEnd res))

theorem runOnce_measure (env : Env) (m : UdfMeta) (udf : LoadedUdf) (b : HostContextBridge) :
    (runOnce env m udf b).2.measure ≤ b.measure := by
  have hexec := Prog.exec_rel (handle env m)
    (R := fun b b' : HostContextBridge => b'.measure ≤ b.measure)
    (fun _ => Nat.le_refl _) (fun hab hbc => Nat.le_trans hbc hab)
    (fun op b => handle_measure m env op b) (udf.run b.world.log)
    ({ b with lastError := none }.push .runStart)
  exact hexec

/-- One row of a SCALAR group. -/
def scalarStep (env : Env) (m : UdfMeta) (udf : LoadedUdf) (b : HostContextBridge) :
    (Option RuntimeError × HostContextBridge) ⊕ HostContextBridge :=
  match runOnce env m udf b with
  | (.error e, b) => .inl (some e, b)
  | (.ok (), b) =>
    -- The rows are advanced by the dispatcher, since a SCALAR function cannot call `next`.
    match b.advanceRow env m with
    | (.ok true, b) => .inr b
    | (.ok false, b) => .inl (none, b)
    | (.error e, b) => .inl (some (.udf e.display), b)

theorem scalarStep_decreases (env : Env) (m : UdfMeta) (udf : LoadedUdf)
    (b b' : HostContextBridge) (h : scalarStep env m udf b = .inr b') :
    b'.measure < b.measure := by
  have hrun := runOnce_measure env m udf b
  unfold scalarStep at h
  split at h <;> rename_i hr <;> rw [hr] at hrun
  · cases h
  · rename_i b₁
    have hadv := advanceRow_measure m env b₁
    -- Only a row that was advanced to starts another round.
    split at h <;> rename_i ha <;> cases h
    rw [ha] at hadv
    exact Nat.lt_of_lt_of_le (hadv.2 rfl) hrun

def scalarLoop (env : Env) (m : UdfMeta) (udf : LoadedUdf) :
    Loop HostContextBridge (Option RuntimeError × HostContextBridge) where
  step := scalarStep env m udf
  variant := measure
  decreases := scalarStep_decreases env m udf

/-- Drive the UDF over one group: the error that ended it early, if any. -/
def driveGroupRows (env : Env) (m : UdfMeta) (udf : LoadedUdf) (b : HostContextBridge) :
    Option RuntimeError × HostContextBridge :=
  match m.inputIter with
  | .exactlyOnce => (scalarLoop env m udf).run b
  | .multiple =>
    match runOnce env m udf b with
    | (.error e, b) => (some e, b)
    | (.ok (), b) => (none, b)

/-- Send what the group has left in its buffer. -/
def tailFlush (env : Env) (buf : EmitBuffer) (w : World) : Except RuntimeError Unit × World :=
  if buf.isEmpty then (.ok (), w)
  else
    let send (table : EmitTable) (w : World) : Except RuntimeError Unit × World :=
      match w.request env (.emit (w.proto.emitRequest table)) with
      | (.error e, w) => (.error e, w)
      -- As in `emitFlusher`, the event of the answer is not looked at.
      | (.ok _, w) => (.ok (), w)
    let r := buf.flush send w
    (r.1, r.2.2)

/-- How `runGroup` ends once the UDF is done with the rows. -/
def endGroup (env : Env) (fd : Feed) (buf : EmitBuffer) :
    Except RuntimeError (Option (Except RuntimeError Unit)) × World :=
  match fd.exit with
  -- The database has ended the session, so what is buffered is not sent.
  | some .session => (.ok (some (.ok ())), fd.world)
  | some (.closed message) => (.ok (some (closeError message)), fd.world)
  | none =>
    match tailFlush env buf fd.world with
    | (.error e, w) => (.error e, w)
    | (.ok (), w) => (.ok none, w)

/-- Process one group.  `some` is the result of a session that ended within it. -/
def runGroup (env : Env) (m : UdfMeta) (udf : LoadedUdf) (w : World) :
    Except RuntimeError (Option (Except RuntimeError Unit)) × World :=
  match (firstNonemptyInput env m).run ⟨w, none⟩ with
  | (.error e, fd) => (.error e, fd.world)
  | (.ok none, fd) => endGroup env fd EmitBuffer.new
  | (.ok (some input), fd) =>
    match driveGroupRows env m udf (HostContextBridge.new fd input) with
    | (some e, b) => (.error e, b.world)
    | (none, b) => endGroup env b.toFeed b.emitBuf

/-! ### What every step of a group respects -/

/-- A relation that every step of a group respects. -/
structure GroupRel (env : Env) (R : Feed → Feed → Prop) : Prop extends Feed.Rel env R where
  note : ∀ fd e, e.isDispatchNote = true → R fd (fd.push e)

section GroupRel

variable {env : Env} {R : Feed → Feed → Prop} (m : UdfMeta) (udf : LoadedUdf)

theorem handle_rel (h : GroupRel env R) (op : CtxOp) (b : HostContextBridge) :
    R b.toFeed (b.handle env m op).2.toFeed :=
  h.trans (answer_rel m h.toRel op b) (h.note _ _ rfl)

theorem runOnce_rel (h : GroupRel env R) (b : HostContextBridge) :
    R b.toFeed (runOnce env m udf b).2.toFeed := by
  have hexec := Prog.exec_rel (handle env m)
    (R := fun b b' : HostContextBridge => R b.toFeed b'.toFeed)
    (fun b => h.refl _) h.trans (fun op b => handle_rel m h op b) (udf.run b.world.log)
    ({ b with lastError := none }.push .runStart)
  exact h.trans (h.note b.toFeed .runStart rfl) (h.trans hexec (h.note _ _ rfl))

theorem scalarStep_rel (h : GroupRel env R) (b : HostContextBridge) :
    R b.toFeed ((scalarStep env m udf b).elim (fun r => r.2.toFeed) toFeed) := by
  have hrun := runOnce_rel m udf h b
  unfold scalarStep
  split <;> rename_i hr <;> rw [hr] at hrun
  · exact hrun
  · rename_i b₁
    have hadv := advanceRow_rel m h.toRel.toFetchRel b₁
    split <;> rename_i ha <;> rw [ha] at hadv <;> exact h.trans hrun hadv

theorem driveGroupRows_rel (h : GroupRel env R) (b : HostContextBridge) :
    R b.toFeed (driveGroupRows env m udf b).2.toFeed := by
  unfold driveGroupRows
  split
  · exact (scalarLoop env m udf).run_rel toFeed (fun r => r.2.toFeed) h.refl h.trans
      (scalarStep_rel m udf h) b
  · have hrun := runOnce_rel m udf h b
    split <;> rename_i hr <;> rw [hr] at hrun <;> exact hrun

theorem firstNonemptyInput_rel (h : Feed.FetchRel env R) (fd : Feed) :
    R fd ((firstNonemptyInput env m).run fd).2 := by
  refine (firstNonemptyInput env m).run_rel id Prod.snd h.refl h.trans (fun fd => ?_) fd
  show R fd ((firstNonemptyInputStep env m fd).elim Prod.snd id)
  have hfetch := h.fetch fd
  unfold firstNonemptyInputStep
  split <;> rename_i hf <;> rw [hf] at hfetch
  · exact hfetch
  · exact hfetch
  · split
    · exact hfetch
    · split_ifs <;> exact hfetch

theorem tailFlush_rel (h : Feed.WriteRel env R) (buf : EmitBuffer) (fd : Feed) :
    R fd { fd with world := (tailFlush env buf fd.world).2 } := by
  unfold tailFlush EmitBuffer.flush
  split_ifs with hempty
  · exact h.refl _
  · have hrows : 0 < buf.table.rows := by
      unfold EmitBuffer.isEmpty at hempty
      simpa [Nat.pos_iff_ne_zero] using hempty
    have hemit := h.emit fd buf.table hrows
    unfold Feed.exchange at hemit
    dsimp only
    split <;> rename_i hr <;> rw [hr] at hemit <;> exact hemit

theorem endGroup_rel (h : Feed.WriteRel env R) (fd : Feed) (buf : EmitBuffer) :
    R fd { fd with world := (endGroup env fd buf).2 } := by
  unfold endGroup
  split
  · exact h.refl _
  · exact h.refl _
  · have hflush := tailFlush_rel h buf fd
    split <;> rename_i hr <;> rw [hr] at hflush <;> exact hflush

end GroupRel

/-- **Rule for a group**: a relation between worlds that every step of a group respects relates the
worlds before and after it. -/
theorem runGroup_rel {env : Env} {R : World → World → Prop}
    (h : GroupRel env fun fd fd' => R fd.world fd'.world) (m : UdfMeta) (udf : LoadedUdf)
    (w : World) : R w (runGroup env m udf w).2 := by
  have hfirst := firstNonemptyInput_rel m h.toRel.toFetchRel ⟨w, none⟩
  unfold runGroup
  split <;> rename_i hf <;> rw [hf] at hfirst
  · exact hfirst
  · rename_i fd
    exact h.trans (b := fd) hfirst (endGroup_rel h.toRel.toWriteRel fd EmitBuffer.new)
  · rename_i input fd
    have hdrive := driveGroupRows_rel m udf h (HostContextBridge.new fd input)
    split <;> rename_i hd <;> rw [hd] at hdrive
    · exact h.trans hfirst hdrive
    · rename_i b
      exact h.trans hfirst (h.trans hdrive (endGroup_rel h.toRel.toWriteRel b.toFeed b.emitBuf))

/-! ### The run phase -/

theorem groupRel_weight (env : Env) :
    GroupRel env fun fd fd' => fd'.world.weight ≤ fd.world.weight where
  toRel := feedRel_weight env
  note _ _ _ := Nat.le_refl _

/-- One group with the exchanges that open and close it. -/
def runUdfStep (env : Env) (m : UdfMeta) (udf : LoadedUdf) (w : World) :
    (Except RuntimeError Unit × World) ⊕ World :=
  match w.request env (.request w.proto.runRequest) with
  | (.error e, w) => .inl (.error e, w)
  | (.ok .cleanup, w) => .inl (.ok (), w)
  | (.ok (.close message), w) => .inl (closeError message, w)
  -- Any other answer to `MT_RUN` opens a group.
  | (.ok _, w) =>
    match runGroup env m udf w with
    | (.error e, w) => .inl (.error e, w)
    | (.ok (some early), w) => .inl (early, w)
    | (.ok none, w) =>
      match w.request env (.request w.proto.doneRequest) with
      | (.error e, w) => .inl (.error e, w)
      | (.ok .cleanup, w) => .inl (.ok (), w)
      | (.ok (.close message), w) => .inl (closeError message, w)
      | (.ok _, w) => .inr w

theorem runUdfStep_decreases (env : Env) (m : UdfMeta) (udf : LoadedUdf) (w w' : World)
    (h : runUdfStep env m udf w = .inr w') : w'.weight < w.weight := by
  have hopen := World.request_weight env (.request w.proto.runRequest) w
  unfold runUdfStep at h
  split at h <;> rename_i hr <;> try cases h
  rename_i event w₁ _ _
  rw [hr] at hopen
  have hgroup := runGroup_rel (R := fun w w' => w'.weight ≤ w.weight) (groupRel_weight env) m udf w₁
  have hlt := hopen.2 event rfl
  split at h <;> rename_i hg <;> try cases h
  rename_i w₂
  rw [hg] at hgroup
  have hclose := (World.request_weight env (.request w₂.proto.doneRequest) w₂).1
  split at h <;> rename_i hd <;> cases h
  rw [hd] at hclose
  dsimp only at hlt hgroup hclose
  omega

def runUdfLoop (env : Env) (m : UdfMeta) (udf : LoadedUdf) :
    Loop World (Except RuntimeError Unit × World) where
  step := runUdfStep env m udf
  variant := World.weight
  decreases := runUdfStep_decreases env m udf

/-- Drive the run phase of a streaming session. -/
def runUdf (env : Env) (m : UdfMeta) (udf : LoadedUdf) (w : World) :
    Except RuntimeError Unit × World :=
  (runUdfLoop env m udf).run w

end ExaUdf
