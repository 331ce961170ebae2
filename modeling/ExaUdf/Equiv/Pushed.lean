import ExaUdf.Equiv.Delivery

/-!
# Output is what calls push

The context methods of output are pushes to the emit buffer (`answer_push`).  `pushedRows` are the
rows that a call has to pack, whatever becomes of them, and `PushedBy` relates the rows that were
pushed to the history.

`runGroup_pushed`: what a group sends is what its calls have pushed, in order, as far as it has been
sent.  A group that ends well has sent all of it, unless a flush has failed in between.
-/

namespace ExaUdf

open Charged

/-! ### Pushes -/

/-- What an output method pushes, and its answer. -/
def CtxOp.push? (m : UdfMeta) (rowNumber : UInt64) :
    (op : CtxOp) → CtxAns op → Option (Push × Except UdfError Unit)
  | .emit values, ans =>
    if m.outputIter = .exactlyOnce then none else some (.row rowNumber values, ans)
  | .setReturn value, ans => some (.row rowNumber [value.getD .null], ans)
  | .emitBatch (.ok batch), ans =>
    if m.outputIter = .exactlyOnce then none else some (.batch rowNumber batch, ans)
  | _, _ => none

def Event.push? (m : UdfMeta) : Event → Option (Push × Except UdfError Unit)
  | .call rowNumber op ans => op.push? m rowNumber ans
  | _ => none

/-- The rows that a call has to pack. -/
def Event.pushedRows (env : Env) (m : UdfMeta) (e : Event) : List WireRow :=
  (e.push? m).elim [] fun p => p.1.rows env.toExtern m.outputColumns

/-- No row is lost: a push that fails had no rows to pack. -/
def Event.Complete (env : Env) (m : UdfMeta) (e : Event) : Prop :=
  ∀ p err, e.push? m = some (p, .error err) → p.rows env.toExtern m.outputColumns = []

variable {env : Env} {m : UdfMeta}

theorem Event.pushedRows_of_isNote {e : Event} (h : e.isNote = false) :
    e.pushedRows env m = [] := by
  cases e <;> first | rfl | cases h

namespace HostContextBridge

theorem pushOutputRow_run (b : HostContextBridge) (row : List Value) :
    let r := (Push.row b.input.currentRowNumber row).run env.toExtern m.outputColumns
      (emitFlusher env) b.emitBuf b.world
    b.pushOutputRow env m row = (r.1, { b with emitBuf := r.2.1, world := r.2.2 }) :=
  pushOutputRow_eq m b row

/-- **Output methods push to the emit buffer**, and the others leave it alone. -/
theorem answer_push (op : CtxOp) (b : HostContextBridge) :
    match op.push? m b.input.currentRowNumber (b.answer env m op).1 with
    | some (p, res) =>
      let r := p.run env.toExtern m.outputColumns (emitFlusher env) b.emitBuf b.world
      res = r.1 ∧ (b.answer env m op).2 = { b with emitBuf := r.2.1, world := r.2.2 }
    | none => (b.answer env m op).2.emitBuf = b.emitBuf ∧
      NoOutput b.world (b.answer env m op).2.world := by
  cases op with
  | emit values =>
    unfold CtxOp.push? answer emit
    dsimp only
    split_ifs
    · exact ⟨rfl, NoOutput.refl _⟩
    · rw [pushOutputRow_run]
      exact ⟨rfl, rfl⟩
  | setReturn value =>
    unfold CtxOp.push? answer setReturn
    dsimp only
    rw [pushOutputRow_run]
    exact ⟨rfl, rfl⟩
  | emitBatch imported =>
    cases imported with
    | error e =>
      unfold CtxOp.push? answer emitRecordBatch
      dsimp only
      split_ifs <;> exact ⟨rfl, NoOutput.refl _⟩
    | ok batch =>
      unfold CtxOp.push? answer emitRecordBatch
      dsimp only
      split_ifs
      · exact ⟨rfl, NoOutput.refl _⟩
      · exact ⟨rfl, rfl⟩
  | next => exact ⟨next_emitBuf m b, next_rel m (fetchRel_noOutput env) b⟩
  | connection name => exact connection_noOutput env b name
  | get col => exact ⟨rfl, NoOutput.refl _⟩
  | rowsInGroup => exact ⟨rfl, NoOutput.refl _⟩
  | outside recorded => exact ⟨rfl, NoOutput.refl _⟩

end HostContextBridge

/-! ### Pushed rows and the history -/

/-- The rows that were pushed, call by call: all rows of a call, or the first ones of a call that
failed. -/
inductive PushedBy (env : Env) (m : UdfMeta) : List WireRow → List Event → Prop where
  | nil : PushedBy env m [] []
  | step {rows new : List WireRow} {G : List Event} {e : Event} : PushedBy env m rows G →
    new <+: e.pushedRows env m → (e.Complete env m → new = e.pushedRows env m) →
    PushedBy env m (rows ++ new) (G ++ [e])

namespace PushedBy

variable {rows : List WireRow} {G : List Event}

theorem append_silent (h : PushedBy env m rows G) {events : List Event}
    (hevents : ∀ e ∈ events, e.push? m = none) : PushedBy env m rows (G ++ events) := by
  induction events generalizing G with
  | nil => rwa [List.append_nil]
  | cons e events ih =>
    have hnone : e.pushedRows env m = [] := by
      rw [Event.pushedRows, hevents e List.mem_cons_self]
      rfl
    have hstep : PushedBy env m (rows ++ []) (G ++ [e]) :=
      h.step List.nil_prefix fun _ => hnone.symm
    rw [List.append_nil] at hstep
    have hrest := ih hstep fun e' he' => hevents e' (List.mem_cons_of_mem e he')
    rwa [List.append_assoc] at hrest

theorem split {G' : List Event} (h : PushedBy env m rows (G ++ G')) :
    ∃ before after, rows = before ++ after ∧ PushedBy env m before G ∧ PushedBy env m after G' := by
  induction G' using List.reverseRecOn generalizing rows with
  | nil => exact ⟨rows, [], (List.append_nil _).symm, List.append_nil G ▸ h, .nil⟩
  | append_singleton G' e ih =>
    rw [← List.append_assoc] at h
    generalize hlog : G ++ G' ++ [e] = log at h
    cases h with
    | nil => exact absurd hlog (List.append_ne_nil_of_right_ne_nil _ (List.cons_ne_nil _ _))
    | @step rows new log' e' h hle hall =>
      obtain ⟨rfl, he⟩ := List.append_inj' hlog rfl
      obtain rfl := List.singleton_inj.mp he
      obtain ⟨before, after, rfl, hbefore, hafter⟩ := ih h
      exact ⟨before, after ++ new, List.append_assoc _ _ _, hbefore, hafter.step hle hall⟩

/-- Every pushed row is a row of a call, in order. -/
theorem sublist (h : PushedBy env m rows G) :
    rows.Sublist (G.flatMap (Event.pushedRows env m)) := by
  induction h with
  | nil => exact List.Sublist.refl []
  | step _ hle _ ih =>
    rw [List.flatMap_append, List.flatMap_singleton]
    exact ih.append hle.sublist

/-- If no row is lost, the pushed rows are the rows of the calls. -/
theorem eq_of_complete (h : PushedBy env m rows G) (hG : ∀ e ∈ G, e.Complete env m) :
    rows = G.flatMap (Event.pushedRows env m) := by
  induction h with
  | nil => rfl
  | @step rows new G e _ _ hall ih =>
    rw [List.flatMap_append, List.flatMap_singleton,
      ih fun e' he' => hG e' (List.mem_append_left _ he'),
      hall (hG e (List.mem_append_right _ (List.mem_singleton.mpr rfl)))]

end PushedBy

/-! ### What has been sent -/

theorem sentRows_of_emitted {cols : List ColumnInfo} {events : List Event}
    (h : ∀ e ∈ events, e.emitted? = none) : sentRows cols events = some [] := by
  rw [sentRows, List.filterMap_eq_nil_iff.mpr h]
  rfl

/-- Since `L` the first of the rows `done` have been sent: all of them while the socket works, and
all of them if no row was lost. -/
def Sent (env : Env) (m : UdfMeta) (L : List Event) (done : List WireRow) (w : World) : Prop :=
  ∃ G sent, w.log = L ++ G ∧ sentRows m.outputColumns G = some sent ∧ sent <+: done ∧
    (w.dead = false → sent = done) ∧ ((∀ e ∈ G, e.Complete env m) → sent = done)

/-- The same when a flush has just failed, and the call that made it is not noted yet. -/
def SentBroken (m : UdfMeta) (L : List Event) (done : List WireRow) (w : World) : Prop :=
  ∃ G sent, w.log = L ++ G ∧ sentRows m.outputColumns G = some sent ∧ sent <+: done ∧
    (w.dead = false → sent = done)

variable {L : List Event} {done : List WireRow} {w w' : World}

/-- Events that send no rows change nothing. -/
theorem Sent.grow (h : Sent env m L done w) {events : List Event}
    (hlog : w'.log = w.log ++ events) (hevents : ∀ e ∈ events, e.emitted? = none)
    (hdead : w.dead = true → w'.dead = true) : Sent env m L done w' := by
  obtain ⟨G, sent, hG, hrows, hle, hlive, hcomplete⟩ := h
  refine ⟨G ++ events, sent, ?_, ?_, hle, fun hlive' => ?_, fun hall => ?_⟩
  · rw [hlog, hG, List.append_assoc]
  · rw [sentRows_append, hrows, sentRows_of_emitted hevents]
    simp
  · cases h : w.dead with
    | false => exact hlive h
    | true =>
      rw [hdead h] at hlive'
      cases hlive'
  · exact hcomplete fun e he => hall e (List.mem_append_left _ he)

theorem Event.spec_of_isOutput {e : Event} (h : e.isOutput = false) :
    e.emitted? = none ∧ e.push? m = none := by
  cases e with
  | send f => cases f <;> first | exact ⟨rfl, rfl⟩ | cases h
  | call rowNumber op ans => cases h
  | _ => exact ⟨rfl, rfl⟩

theorem Sent.noOutput (h : Sent env m L done w) (hnone : NoOutput w w') :
    Sent env m L done w' := by
  obtain ⟨⟨events, hlog, hevents⟩, hdead⟩ := hnone
  exact h.grow hlog (fun e he => (Event.spec_of_isOutput (m := m) (hevents e he)).1) hdead

/-- A call that lost rows is noted. -/
theorem SentBroken.call (h : SentBroken m L done w) {e : Event} (hemit : e.emitted? = none)
    (he : ¬ e.Complete env m) : Sent env m L done (w.push e) := by
  obtain ⟨G, sent, hG, hrows, hle, hlive⟩ := h
  refine ⟨G ++ [e], sent, ?_, ?_, hle, hlive, fun hall => ?_⟩
  · rw [World.push, hG, List.append_assoc]
  · rw [sentRows_append, hrows, sentRows_of_emitted fun e' he' => List.mem_singleton.mp he' ▸ hemit]
    simp
  · exact absurd (hall e (List.mem_append_right _ (List.mem_singleton.mpr rfl))) he

/-- **Sending rows.** -/
theorem Sent.request (h : Sent env m L done w) {rows : List WireRow}
    (hfits : ∀ row ∈ rows, row.Fits m.outputColumns) (id : UInt64) :
    let r := w.request env (.emit ⟨id, EmitTable.default.append rows⟩)
    SentBroken m L (done ++ rows) r.2 ∧
      ∀ event, r.1 = .ok event → Sent env m L (done ++ rows) r.2 := by
  intro r
  have hspec : World.Exchange (.emit ⟨id, EmitTable.default.append rows⟩) w r :=
    World.request_spec env _ w
  obtain ⟨G, sent, hG, hsent, hle, hlive, hcomplete⟩ := h
  clear_value r
  cases hspec with
  | stuck e hdead =>
    refine ⟨⟨G, sent, hG, hsent, hle.trans (List.prefix_append _ _), fun hlive' => ?_⟩,
      fun _ h => nomatch h⟩
    rw [hdead] at hlive'
    cases hlive'
  | @answered events res w' hworks hwait hlog =>
    obtain rfl := hlive hworks
    obtain ⟨-, hrows⟩ := output_of_exchange env.toExtern m.outputColumns hfits
      (r := ⟨id, EmitTable.default.append rows⟩) rfl hwait
    have hG' : w'.log = L ++ (G ++ Event.send (.emit ⟨id, EmitTable.default.append rows⟩) ::
        (events ++ [.answered (.emit ⟨id, EmitTable.default.append rows⟩) res])) := by
      rw [hlog, hG, List.append_assoc]
    have hsent' : sentRows m.outputColumns (G ++ Event.send (.emit ⟨id, EmitTable.default.append
        rows⟩) :: (events ++ [.answered (.emit ⟨id, EmitTable.default.append rows⟩) res]))
          = some (sent ++ rows) := by
      rw [sentRows_append, hsent, hrows]
      rfl
    exact ⟨⟨_, _, hG', hsent', List.prefix_rfl, fun _ => rfl⟩,
      fun _ _ => ⟨_, _, hG', hsent', List.prefix_rfl, fun _ => rfl, fun _ => rfl⟩⟩

theorem emitFlusher_sent (env : Env) (m : UdfMeta) (L : List Event) :
    Delivers env.toExtern m.outputColumns (emitFlusher env)
      (fun done w => Sent env m L (rowsOf done) w)
      (fun done w => SentBroken m L (rowsOf done) w) := by
  intro done new w hpriced hfull h
  obtain ⟨hbroken, hsent⟩ := h.request (rowsOf_fits hpriced) w.proto.connectionId
  rw [← rowsOf_append] at hbroken hsent
  have hrows : (tableOf new).rows ≠ 0 := by
    obtain ⟨before, row, cost, rfl, -⟩ := hfull
    rw [tableOf, EmitTable.append_rows, rowsOf_append, rowsOf_single, List.length_append]
    exact Nat.succ_ne_zero _
  unfold emitFlusher Protocol.emitRequest
  rw [if_neg hrows]
  unfold tableOf
  generalize w.request env _ = r at hbroken hsent ⊢
  obtain ⟨e | event, w'⟩ := r
  · exact hbroken
  · exact hsent event rfl

/-! ### Calls -/

/-- Exchanges push nothing. -/
theorem request_silent (env : Env) (m : UdfMeta) (f : Frame) (w : World) :
    World.Adds (fun e => e.push? m = none) w (w.request env f).2 :=
  World.Adds.request (P := fun e => e.push? m = none) rfl (fun _ => rfl)
    (fun _ he => (Event.spec_of_isOutput (Event.not_isOutput_of_isPassing he)).2) w

theorem feedRel_silent (env : Env) (m : UdfMeta) :
    Feed.Rel env fun fd fd' => World.Adds (fun e => e.push? m = none) fd.world fd'.world where
  refl fd := World.Adds.refl fd.world
  trans := World.Adds.trans
  next fd := Feed.fetchStep_world env fd ▸ request_silent env m _ fd.world
  emit fd _ _ := request_silent env m _ fd.world
  lookup fd _ := request_silent env m _ fd.world

namespace HostContextBridge

/-- Since `L` the bridge has handed over or buffers what the calls have pushed. -/
def Pushes (env : Env) (m : UdfMeta) (L : List Event) (b : HostContextBridge) : Prop :=
  ∃ G cs, b.world.log = L ++ G ∧ PushedBy env m (rowsOf cs) G ∧
    b.emitBuf.Holds env.toExtern m.outputColumns (fun done w => Sent env m L (rowsOf done) w) cs
      b.world

/-- Events that neither push nor send rows change nothing. -/
theorem Pushes.noOutput {b b' : HostContextBridge} (h : b.Pushes env m L)
    (hbuf : b'.emitBuf = b.emitBuf) (hnone : NoOutput b.world b'.world) : b'.Pushes env m L := by
  obtain ⟨G, cs, hG, hpushed, hholds⟩ := h
  obtain ⟨events, hlog, hevents⟩ := hnone.1
  refine ⟨G ++ events, cs, ?_, ?_, ?_⟩
  · rw [hlog, hG, List.append_assoc]
  · exact hpushed.append_silent fun e he => (Event.spec_of_isOutput (hevents e he)).2
  · rw [hbuf]
    exact hholds.mono fun done _ hI => hI.noOutput hnone

/-- **A call** adds what it has pushed. -/
theorem handle_pushes (hext : env.toExtern.Documented) (op : CtxOp) (b : HostContextBridge)
    (h : b.Pushes env m L) : (b.handle env m op).2.Pushes env m L := by
  obtain ⟨G, cs, hG, hpushed, hholds⟩ := h
  obtain ⟨events, hlog, hevents⟩ := answer_rel m (feedRel_silent env m) op b
  have hanswer := @answer_push env m op b
  set e : Event := .call b.input.currentRowNumber op (b.answer env m op).1 with he
  have hpush? : e.push? m = op.push? m b.input.currentRowNumber (b.answer env m op).1 := rfl
  have hlog' : (b.handle env m op).2.world.log = L ++ (G ++ events ++ [e]) := by
    show (b.answer env m op).2.world.log ++ [e] = _
    rw [hlog, hG, List.append_assoc, List.append_assoc, List.append_assoc]
  have hbefore := hpushed.append_silent hevents
  -- The note of the call itself sends nothing.
  have hnote : ∀ {done w}, Sent env m L done w → Sent env m L done (w.push e) := fun h =>
    h.grow rfl (fun e' he' => List.mem_singleton.mp he' ▸ rfl) id
  rw [← hpush?] at hanswer
  cases hp : e.push? m with
  | none =>
    rw [hp] at hanswer
    obtain ⟨hbuf, hnone⟩ := hanswer
    refine ⟨_, cs, hlog', hbefore.append_silent fun e' he' => List.mem_singleton.mp he' ▸ hp, ?_⟩
    show EmitBuffer.Holds _ _ _ cs (b.answer env m op).2.emitBuf
      ((b.answer env m op).2.world.push e)
    rw [hbuf]
    exact hholds.mono fun done _ hI => hnote (hI.noOutput hnone)
  | some r =>
    obtain ⟨p, res⟩ := r
    rw [hp] at hanswer
    obtain ⟨hres, hb⟩ := hanswer
    have hrows : e.pushedRows env m = p.rows env.toExtern m.outputColumns := by
      rw [Event.pushedRows, hp]
      rfl
    have hspec := hholds.push hext (emitFlusher_sent env m L) p
    show ∃ G cs, ((b.answer env m op).2.world.push e).log = L ++ G ∧ PushedBy env m (rowsOf cs) G ∧
      EmitBuffer.Holds _ _ _ cs (b.answer env m op).2.emitBuf ((b.answer env m op).2.world.push e)
    change ((b.answer env m op).2.world.push e).log = _ at hlog'
    rw [hb] at hlog' ⊢
    generalize p.run _ _ _ _ _ = r at hres hspec hlog' ⊢
    obtain ⟨res', buf, w⟩ := r
    obtain rfl : res = res' := hres
    cases res with
    | ok u =>
      obtain ⟨new, hnew, hholds'⟩ := hspec
      refine ⟨_, cs ++ new, hlog', ?_, hholds'.mono fun done _ hI => hnote hI⟩
      rw [rowsOf_append, hnew, ← hrows]
      exact hbefore.step List.prefix_rfl fun _ => rfl
    | error err =>
      obtain hsame | ⟨new, hle, hne, hempty, hF⟩ := hspec
      · obtain ⟨rfl, rfl⟩ := Prod.mk.inj hsame
        refine ⟨_, cs, hlog', ?_, hholds.mono fun done _ hI => hnote hI⟩
        rw [← List.append_nil (rowsOf cs)]
        refine hbefore.step List.nil_prefix fun hcomplete => ?_
        rw [hrows, hcomplete p err hp]
      · have hlost : ¬ e.Complete env m := fun hcomplete =>
          hne (List.prefix_nil.mp (hcomplete p err hp ▸ hle))
        refine ⟨_, cs ++ new, hlog', ?_, .of_empty (hF.call rfl hlost) hempty⟩
        rw [rowsOf_append]
        exact hbefore.step (hrows ▸ hle) fun hcomplete => absurd hcomplete hlost

theorem runOnce_pushes (hext : env.toExtern.Documented) (udf : LoadedUdf) {b : HostContextBridge}
    (h : b.Pushes env m L) : (runOnce env m udf b).2.Pushes env m L := by
  refine runOnce_rule env m udf (I := Pushes env m L) (Q := fun _ b => b.Pushes env m L)
    (fun op b => handle_pushes hext op b) (fun b res h => ?_) ?_
  · exact h.noOutput rfl (NoOutput.push rfl b.world)
  · exact h.noOutput rfl (NoOutput.push rfl b.world)

theorem driveGroupRows_pushes (hext : env.toExtern.Documented) (udf : LoadedUdf)
    {b : HostContextBridge} (h : b.Pushes env m L) :
    (driveGroupRows env m udf b).2.Pushes env m L := by
  refine driveGroupRows_keeps env m udf (fun b hb => runOnce_pushes hext udf hb) (fun b hb => ?_) h
  exact hb.noOutput (advanceRow_emitBuf m b) (advanceRow_rel m (fetchRel_noOutput env) b)

end HostContextBridge

/-! ### Groups -/

/-- Since `L` the calls have pushed some rows, and the first of them have been sent; all of them if
`all` holds and no row was lost. -/
def SentPushed (env : Env) (m : UdfMeta) (L : List Event) (all : Prop) (w : World) : Prop :=
  ∃ G rows sent, w.log = L ++ G ∧ PushedBy env m rows G ∧
    sentRows m.outputColumns G = some sent ∧ sent <+: rows ∧
    (all → (∀ e ∈ G, e.Complete env m) → sent = rows)

theorem SentPushed.of_sent {G : List Event} {rows : List WireRow} {all : Prop}
    (hG : w.log = L ++ G) (hpushed : PushedBy env m rows G) (hsent : Sent env m L done w)
    (hle : done <+: rows) (hall : all → done = rows) : SentPushed env m L all w := by
  obtain ⟨G', sent, hG', hrows, hprefix, -, hcomplete⟩ := hsent
  obtain rfl : G = G' := List.append_cancel_left (hG.symm.trans hG')
  exact ⟨G, rows, sent, hG, hpushed, hrows, hprefix.trans hle,
    fun h hG => (hcomplete hG).trans (hall h)⟩

theorem HostContextBridge.Pushes.sentPushed {b : HostContextBridge} (h : b.Pushes env m L) :
    SentPushed env m L False b.world := by
  obtain ⟨G, -, hG, hpushed, done, waiting, rfl, -, -, -, hI⟩ := h
  exact .of_sent hG hpushed hI (rowsOf_append .. ▸ List.prefix_append _ _) False.elim

/-- The rows that are left at the end of a group are sent. -/
theorem endGroup_pushed {fd : Feed} {buf : EmitBuffer} {G : List Event} {cs : List Charged}
    (hG : fd.world.log = L ++ G) (hpushed : PushedBy env m (rowsOf cs) G)
    (hholds : buf.Holds env.toExtern m.outputColumns
      (fun done w => Sent env m L (rowsOf done) w) cs fd.world) :
    SentPushed env m L ((endGroup env fd buf).1 = .ok none) (endGroup env fd buf).2 := by
  obtain ⟨done, waiting, rfl, hbuf, hbelow, hpriced, hI⟩ := hholds
  have hle : rowsOf done <+: rowsOf (done ++ waiting) := rowsOf_append .. ▸ List.prefix_append _ _
  unfold endGroup
  split
  · exact .of_sent hG hpushed hI hle (by rintro ⟨⟩)
  · exact .of_sent hG hpushed hI hle (by rintro ⟨⟩)
  -- Nothing has ended the session, so what is still buffered goes out with the tail.
  unfold tailFlush
  split_ifs with hempty
  · have hnone : rowsOf waiting = [] := by
      have hrows : (tableOf waiting).rows = 0 := by
        rw [← hbuf.table]
        simpa [EmitBuffer.isEmpty] using hempty
      rw [tableOf, EmitTable.append_rows] at hrows
      exact List.eq_nil_of_length_eq_zero (by omega)
    exact .of_sent hG hpushed hI hle fun _ => by rw [rowsOf_append, hnone, List.append_nil]
  · obtain ⟨hbroken, hsent⟩ := hI.request (rowsOf_fits hpriced)
      fd.world.proto.connectionId
    obtain ⟨events, hlog, hevents⟩ : World.Adds (fun e => e.push? m = none) fd.world
        (fd.world.request env (.emit ⟨fd.world.proto.connectionId, tableOf waiting⟩)).2 :=
      request_silent env m _ fd.world
    rw [← rowsOf_append] at hbroken hsent
    unfold EmitBuffer.flush Protocol.emitRequest
    dsimp only
    rw [hbuf.table]
    rw [← tableOf] at hbroken hsent
    have hG' : (fd.world.request env (.emit ⟨fd.world.proto.connectionId, tableOf waiting⟩)).2.log
        = L ++ (G ++ events) := by
      rw [hlog, hG, List.append_assoc]
    have hpushed' := hpushed.append_silent hevents
    generalize fd.world.request env _ = r at hbroken hsent hG' ⊢
    -- If the tail is lost, its rows were sent or not, but none after them.
    obtain ⟨e | event, w'⟩ := r
    · obtain ⟨G', sent, hG'', hrows, hprefix, -⟩ := hbroken
      obtain rfl : G ++ events = G' := List.append_cancel_left (hG'.symm.trans hG'')
      exact ⟨_, _, sent, hG', hpushed', hrows, hprefix, by rintro ⟨⟩⟩
    · exact .of_sent hG' hpushed' (hsent event rfl) List.prefix_rfl fun _ => rfl

/-- **What a group sends.**  The rows of its `MT_EMIT`s are the first of the rows that its calls
have pushed; all of them if it ends well and no flush of a call has failed. -/
theorem runGroup_pushed (hext : env.toExtern.Documented) (m : UdfMeta) (udf : LoadedUdf)
    (w : World) :
    SentPushed env m w.log ((runGroup env m udf w).1 = .ok none) (runGroup env m udf w).2 := by
  have hstart : Sent env m w.log [] w :=
    ⟨[], [], (List.append_nil _).symm, rfl, List.prefix_rfl, fun _ => rfl, fun _ => rfl⟩
  have hfirst := firstNonemptyInput_rel m (fetchRel_noOutput env) ⟨w, none⟩
  obtain ⟨events, hlog, hevents⟩ := hfirst.1
  have hnone : PushedBy env m [] ([] ++ events) :=
    PushedBy.nil.append_silent fun e he => (Event.spec_of_isOutput (hevents e he)).2
  have hsent := hstart.noOutput hfirst
  unfold runGroup
  split <;> rename_i hf <;> rw [hf] at hlog hsent
  · exact .of_sent hlog hnone hsent List.prefix_rfl fun h => nomatch h
  · exact @endGroup_pushed _ _ _ _ _ _ [] hlog hnone (.of_empty hsent EmitBuffer.buffers_new)
  · rename_i input fd
    have hnew : (HostContextBridge.new fd input).Pushes env m w.log :=
      ⟨events, [], hlog, hnone, .of_empty hsent EmitBuffer.buffers_new⟩
    have hdrive := HostContextBridge.driveGroupRows_pushes hext udf hnew
    split <;> rename_i hd <;> rw [hd] at hdrive
    · obtain ⟨G, rows, sent, hG, hpushed, hrows, hle, -⟩ := hdrive.sentPushed
      exact ⟨G, rows, sent, hG, hpushed, hrows, hle, fun h => nomatch h⟩
    · obtain ⟨G, cs, hG, hpushed, hholds⟩ := hdrive
      exact endGroup_pushed hG hpushed hholds

end ExaUdf
