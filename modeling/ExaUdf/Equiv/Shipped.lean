import ExaUdf.Equiv.Ending
import ExaUdf.Equiv.Pushed

/-!
# What a session sends

`Shipped` is what holds of every message of a session: an `MT_EMIT` carries rows, at least
one, each with a fitting cell for every output column, and no other message has its type.
`Runtime.run_shipped` follows it from the first message to the last.
-/

namespace ExaUdf

open Charged

/-- A table that is made of fitting rows, at least one. -/
def Stocked (cols : List ColumnInfo) (table : EmitTable) : Prop :=
  ∃ rows, rows ≠ [] ∧ (∀ row ∈ rows, row.Fits cols) ∧ table = EmitTable.default.append rows

/-- What a message of a session with these output columns can be. -/
def Frame.Shipped (cols : List ColumnInfo) : Frame → Prop
  | .request r => r.type ≠ MessageType.mtEmit.toI32
  | .emit r => Stocked cols r.table

/-- Every message so far is like that. -/
def Shipped (cols : List ColumnInfo) (log : List Event) : Prop :=
  ∀ f ∈ sends log, f.Shipped cols

variable {env : Env} {cols : List ColumnInfo} {m : UdfMeta} {w w' : World}

namespace Shipped

theorem append {log events : List Event} (h : Shipped cols log)
    (hevents : ∀ f ∈ sends events, f.Shipped cols) : Shipped cols (log ++ events) := by
  intro f hf
  rw [sends, List.filterMap_append, List.mem_append] at hf
  exact hf.elim (h f) (hevents f)

/-- Events that send nothing change nothing. -/
theorem note {log : List Event} (h : Shipped cols log) {e : Event} (he : e.sent? = none) :
    Shipped cols (log ++ [e]) := by
  refine h.append fun f hf => ?_
  obtain ⟨e', he', hsent⟩ := List.mem_filterMap.mp hf
  rw [List.mem_singleton.mp he', he] at hsent
  cases hsent

/-- A ping reply has a type of its own. -/
theorem of_isPassing {events : List Event} (h : ∀ e ∈ events, e.isPassing = true) :
    ∀ f ∈ sends events, f.Shipped cols := by
  intro f hf
  obtain ⟨e, he, hsent⟩ := List.mem_filterMap.mp hf
  have hpassing := h e he
  cases e with
  | send g =>
    obtain rfl : g = f := Option.some.inj hsent
    cases g with
    | emit r => cases hpassing
    | request r =>
      have htype : r.type = pingType := by
        simpa [Event.isPassing, Frame.messageType] using hpassing
      show r.type ≠ _
      rw [htype]
      decide
  | _ => cases hsent

/-- **An exchange.** -/
theorem request (env : Env) (h : Shipped cols w.log) {f : Frame} (hf : f.Shipped cols) :
    Shipped cols (w.request env f).2.log := by
  have hspec := World.request_spec env f w
  generalize w.request env f = r at hspec
  cases hspec with
  | stuck => exact h
  | @answered events res w' _ hwait hlog =>
    rw [hlog]
    refine h.append fun g hg => ?_
    rw [← List.singleton_append, sends, List.filterMap_append, List.filterMap_append,
      List.mem_append, List.mem_append] at hg
    rcases hg with hg | hg | hg
    · obtain rfl := List.mem_singleton.mp hg
      exact hf
    · exact of_isPassing hwait.isPassing g hg
    · exact absurd hg List.not_mem_nil

end Shipped

/-! ### The flushers -/

/-- A flusher sends rows that have been charged, so at least one. -/
theorem emitFlusher_shipped (env : Env) (m : UdfMeta) :
    Delivers env.toExtern m.outputColumns (emitFlusher env)
      (fun _ w => Shipped m.outputColumns w.log) (fun _ w => Shipped m.outputColumns w.log) := by
  intro done new w hpriced _ h
  unfold emitFlusher
  split_ifs with hrows
  · exact h
  · have hstocked : Stocked m.outputColumns (tableOf new) := by
      refine ⟨rowsOf new, fun hnil => hrows ?_, rowsOf_fits hpriced, rfl⟩
      rw [tableOf, hnil]
      rfl
    have hreq := @Shipped.request _ _ env h (.emit (w.proto.emitRequest (tableOf new))) hstocked
    generalize w.request env _ = r at hreq ⊢
    obtain ⟨e | event, w'⟩ := r <;> exact hreq

theorem request_shipped (env : Env) (cols : List ColumnInfo) {r : ExascriptRequest}
    (hr : r.type ≠ MessageType.mtEmit.toI32) (w : World) (h : Shipped cols w.log) :
    Shipped cols (w.request env (.request r)).2.log :=
  @Shipped.request _ _ env h (.request r) hr

theorem fetchRel_shipped (env : Env) (cols : List ColumnInfo) :
    Feed.FetchRel env fun fd fd' => Shipped cols fd.world.log → Shipped cols fd'.world.log where
  refl _ := id
  trans hab hbc := hbc ∘ hab
  next fd h := by
    rw [Feed.fetchStep_world]
    exact request_shipped env cols (by show MessageType.toI32 _ ≠ _; decide) fd.world h

namespace HostContextBridge

/-- What has been sent is as it should be, and what is buffered has been charged. -/
def Stocks (env : Env) (m : UdfMeta) (b : HostContextBridge) : Prop :=
  ∃ cs, b.emitBuf.Holds env.toExtern m.outputColumns (fun _ w => Shipped m.outputColumns w.log) cs
    b.world

theorem Stocks.shipped {b : HostContextBridge} (h : b.Stocks env m) :
    Shipped m.outputColumns b.world.log := by
  obtain ⟨-, -, -, -, -, -, -, h⟩ := h
  exact h

theorem Stocks.of_eq {b b' : HostContextBridge} (h : b.Stocks env m)
    (hbuf : b'.emitBuf = b.emitBuf)
    (hlog : Shipped m.outputColumns b.world.log → Shipped m.outputColumns b'.world.log) :
    b'.Stocks env m := by
  obtain ⟨cs, hholds⟩ := h
  refine ⟨cs, ?_⟩
  rw [hbuf]
  exact hholds.mono fun _ _ => hlog

theorem connection_shipped (b : HostContextBridge) (name : String)
    (h : Shipped cols b.world.log) :
    Shipped cols (b.connection env name).2.world.log := by
  have hreq := @connRequester_rel env (fun w w' => Shipped cols w.log → Shipped cols w'.log) name
    b.world (request_shipped env cols (by show MessageType.toI32 _ ≠ _; decide) b.world) h
  unfold connection
  split <;> rename_i hr <;> rw [hr] at hreq <;> exact hreq

/-- **A call.** -/
theorem handle_stocks (hext : env.toExtern.Documented) (op : CtxOp) (b : HostContextBridge)
    (h : b.Stocks env m) : (b.handle env m op).2.Stocks env m := by
  -- The note of the call sends nothing.
  suffices hanswer : (b.answer env m op).2.Stocks env m from hanswer.of_eq rfl fun h => h.note rfl
  have hpush := @answer_push env m op b
  cases hp : op.push? m b.input.currentRowNumber (b.answer env m op).1 with
  | none =>
    rw [hp] at hpush
    refine h.of_eq hpush.1 ?_
    -- What is left are the calls that exchange other messages, and those that exchange none.
    cases op with
    | next => exact next_rel m (fetchRel_shipped env m.outputColumns) b
    | connection name => exact connection_shipped b name
    | emit values =>
      unfold CtxOp.push? at hp
      show _ → Shipped _ (b.emit env m values).2.world.log
      unfold emit
      dsimp only at hp
      split_ifs at hp ⊢
      exact id
    | setReturn value => cases hp
    | emitBatch imported =>
      cases imported with
      | error e =>
        show _ → Shipped _ (b.emitRecordBatch env m (.error e)).2.world.log
        unfold emitRecordBatch
        split_ifs <;> exact id
      | ok batch =>
        unfold CtxOp.push? at hp
        show _ → Shipped _ (b.emitRecordBatch env m (.ok batch)).2.world.log
        unfold emitRecordBatch
        dsimp only at hp
        split_ifs at hp ⊢
        exact id
    | _ => exact id
  | some r =>
    obtain ⟨p, res⟩ := r
    rw [hp] at hpush
    obtain ⟨-, hb⟩ := hpush
    obtain ⟨cs, hholds⟩ := h
    have hspec := hholds.push hext (emitFlusher_shipped env m) p
    rw [hb]
    generalize p.run _ _ _ _ _ = r at hspec
    obtain ⟨_ | _, buf, w⟩ := r
    · obtain hsame | ⟨new, -, -, hempty, hF⟩ := hspec
      · obtain ⟨rfl, rfl⟩ := Prod.mk.inj hsame
        exact ⟨cs, hholds⟩
      · exact ⟨cs, .of_empty hF hempty⟩
    · obtain ⟨new, -, hholds'⟩ := hspec
      exact ⟨_, hholds'⟩

theorem runOnce_stocks (hext : env.toExtern.Documented) (udf : LoadedUdf) {b : HostContextBridge}
    (h : b.Stocks env m) : (runOnce env m udf b).2.Stocks env m := by
  refine runOnce_rule env m udf (I := Stocks env m) (Q := fun _ b => b.Stocks env m)
    (fun op b => handle_stocks hext op b) (fun b res h => ?_) ?_
  · exact h.of_eq rfl fun h => h.note rfl
  · exact h.of_eq rfl fun h => h.note rfl

theorem driveGroupRows_stocks (hext : env.toExtern.Documented) (udf : LoadedUdf)
    {b : HostContextBridge} (h : b.Stocks env m) :
    (driveGroupRows env m udf b).2.Stocks env m := by
  refine driveGroupRows_keeps env m udf (fun b hb => runOnce_stocks hext udf hb) (fun b hb => ?_) h
  exact hb.of_eq (advanceRow_emitBuf m b)
    (advanceRow_rel m (fetchRel_shipped env m.outputColumns) b)

end HostContextBridge

/-! ### Groups -/

theorem endGroup_shipped {fd : Feed} {buf : EmitBuffer} (cs : List Charged)
    (h : buf.Holds env.toExtern m.outputColumns (fun _ w => Shipped m.outputColumns w.log) cs
      fd.world) :
    Shipped m.outputColumns (endGroup env fd buf).2.log := by
  obtain ⟨done, waiting, -, hbuf, -, hpriced, hI⟩ := h
  unfold endGroup
  split
  · exact hI
  · exact hI
  unfold tailFlush
  split_ifs with hempty
  · exact hI
  have hstocked : Stocked m.outputColumns buf.table := by
    rw [hbuf.table]
    refine ⟨rowsOf waiting, fun hnil => hempty ?_, rowsOf_fits hpriced, rfl⟩
    rw [EmitBuffer.isEmpty, hbuf.table, tableOf, hnil]
    rfl
  unfold EmitBuffer.flush
  dsimp only
  have hreq := @Shipped.request _ _ env hI (.emit (fd.world.proto.emitRequest buf.table)) hstocked
  generalize fd.world.request env _ = r at hreq ⊢
  obtain ⟨e | event, w'⟩ := r <;> exact hreq

theorem runGroup_shipped (hext : env.toExtern.Documented) (m : UdfMeta) (udf : LoadedUdf)
    (h : Shipped m.outputColumns w.log) : Shipped m.outputColumns (runGroup env m udf w).2.log := by
  have hfirst := firstNonemptyInput_rel m (fetchRel_shipped env m.outputColumns) ⟨w, none⟩ h
  unfold runGroup
  split <;> rename_i hf <;> rw [hf] at hfirst
  · exact hfirst
  · exact endGroup_shipped [] (.of_empty hfirst EmitBuffer.buffers_new)
  · rename_i input fd
    have hnew : (HostContextBridge.new fd input).Stocks env m :=
      ⟨[], .of_empty hfirst EmitBuffer.buffers_new⟩
    have hdrive := HostContextBridge.driveGroupRows_stocks hext udf hnew
    split <;> rename_i hd <;> rw [hd] at hdrive
    · exact hdrive.shipped
    · obtain ⟨cs, hholds⟩ := hdrive
      exact endGroup_shipped cs hholds

/-! ### Sessions -/

theorem runUdf_shipped (hext : env.toExtern.Documented) (m : UdfMeta) (udf : LoadedUdf)
    (h : Shipped m.outputColumns w.log) : Shipped m.outputColumns (runUdf env m udf w).2.log := by
  refine (runUdfLoop env m udf).run_elim (P := fun w => Shipped m.outputColumns w.log)
    (Q := fun r => Shipped m.outputColumns r.2.log) (fun w hw => ?_) h
  show (runUdfStep env m udf w).elim _ _
  have hrun := request_shipped env m.outputColumns (r := w.proto.runRequest)
    (by show MessageType.toI32 _ ≠ _; decide) w hw
  unfold runUdfStep
  split <;> rename_i hr <;> rw [hr] at hrun <;> try exact hrun
  rename_i w₁ _ _
  have hgroup := runGroup_shipped hext m udf hrun
  split <;> rename_i hg <;> rw [hg] at hgroup <;> try exact hgroup
  rename_i w₂
  have hdone := request_shipped env m.outputColumns (r := w₂.proto.doneRequest)
    (by show MessageType.toI32 _ ≠ _; decide) w₂ hgroup
  split <;> rename_i hd <;> rw [hd] at hdone <;> exact hdone

theorem singleCallRel_shipped (env : Env) (cols : List ColumnInfo) :
    SingleCallRel env fun w w' => Shipped cols w.log → Shipped cols w'.log where
  refl _ := id
  trans hab hbc := hbc ∘ hab
  lookup w _ := request_shipped env cols (by show MessageType.toI32 _ ≠ _; decide) w
  note w e he h := h.note (by cases e <;> first | rfl | cases he)

theorem replyCall_shipped (env : Env) (fnId : SingleCallFunctionId) (outcome : HookOutcome)
    (h : Shipped cols w.log) : Shipped cols (replyCall env fnId outcome w).2.log := by
  unfold replyCall
  dsimp only
  generalize hframe : Frame.request _ = f
  have hf : f.Shipped cols := by
    rw [← hframe]
    cases outcome <;> (show MessageType.toI32 _ ≠ _; decide)
  have hreq := h.request env hf
  split <;> rename_i hr <;> rw [hr] at hreq <;> try exact hreq
  split <;> exact hreq

theorem runSingleCall_shipped (udf : LoadedUdf) (h : Shipped cols w.log) :
    Shipped cols (runSingleCall env udf w).2.log := by
  refine (runSingleCallLoop env udf).run_elim (P := fun w => Shipped cols w.log)
    (Q := fun r => Shipped cols r.2.log) (fun w hw => ?_) h
  show (runSingleCallStep env udf w).elim _ _
  have hrun := request_shipped env cols (r := w.proto.runRequest)
    (by show MessageType.toI32 _ ≠ _; decide) w hw
  unfold runSingleCallStep
  split <;> rename_i hr <;> rw [hr] at hrun <;> try exact hrun
  rename_i event w₁
  split <;> try exact hrun
  rename_i fnId jsonArg importSpec exportSpec
  have hhook := invokeHook_rel (singleCallRel_shipped env cols) udf
    ⟨fnId, jsonArg, importSpec, exportSpec⟩ w₁ hrun
  split <;> rename_i hi <;> rw [hi] at hhook <;> try exact hhook
  rename_i outcome w₂
  have hreply := replyCall_shipped env fnId outcome hhook
  split <;> rename_i hp <;> rw [hp] at hreply <;> try exact hreply
  rename_i w₃
  have hfinish : Shipped cols (finishCall env w₃).2.log := by
    have hreq := request_shipped env cols (r := w₃.proto.doneRequest)
      (by show MessageType.toI32 _ ≠ _; decide) w₃ hreply
    unfold finishCall
    split <;> rename_i hr' <;> rw [hr'] at hreq <;> try exact hreq
    split <;> exact hreq
  split <;> rename_i hd <;> rw [hd] at hfinish <;> exact hfinish

theorem Cleanup.runHook_shipped (udf : LoadedUdf) (outcome : Except RuntimeError Unit)
    (h : Shipped cols w.log) : Shipped cols (Cleanup.runHook udf outcome w).2.log := by
  refine Cleanup.runHook_rel (R := fun w w' => Shipped cols w.log → Shipped cols w'.log)
    (fun _ => id) (fun hab hbc => hbc ∘ hab) (fun w e he h => ?_) udf outcome w h
  exact h.note (by cases e <;> first | rfl | cases he)

namespace Runtime

theorem closeWith_shipped (env : Env) (code : Nat) (e : RuntimeError) (h : Shipped cols w.log) :
    Shipped cols (closeWith env code e w).2.log := by
  unfold closeWith World.send
  split_ifs
  · exact h
  · refine h.append fun f hf => ?_
    obtain rfl := List.mem_singleton.mp hf
    show MessageType.toI32 _ ≠ _
    decide

theorem serve_shipped (hext : env.toExtern.Documented) (m : UdfMeta) (udf : LoadedUdf)
    (h : Shipped m.outputColumns w.log) : Shipped m.outputColumns (serve env m udf w).2.log := by
  have hdispatch : Shipped m.outputColumns (dispatch env m udf w).2.log := by
    unfold dispatch
    split_ifs
    · exact runSingleCall_shipped udf h
    · exact runUdf_shipped hext m udf h
  have hhook := Cleanup.runHook_shipped udf (dispatch env m udf w).1 hdispatch
  unfold serve
  dsimp only
  generalize Cleanup.runHook udf _ _ = cleaned at hhook ⊢
  obtain ⟨e | u, w₁⟩ := cleaned
  · exact closeWith_shipped env _ e hhook
  have hfinished := request_shipped env m.outputColumns (r := w₁.proto.finishedReply)
    (by show MessageType.toI32 _ ≠ _; decide) w₁ hhook
  unfold finish sendFinished report
  dsimp only
  generalize w₁.request env _ = r at hfinished ⊢
  obtain ⟨e | event, w₂⟩ := r
  · exact closeWith_shipped env _ e hfinished
  · exact hfinished

theorem handshake_shipped (rt : Runtime) (env : Env) (inbox : List ExascriptResponse)
    (cols : List ColumnInfo) : Shipped cols ((handshake env).run (rt.greet inbox)).2.log := by
  intro f hf
  obtain ⟨e, he, hsent⟩ := List.mem_filterMap.mp hf
  have hgreeting := handshake_isGreeting rt env inbox e he
  cases e with
  | send g =>
    obtain rfl : g = f := Option.some.inj hsent
    cases g with
    | emit r => cases hgreeting
    | request r =>
      intro htype
      simp only [Event.isGreeting, Frame.messageType, htype] at hgreeting
      exact absurd hgreeting (by decide)
  | _ => cases hsent

/-- **What a session sends.** -/
theorem run_shipped (hext : env.toExtern.Documented) (rt : Runtime)
    (inbox : List ExascriptResponse) :
    ∃ cols, Shipped cols (rt.run env inbox).2.log ∧
      ∀ m, ((handshake env).run (rt.greet inbox)).1 = .ok m → cols = m.outputColumns := by
  have h := handshake_shipped rt env inbox
  rw [run_eq]
  generalize (handshake env).run (rt.greet inbox) = shaken at h ⊢
  obtain ⟨e | m, w⟩ := shaken
  · exact ⟨[], h [], fun _ h => nomatch h⟩
  refine ⟨m.outputColumns, ?_, ?_⟩
  · dsimp only
    unfold runLoaded
    split
    · exact closeWith_shipped env _ _ (h _)
    · exact serve_shipped hext m _ (h _)
  · rintro m' ⟨⟩
    rfl

end Runtime

/-! ### What the database can read -/

/-- A table of rows can be made through the API of tables. -/
theorem EmitTable.append_built (rows : List WireRow) : (EmitTable.default.append rows).Built := by
  have hcells : ∀ (cells : List (List UInt8)) {t : EmitTable}, t.Built →
      (cells.foldl EmitTable.pushString t).Built ∧
        (cells.foldl EmitTable.pushString t).strings = t.strings ++ cellBlock cells := by
    intro cells
    induction cells with
    | nil => exact fun h => ⟨h, (List.append_nil _).symm⟩
    | cons cell cells ih =>
      intro t ht
      obtain ⟨hbuilt, hstrings⟩ := ih (ht.pushString cell)
      refine ⟨hbuilt, ?_⟩
      have hcell := cellBlock_append_singleton [] cell
      rw [List.nil_append, cellBlock_nil, List.nil_append] at hcell
      have hsplit : cellBlock (cell :: cells) = cellBlock [cell] ++ cellBlock cells :=
        cellBlock_append [cell] cells
      rw [List.foldl_cons, hstrings, pushString_strings, ← hcell, hsplit, List.append_assoc]
  obtain ⟨hbuilt, hstrings⟩ := hcells ((rows.flatMap WireRow.cells).filterMap WireCell.string?)
    .default
  have hall := hbuilt.blocks (default.append rows).rows (default.append rows).nulls
    (default.append rows).bools (default.append rows).int32 (default.append rows).int64
    (default.append rows).doubles (default.append rows).rowNumbers
  rw [hstrings] at hall
  exact hall

theorem Stocked.built {table : EmitTable} (h : Stocked cols table) : table.Built := by
  obtain ⟨rows, -, -, rfl⟩ := h
  exact EmitTable.append_built rows

end ExaUdf
