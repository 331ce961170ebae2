import ExaUdf.Equiv.Buffer
import ExaUdf.Equiv.Dispatch

/-!
# Output arrives once, in order

`acceptedRows` are the rows of the calls that returned `Ok`, and `sentRows` those of the `MT_EMIT`s.
The emit buffer stands between the two: `Handed` follows what a group has accepted and what it has
sent, and says nothing once an `MT_EMIT` has been answered by anything else than `MT_EMIT`.

* `runUdf_exactlyOnce`: what a group sends is what it has accepted.
* `runUdf_delivered`: a session that ends well has got every accepted row acknowledged, if every
  `MT_EMIT` is answered by `MT_EMIT`.
-/

namespace ExaUdf

open Charged

/-! ### Output in the history -/

/-- The rows of a call that returned `Ok`. -/
def onOk {ε α : Type} (res : Except ε Unit) (rows : List α) : List α :=
  match res with
  | .ok () => rows
  | .error _ => []

/-- The rows of a call that returned `Ok`. -/
def Event.acceptedRows (ext : Extern) (cols : List ColumnInfo) : Event → List WireRow
  | .call rowNumber (.emit values) ans =>
    onOk (show Except UdfError Unit from ans) [wireRow ext cols rowNumber values]
  | .call rowNumber (.setReturn value) ans =>
    onOk (show Except UdfError Unit from ans) [wireRow ext cols rowNumber [value.getD .null]]
  | .call rowNumber (.emitBatch (.ok batch)) ans =>
    onOk (show Except UdfError Unit from ans) (batchRows ext cols rowNumber batch)
  | _ => []

def acceptedRows (ext : Extern) (cols : List ColumnInfo) (log : List Event) : List WireRow :=
  log.flatMap (Event.acceptedRows ext cols)

/-- The table that an event sends. -/
def Event.emitted? : Event → Option EmitTable
  | .send (.emit r) => some r.table
  | _ => none

/-- The table of an `MT_EMIT` that is answered by `MT_EMIT`. -/
def Event.acked? : Event → Option EmitTable
  | .answered (.emit r) (.ok .emitAck) => some r.table
  | _ => none

/-- The rows of some tables, one table after the other. -/
def tableRows (cols : List ColumnInfo) (tables : List EmitTable) : Option (List WireRow) :=
  (tables.mapM (EmitTable.wireRows cols)).map List.flatten

/-- The rows of the `MT_EMIT`s, in wire order. -/
def sentRows (cols : List ColumnInfo) (log : List Event) : Option (List WireRow) :=
  tableRows cols (log.filterMap Event.emitted?)

/-- The rows of the `MT_EMIT`s that are answered by `MT_EMIT`. -/
def ackedRows (cols : List ColumnInfo) (log : List Event) : Option (List WireRow) :=
  tableRows cols (log.filterMap Event.acked?)

/-- Every `MT_EMIT` is answered by `MT_EMIT`. -/
def Acked (log : List Event) : Prop :=
  ∀ r res, Event.answered (.emit r) res ∈ log → res = .ok .emitAck

/-- An event about output: an `MT_EMIT`, its answer, or a call. -/
def Event.isOutput : Event → Bool
  | .send (.emit _) | .answered (.emit _) _ | .call .. => true
  | _ => false

variable {ext : Extern} {cols : List ColumnInfo}

theorem tableRows_append (as bs : List EmitTable) :
    tableRows cols (as ++ bs)
      = (tableRows cols as).bind fun xs => (tableRows cols bs).map (xs ++ ·) := by
  unfold tableRows
  rw [List.mapM_append]
  cases as.mapM (EmitTable.wireRows cols) <;> cases bs.mapM (EmitTable.wireRows cols) <;> simp

theorem sentRows_append (log log' : List Event) :
    sentRows cols (log ++ log')
      = (sentRows cols log).bind fun xs => (sentRows cols log').map (xs ++ ·) := by
  unfold sentRows
  rw [List.filterMap_append, tableRows_append]

theorem acceptedRows_append (log log' : List Event) :
    acceptedRows ext cols (log ++ log') = acceptedRows ext cols log ++ acceptedRows ext cols log' :=
  List.flatMap_append

theorem Acked.of_append {log log' : List Event} (h : Acked (log ++ log')) :
    Acked log ∧ Acked log' :=
  ⟨fun r res hmem => h r res (List.mem_append_left _ hmem),
    fun r res hmem => h r res (List.mem_append_right _ hmem)⟩

variable (ext cols) in
/-- Events that are not about output accept nothing and send nothing. -/
theorem silent_of_isOutput {events : List Event} (h : ∀ e ∈ events, e.isOutput = false) :
    acceptedRows ext cols events = [] ∧ sentRows cols events = some [] := by
  have haccepted : ∀ e ∈ events, e.acceptedRows ext cols = [] := by
    intro e he
    have hnone := h e he
    cases e <;> first | rfl | cases hnone
  have hsent : ∀ e ∈ events, e.emitted? = none := by
    intro e he
    have hnone := h e he
    cases e with
    | send f => cases f <;> first | rfl | cases hnone
    | _ => rfl
  refine ⟨List.flatMap_eq_nil_iff.mpr haccepted, ?_⟩
  unfold sentRows
  rw [List.filterMap_eq_nil_iff.mpr hsent]
  rfl

/-! ### What has been handed over -/

theorem Waiting.live_of_ok {events : List Event} {event : HostEvent} {dead : Bool}
    (h : Waiting events (.ok event) dead) : dead = false := by
  generalize hres : (.ok event : Except RuntimeError HostEvent) = res at h
  induction h with
  | timeout => cases hres
  | error => cases hres
  | answer => rfl
  | ping _ _ ih => exact ih hres

theorem Event.not_isOutput_of_isPassing {e : Event} (h : e.isPassing = true) :
    e.isOutput = false := by
  cases e with
  | send f => cases f <;> first | rfl | cases h
  | recv r => rfl
  | _ => cases h

variable (ext cols) in
/-- What an `MT_EMIT` exchange accepts and sends. -/
theorem output_of_exchange {rows : List WireRow} (hfits : ∀ row ∈ rows, row.Fits cols)
    {r : EmitRequest} (hr : r.table = EmitTable.default.append rows) {events : List Event}
    {res : Except RuntimeError HostEvent} {dead : Bool} (h : Waiting events res dead) :
    acceptedRows ext cols (.send (.emit r) :: (events ++ [.answered (.emit r) res])) = [] ∧
      sentRows cols (.send (.emit r) :: (events ++ [.answered (.emit r) res])) = some rows := by
  obtain ⟨haccepted, hsent⟩ := silent_of_isOutput ext cols fun e he =>
    Event.not_isOutput_of_isPassing (h.isPassing e he)
  have hfirst : sentRows cols [.send (.emit r)] = some rows := by
    show tableRows cols [r.table] = some rows
    rw [tableRows, hr]
    simp [EmitTable.wireRows_append hfits]
  have hlast : sentRows cols [.answered (.emit r) res] = some [] := rfl
  constructor
  · rw [← List.singleton_append, acceptedRows_append, acceptedRows_append, haccepted]
    rfl
  · rw [← List.singleton_append, sentRows_append, sentRows_append, hsent, hfirst, hlast]
    simp

/-- Since the history `L` the rows `A` have been accepted and, while the socket works and every
`MT_EMIT` is answered by `MT_EMIT`, exactly the rows `done` have been sent.  On a stuck socket some
of them have. -/
def Handed (ext : Extern) (cols : List ColumnInfo) (L : List Event) (A done : List WireRow)
    (w : World) : Prop :=
  ∃ G, w.log = L ++ G ∧ acceptedRows ext cols G = A ∧ (Acked G →
    ∃ sent, sentRows cols G = some sent ∧ (w.dead = false → sent = done) ∧
      (w.dead = true → sent <+: A))

variable {L : List Event} {A done : List WireRow} {w w' : World}

/-- Nothing is known of what a stuck socket was to send. -/
theorem Handed.of_dead (h : Handed ext cols L A done w) (hdead : w.dead = true)
    (done' : List WireRow) : Handed ext cols L A done' w := by
  obtain ⟨G, hlog, hA, hsent⟩ := h
  refine ⟨G, hlog, hA, fun hacked => ?_⟩
  obtain ⟨sent, hrows, -, hprefix⟩ := hsent hacked
  exact ⟨sent, hrows, fun hlive => absurd hdead (by simp [hlive]), hprefix⟩

/-- **Sending rows** adds them to those handed over.  If it fails, or the answer is not `MT_EMIT`,
the count is void. -/
theorem Handed.request (h : Handed ext cols L A done w) {rows : List WireRow}
    (hfits : ∀ row ∈ rows, row.Fits cols) (env : Env) (id : UInt64) :
    Handed ext cols L A (done ++ rows)
        (w.request env (.emit ⟨id, EmitTable.default.append rows⟩)).2 ∧
      ∀ e, (w.request env (.emit ⟨id, EmitTable.default.append rows⟩)).1 = .error e → ∀ done',
        Handed ext cols L A done'
          (w.request env (.emit ⟨id, EmitTable.default.append rows⟩)).2 := by
  have hspec := World.request_spec env (.emit ⟨id, EmitTable.default.append rows⟩) w
  generalize w.request env (.emit ⟨id, EmitTable.default.append rows⟩) = r at hspec
  cases hspec with
  -- On a stuck socket nothing is sent, and the count was void before.
  | stuck e hdead => exact ⟨h.of_dead hdead _, fun _ _ => h.of_dead hdead⟩
  | @answered events res w' hlive hwait hlog =>
    obtain ⟨G, hG, hA, hsent⟩ := h
    set r : EmitRequest := ⟨id, EmitTable.default.append rows⟩ with hr
    obtain ⟨haccepted, hrows⟩ := output_of_exchange ext cols hfits (r := r) rfl hwait
    set tail := Event.send (.emit r) :: (events ++ [.answered (.emit r) res]) with htail
    have hlog' : w'.log = L ++ (G ++ tail) := by
      rw [hlog, hG, List.append_assoc]
    have hA' : acceptedRows ext cols (G ++ tail) = A := by
      rw [acceptedRows_append, haccepted, List.append_nil, hA]
    have hanswer : Acked (G ++ tail) → res = .ok .emitAck := fun hacked =>
      hacked r res (by simp [htail])
    refine ⟨⟨G ++ tail, hlog', hA', fun hacked => ?_⟩, fun e he done' =>
      ⟨G ++ tail, hlog', hA', fun hacked => ?_⟩⟩
    · obtain ⟨sent, hG, hdone, -⟩ := hsent hacked.of_append.1
      -- The socket worked until now, so what was sent is exactly `done`.
      obtain rfl := hdone hlive
      rw [hanswer hacked] at hwait
      have hlive' : w'.dead = false := hwait.live_of_ok
      refine ⟨sent ++ rows, ?_, fun _ => rfl, fun hdead => ?_⟩
      · rw [sentRows_append, hG, hrows]
        rfl
      · rw [hlive'] at hdead
        cases hdead
    -- The exchange has failed, so its answer is not `MT_EMIT`.
    · have hcontra := hanswer hacked
      dsimp only at he
      rw [he] at hcontra
      cases hcontra

/-- A call that is over adds the rows it has accepted. -/
theorem Handed.call (h : Handed ext cols L A done w) (rowNumber : UInt64) (op : CtxOp)
    (ans : CtxAns op) :
    Handed ext cols L (A ++ (Event.call rowNumber op ans).acceptedRows ext cols) done
      (w.push (.call rowNumber op ans)) := by
  obtain ⟨G, hG, hA, hsent⟩ := h
  refine ⟨G ++ [.call rowNumber op ans], ?_, ?_, fun hacked => ?_⟩
  · rw [World.push, hG, List.append_assoc]
  · rw [acceptedRows_append, hA]
    simp [acceptedRows]
  · obtain ⟨sent, hrows, hlive, hdead⟩ := hsent hacked.of_append.1
    refine ⟨sent, ?_, hlive, fun h => (hdead h).trans (List.prefix_append _ _)⟩
    have hnone : sentRows cols [.call rowNumber op ans] = some [] := rfl
    rw [sentRows_append, hrows, hnone]
    simp

/-- Only events that are not about output, on a socket that stays stuck. -/
def NoOutput (w w' : World) : Prop :=
  World.Adds (fun e => e.isOutput = false) w w' ∧ (w.dead = true → w'.dead = true)

theorem NoOutput.refl (w : World) : NoOutput w w :=
  ⟨World.Adds.refl w, id⟩

theorem NoOutput.trans {a b c : World} (hab : NoOutput a b) (hbc : NoOutput b c) : NoOutput a c :=
  ⟨hab.1.trans hbc.1, hbc.2 ∘ hab.2⟩

theorem NoOutput.push {e : Event} (h : e.isOutput = false) (w : World) : NoOutput w (w.push e) :=
  ⟨World.Adds.push h w, id⟩

theorem NoOutput.request (env : Env) (r : ExascriptRequest) (w : World) :
    NoOutput w (w.request env (.request r)).2 := by
  refine ⟨World.Adds.request ?_ ?_ ?_ w, (sessionRel_dead env).request (.request r) w⟩
  · rfl
  · exact fun _ => rfl
  · exact fun _ => Event.not_isOutput_of_isPassing

/-- What a group has sent is a part of what it has accepted, and events that are not about output
change neither. -/
theorem Handed.noOutput (h : Handed ext cols L A done w) (hle : done <+: A)
    (hnone : NoOutput w w') : Handed ext cols L A done w' := by
  obtain ⟨G, hG, hA, hsent⟩ := h
  obtain ⟨⟨events, hlog, hevents⟩, hstuck⟩ := hnone
  obtain ⟨haccepted, hnone⟩ := silent_of_isOutput ext cols hevents
  refine ⟨G ++ events, ?_, ?_, fun hacked => ?_⟩
  · rw [hlog, hG, List.append_assoc]
  · rw [acceptedRows_append, haccepted, List.append_nil, hA]
  · obtain ⟨sent, hrows, hlive, hdead⟩ := hsent hacked.of_append.1
    refine ⟨sent, ?_, fun hlive' => ?_, fun _ => ?_⟩
    · rw [sentRows_append, hrows, hnone]
      simp
    -- The socket may have got stuck in between, and then some rows count as all.
    · cases h : w.dead with
      | false => exact hlive h
      | true =>
        rw [hstuck h] at hlive'
        cases hlive'
    · cases h : w.dead with
      | false => exact hlive h ▸ hle
      | true => exact hdead h

/-! ### The flushers -/

/-- The rows `all` have been handed over or are buffered. -/
def Keeps (ext : Extern) (cols : List ColumnInfo) (L : List Event) (A all : List WireRow)
    (buf : EmitBuffer) (w : World) : Prop :=
  ∃ cs, rowsOf cs = all ∧
    buf.Holds ext cols (fun done => Handed ext cols L A (rowsOf done)) cs w

namespace Keeps

variable {all : List WireRow} {buf : EmitBuffer}

theorem new (h : Handed ext cols L A all w) : Keeps ext cols L A all EmitBuffer.new w := by
  -- What has been handed over before is charged as one batch without costs.
  have hrows : rowsOf [⟨all.map (·, 0), 0⟩] = all := by
    simp [rowsOf, Function.comp_def]
  refine ⟨[⟨all.map (·, 0), 0⟩], hrows, .of_empty ?_ EmitBuffer.buffers_new⟩
  rwa [hrows]

theorem sentSome (h : Keeps ext cols L A all buf w) :
    ∃ done, done <+: all ∧ Handed ext cols L A done w := by
  obtain ⟨-, rfl, done, waiting, rfl, -, -, -, hI⟩ := h
  rw [rowsOf_append]
  exact ⟨_, List.prefix_append _ _, hI⟩

theorem mono {A' : List WireRow} (h : Keeps ext cols L A all buf w)
    (himp : ∀ done, done <+: all → Handed ext cols L A done w → Handed ext cols L A' done w') :
    Keeps ext cols L A' all buf w' := by
  obtain ⟨cs, rfl, h⟩ := h
  refine ⟨cs, rfl, h.mono fun done hle hI => himp _ ?_ hI⟩
  obtain ⟨rest, rfl⟩ := hle
  rw [rowsOf_append]
  exact List.prefix_append _ _

/-- A call that pushes rows adds them if it says so; after a flush that failed the count is void. -/
theorem pushed (h : Keeps ext cols L A all buf w) {rows : List WireRow}
    {r : Except UdfError Unit × EmitBuffer × World}
    (hpushed : ∀ cs, buf.Holds ext cols (fun done => Handed ext cols L A (rowsOf done)) cs w →
      EmitBuffer.Pushed ext cols (fun done => Handed ext cols L A (rowsOf done))
        (fun _ w => ∀ done, Handed ext cols L A done w) cs rows buf w r) :
    Keeps ext cols L A (all ++ onOk r.1 rows) r.2.1 r.2.2 := by
  obtain ⟨cs, rfl, h⟩ := h
  have hspec := hpushed cs h
  obtain ⟨e | u, buf', w'⟩ := r
  · rw [onOk, List.append_nil]
    -- Either nothing has changed, or a flush has failed and emptied the buffer.
    obtain hsame | ⟨new, -, -, hempty, hvoid⟩ := hspec
    · obtain ⟨rfl, rfl⟩ := Prod.mk.inj hsame
      exact ⟨cs, rfl, h⟩
    · exact ⟨cs, rfl, .of_empty (hvoid _) hempty⟩
  · obtain ⟨new, rfl, hholds⟩ := hspec
    exact ⟨cs ++ new, rowsOf_append cs new, hholds⟩

end Keeps

theorem emitFlusher_delivers (env : Env) :
    Delivers ext cols (emitFlusher env) (fun done => Handed ext cols L A (rowsOf done))
      (fun _ w => ∀ done, Handed ext cols L A done w) := by
  intro done new w hpriced _ h
  obtain ⟨hsent, hfailed⟩ := h.request (rowsOf_fits hpriced) env w.proto.connectionId
  rw [← rowsOf_append] at hsent
  unfold emitFlusher tableOf
  split_ifs with hrows
  -- Nothing is buffered, so nothing is sent.
  · rw [EmitTable.append_rows] at hrows
    have hnone : rowsOf new = [] := List.eq_nil_of_length_eq_zero (by omega)
    show Handed ext cols L A (rowsOf (done ++ new)) w
    rwa [rowsOf_append, hnone, List.append_nil]
  · unfold Protocol.emitRequest
    generalize w.request env _ = r at hsent hfailed ⊢
    obtain ⟨e | event, w'⟩ := r
    · exact hfailed e rfl
    · exact hsent

/-- The rows left at the end of a group. -/
theorem tailFlush_handed (env : Env) {buf : EmitBuffer} (h : Keeps ext cols L A A buf w) :
    ∃ done, done <+: A ∧ Handed ext cols L A done (tailFlush env buf w).2 ∧
      ((tailFlush env buf w).1 = .ok () → done = A) := by
  obtain ⟨cs, rfl, h⟩ := h
  unfold tailFlush
  split_ifs with hempty
  · obtain ⟨done, hdone, hI⟩ := h.of_isEmpty hempty
    rw [hdone] at hI
    exact ⟨_, List.prefix_rfl, hI, fun _ => rfl⟩
  obtain ⟨done, waiting, rfl, hbuf, -, hpriced, hI⟩ := h
  obtain ⟨hsent, hfailed⟩ := hI.request (rowsOf_fits hpriced) env w.proto.connectionId
  unfold EmitBuffer.flush Protocol.emitRequest
  dsimp only
  rw [hbuf.table, tableOf]
  generalize w.request env _ = r at hsent hfailed ⊢
  obtain ⟨e | event, w'⟩ := r
  · exact ⟨_, List.prefix_rfl, hfailed e rfl _, fun _ => rfl⟩
  · rw [← rowsOf_append] at hsent
    exact ⟨_, List.prefix_rfl, hsent, fun _ => rfl⟩

/-! ### Calls -/

variable {env : Env} (m : UdfMeta)

theorem fetchRel_noOutput (env : Env) :
    Feed.FetchRel env fun fd fd' => NoOutput fd.world fd'.world where
  refl _ := NoOutput.refl _
  trans := NoOutput.trans
  next fd := Feed.fetchStep_world env fd ▸ NoOutput.request env _ fd.world

namespace HostContextBridge

theorem refill_emitBuf (b : HostContextBridge) : (b.refill env m).2.emitBuf = b.emitBuf := by
  refine refill_rule env m (P := fun b' => b'.emitBuf = b.emitBuf)
    (Q := fun _ b' => b'.emitBuf = b.emitBuf) ?_ ?_ ?_ ?_ ?_ rfl
  · exact fun _ _ _ h _ => h
  · exact fun _ _ h _ => h
  · exact fun _ _ _ _ h _ _ => h
  · exact fun _ _ _ _ h _ _ _ => h
  · exact fun _ _ _ _ h _ _ _ => h

theorem advanceRow_emitBuf (b : HostContextBridge) :
    (b.advanceRow env m).2.emitBuf = b.emitBuf := by
  unfold advanceRow
  split
  · rfl
  · rename_i input _
    exact refill_emitBuf m { b with input := input }

theorem next_emitBuf (b : HostContextBridge) : (b.next env m).2.emitBuf = b.emitBuf := by
  unfold next
  split
  · rfl
  · dsimp only
    split_ifs
    · exact advanceRow_emitBuf m b
    · exact refill_emitBuf m { b with started := true }
    · rfl

theorem connection_noOutput (env : Env) (b : HostContextBridge) (name : String) :
    (b.connection env name).2.emitBuf = b.emitBuf ∧
      NoOutput b.world (b.connection env name).2.world := by
  have hreq := @connRequester_rel env NoOutput name _
    (NoOutput.request env (b.world.proto.importConnectionRequest name) b.world)
  unfold connection
  split <;> rename_i hr <;> rw [hr] at hreq <;> exact ⟨rfl, hreq⟩

theorem pushOutputRow_eq (b : HostContextBridge) (row : List Value) :
    b.pushOutputRow env m row =
      (let r := b.emitBuf.pushOutputRow env.toExtern m.outputColumns b.input.currentRowNumber
        (emitFlusher env) row b.world
      (r.1, { b with emitBuf := r.2.1, world := r.2.2 })) := by
  unfold pushOutputRow EmitBuffer.pushOutputRow
  cases checkOutputRow env.toExtern row m.outputColumns with
  | error e => rfl
  | ok rowCost =>
    dsimp only
    split_ifs <;> rfl

/-- Since `L` the rows `A` have been accepted, and the bridge has handed over or holds the rows
`all`. -/
def Holds (env : Env) (m : UdfMeta) (L : List Event) (A all : List WireRow)
    (b : HostContextBridge) : Prop :=
  Keeps env.toExtern m.outputColumns L A all b.emitBuf b.world

/-- Between calls the bridge owes what it has accepted, no more and no less. -/
def Owes (env : Env) (m : UdfMeta) (L : List Event) (b : HostContextBridge) : Prop :=
  ∃ A, b.Holds env m L A A

variable {m}

theorem Holds.noOutput {b b' : HostContextBridge} (h : b.Holds env m L A A)
    (hbuf : b'.emitBuf = b.emitBuf) (hnone : NoOutput b.world b'.world) : b'.Holds env m L A A := by
  show Keeps _ _ L A A b'.emitBuf b'.world
  rw [hbuf]
  exact h.mono fun done hle hI => hI.noOutput hle hnone

theorem Owes.noOutput {b b' : HostContextBridge} (h : b.Owes env m L)
    (hbuf : b'.emitBuf = b.emitBuf) (hnone : NoOutput b.world b'.world) : b'.Owes env m L := by
  obtain ⟨A, h⟩ := h
  exact ⟨A, h.noOutput hbuf hnone⟩

theorem pushOutputRow_holds {b : HostContextBridge} (h : b.Holds env m L A A)
    (row : List Value) :
    (b.pushOutputRow env m row).2.Holds env m L A (A ++ onOk (b.pushOutputRow env m row).1
      [wireRow env.toExtern m.outputColumns b.input.currentRowNumber row]) := by
  rw [pushOutputRow_eq]
  exact h.pushed fun cs h => h.pushOutputRow _ (emitFlusher_delivers env) row

/-- **What a call accepts it hands over or holds.** -/
theorem answer_holds (hext : env.toExtern.Documented) {b : HostContextBridge}
    (h : b.Holds env m L A A) (op : CtxOp) :
    (b.answer env m op).2.Holds env m L A
      (A ++ (Event.call b.input.currentRowNumber op (b.answer env m op).1).acceptedRows
        env.toExtern m.outputColumns) := by
  have hnone : b.Holds env m L A (A ++ []) := (List.append_nil A).symm ▸ h
  -- Only the three calls that push rows, and those that exchange messages, need an argument.
  cases op with
  | get col => exact hnone
  | emit values =>
    show (b.emit env m values).2.Holds env m L A (A ++ onOk (b.emit env m values).1 _)
    unfold emit
    split_ifs
    · exact hnone
    · exact pushOutputRow_holds h values
  | setReturn value => exact pushOutputRow_holds h _
  | emitBatch imported =>
    cases imported with
    | error e =>
      show (b.emitRecordBatch env m (.error e)).2.Holds env m L A (A ++ [])
      unfold emitRecordBatch
      split_ifs <;> exact hnone
    | ok batch =>
      show (b.emitRecordBatch env m (.ok batch)).2.Holds env m L A
        (A ++ onOk (b.emitRecordBatch env m (.ok batch)).1 _)
      unfold emitRecordBatch
      split_ifs
      · exact hnone
      · exact h.pushed fun cs h => h.pushBatch _ hext (emitFlusher_delivers env) batch
  | next =>
    rw [show (Event.call b.input.currentRowNumber .next (b.answer env m .next).1).acceptedRows
      env.toExtern m.outputColumns = [] from rfl, List.append_nil]
    exact h.noOutput (next_emitBuf m b) (next_rel m (fetchRel_noOutput env) b)
  | connection name =>
    rw [show (Event.call b.input.currentRowNumber (.connection name)
      (b.answer env m (.connection name)).1).acceptedRows env.toExtern m.outputColumns = []
      from rfl, List.append_nil]
    obtain ⟨hbuf, hnone⟩ := connection_noOutput env b name
    exact h.noOutput hbuf hnone
  | rowsInGroup => exact hnone
  | outside recorded => exact hnone

/-- **A call** leaves the bridge owing what it has accepted. -/
theorem handle_owes (hext : env.toExtern.Documented) (op : CtxOp) (b : HostContextBridge)
    (h : b.Owes env m L) : (b.handle env m op).2.Owes env m L := by
  obtain ⟨A, h⟩ := h
  exact ⟨_, (answer_holds hext h op).mono fun done _ hI => hI.call _ op _⟩

theorem runOnce_owes (hext : env.toExtern.Documented) (udf : LoadedUdf) {b : HostContextBridge}
    (h : b.Owes env m L) : (runOnce env m udf b).2.Owes env m L := by
  refine runOnce_rule env m udf (I := Owes env m L) (Q := fun _ b => b.Owes env m L)
    (fun op b => handle_owes hext op b) (fun b res h => ?_) ?_
  · exact h.noOutput rfl (NoOutput.push rfl b.world)
  · exact h.noOutput rfl (NoOutput.push rfl b.world)

theorem driveGroupRows_owes (hext : env.toExtern.Documented) (udf : LoadedUdf)
    {b : HostContextBridge} (h : b.Owes env m L) : (driveGroupRows env m udf b).2.Owes env m L := by
  refine driveGroupRows_keeps env m udf (fun b hb => runOnce_owes hext udf hb) (fun b hb => ?_) h
  exact hb.noOutput (advanceRow_emitBuf m b) (advanceRow_rel m (fetchRel_noOutput env) b)

end HostContextBridge

/-! ### Groups -/

/-- A group that ends with everything sent. -/
def SentAll (env : Env) (m : UdfMeta) (L : List Event) (w : World) : Prop :=
  ∃ A, Handed env.toExtern m.outputColumns L A A w

/-- A group that has sent some of what it has accepted. -/
def SentSome (env : Env) (m : UdfMeta) (L : List Event) (w : World) : Prop :=
  ∃ A done, done <+: A ∧ Handed env.toExtern m.outputColumns L A done w

variable {m}

theorem SentAll.sentSome (h : SentAll env m L w) : SentSome env m L w := by
  obtain ⟨A, h⟩ := h
  exact ⟨A, A, List.prefix_rfl, h⟩

theorem SentAll.noOutput (h : SentAll env m L w) (hnone : NoOutput w w') : SentAll env m L w' := by
  obtain ⟨A, h⟩ := h
  exact ⟨A, h.noOutput List.prefix_rfl hnone⟩

theorem HostContextBridge.Owes.sentSome {b : HostContextBridge} (h : b.Owes env m L) :
    SentSome env m L b.world := by
  obtain ⟨A, h⟩ := h
  exact ⟨A, h.sentSome⟩

theorem endGroup_sentAll {fd : Feed} {buf : EmitBuffer}
    (h : Keeps env.toExtern m.outputColumns L A A buf fd.world) :
    SentSome env m L (endGroup env fd buf).2 ∧
      ((endGroup env fd buf).1 = .ok none → SentAll env m L (endGroup env fd buf).2) := by
  have hsome : SentSome env m L fd.world := ⟨A, h.sentSome⟩
  obtain ⟨done, hle, hflush, hok⟩ := tailFlush_handed env h
  unfold endGroup
  split
  · exact ⟨hsome, fun h => nomatch h⟩
  · exact ⟨hsome, fun h => nomatch h⟩
  · split <;> rename_i hr <;> rw [hr] at hflush hok
    · exact ⟨⟨A, done, hle, hflush⟩, fun h => nomatch h⟩
    · exact ⟨⟨A, done, hle, hflush⟩, fun _ => ⟨A, hok rfl ▸ hflush⟩⟩

/-- **A group sends what it accepts.** -/
theorem runGroup_sentAll (hext : env.toExtern.Documented) (udf : LoadedUdf)
    (h : SentAll env m L w) :
    SentSome env m L (runGroup env m udf w).2 ∧
      ((runGroup env m udf w).1 = .ok none → SentAll env m L (runGroup env m udf w).2) := by
  have hfirst := h.noOutput (firstNonemptyInput_rel m (fetchRel_noOutput env) ⟨w, none⟩)
  unfold runGroup
  split <;> rename_i hf <;> rw [hf] at hfirst
  · exact ⟨hfirst.sentSome, fun h => nomatch h⟩
  · obtain ⟨A, h⟩ := hfirst
    exact endGroup_sentAll (.new h)
  · rename_i input fd
    have hnew : (HostContextBridge.new fd input).Owes env m L := by
      obtain ⟨A, h⟩ := hfirst
      exact ⟨A, .new h⟩
    have hdrive := HostContextBridge.driveGroupRows_owes hext udf hnew
    split <;> rename_i hd <;> rw [hd] at hdrive
    · exact ⟨hdrive.sentSome, fun h => nomatch h⟩
    · obtain ⟨A, h⟩ := hdrive
      exact endGroup_sentAll h

/-! ### The groups of a history -/

def Frame.opensGroup (f : Frame) : Bool :=
  f.messageType == MessageType.mtRun.toI32

def Frame.closesGroup (f : Frame) : Bool :=
  f.messageType == MessageType.mtDone.toI32

/-- A history cut into groups. -/
structure Groups where
  /-- What happened between each `MT_RUN` and its `MT_DONE`. -/
  closed : List (List Event)
  /-- What has happened since an `MT_RUN` without its `MT_DONE`. -/
  current : Option (List Event)
  /-- Everything else. -/
  outside : List Event

namespace Groups

def empty : Groups := ⟨[], none, []⟩

/-- Add an event to the current group, if there is one. -/
def add (g : Groups) (e : Event) : Groups :=
  match g.current with
  | some G => { g with current := some (G ++ [e]) }
  | none => { g with outside := g.outside ++ [e] }

def step (g : Groups) (e : Event) : Groups :=
  match e with
  | .send f =>
    if f.opensGroup then ⟨g.closed, some [], g.outside ++ g.current.getD []⟩
    else if f.closesGroup then ⟨g.closed ++ g.current.toList, none, g.outside⟩
    else g.add e
  | e => g.add e

end Groups

def groupsOf (history : List Event) : Groups :=
  history.foldl Groups.step .empty

/-- An event that can happen within a group: it sends no `MT_RUN` and no `MT_DONE`, and no empty
`MT_EMIT`. -/
def Event.isInner : Event → Bool
  | .send (.emit r) => 0 < r.table.rows
  | .send f => !(f.opensGroup || f.closesGroup)
  | _ => true

theorem Groups.step_of_isInner {e : Event} (h : e.isInner = true) (g : Groups) :
    g.step e = g.add e := by
  cases e with
  | send f =>
    cases f with
    | emit r => rfl
    | request r =>
      simp only [Event.isInner, Bool.not_eq_true', Bool.or_eq_false_iff] at h
      simp only [Groups.step, h.1, h.2, Bool.false_eq_true, if_false]
  | _ => rfl

theorem Groups.foldl_inside {events : List Event} (h : ∀ e ∈ events, e.isInner = true)
    (closed : List (List Event)) (G outside : List Event) :
    events.foldl Groups.step ⟨closed, some G, outside⟩ = ⟨closed, some (G ++ events), outside⟩ := by
  -- Each event goes to the end of the open group.
  induction events generalizing G with
  | nil => rw [List.append_nil]; rfl
  | cons e events ih =>
    rw [List.foldl_cons, Groups.step_of_isInner (h e List.mem_cons_self)]
    have hrest := ih (fun e' he' => h e' (List.mem_cons_of_mem e he')) (G ++ [e])
    rwa [List.append_assoc] at hrest

theorem Groups.foldl_outside {events : List Event} (h : ∀ e ∈ events, e.isInner = true)
    (closed : List (List Event)) (outside : List Event) :
    events.foldl Groups.step ⟨closed, none, outside⟩ = ⟨closed, none, outside ++ events⟩ := by
  induction events generalizing outside with
  | nil => rw [List.append_nil]; rfl
  | cons e events ih =>
    rw [List.foldl_cons, Groups.step_of_isInner (h e List.mem_cons_self)]
    have hrest := ih (fun e' he' => h e' (List.mem_cons_of_mem e he')) (outside ++ [e])
    rwa [List.append_assoc] at hrest

/-- Each group sends what it accepts, once and in order. -/
structure ExactlyOnce (ext : Extern) (cols : List ColumnInfo) (history : List Event) : Prop where
  /-- A group that is over has sent exactly what it has accepted. -/
  closed : ∀ G ∈ (groupsOf history).closed, Acked G →
    sentRows cols G = some (acceptedRows ext cols G)
  /-- A group that goes on, or never ends, has sent the first rows of what it has accepted. -/
  current : ∀ G ∈ (groupsOf history).current, Acked G →
    ∃ sent, sentRows cols G = some sent ∧ sent <+: acceptedRows ext cols G
  outside : ∀ e ∈ (groupsOf history).outside, e.emitted? = none
  nonempty : ∀ table ∈ history.filterMap Event.emitted?, 0 < table.rows

theorem groupsOf_append (history events : List Event) :
    groupsOf (history ++ events) = events.foldl Groups.step (groupsOf history) :=
  List.foldl_append

theorem Event.nonempty_of_isInner {events : List Event} (h : ∀ e ∈ events, e.isInner = true) :
    ∀ table ∈ events.filterMap Event.emitted?, 0 < table.rows := by
  intro table htable
  obtain ⟨e, he, hemit⟩ := List.mem_filterMap.mp htable
  have hinner := h e he
  cases e with
  | send f =>
    cases f with
    | emit r =>
      obtain rfl := Option.some.inj hemit
      exact of_decide_eq_true hinner
    | request r => cases hemit
  | _ => cases hemit

namespace ExactlyOnce

variable {history : List Event}

theorem nil : ExactlyOnce ext cols [] where
  closed _ h := absurd h List.not_mem_nil
  current _ h := nomatch h
  outside _ h := absurd h List.not_mem_nil
  nonempty _ h := absurd h List.not_mem_nil

theorem nonempty_append (h : ExactlyOnce ext cols history) {events : List Event}
    (hevents : ∀ table ∈ events.filterMap Event.emitted?, 0 < table.rows) :
    ∀ table ∈ (history ++ events).filterMap Event.emitted?, 0 < table.rows := by
  intro table htable
  rw [List.filterMap_append, List.mem_append] at htable
  exact htable.elim (h.nonempty table) (hevents table)

/-- Between groups nothing is sent but messages without rows. -/
theorem between (h : ExactlyOnce ext cols history) (hcurrent : (groupsOf history).current = none)
    {events : List Event} (hevents : ∀ e ∈ events, e.isInner = true ∧ e.emitted? = none) :
    ExactlyOnce ext cols (history ++ events) ∧
      (groupsOf (history ++ events)).current = none := by
  have hinner : ∀ e ∈ events, e.isInner = true := fun e he => (hevents e he).1
  have hgroups : groupsOf (history ++ events)
      = ⟨(groupsOf history).closed, none, (groupsOf history).outside ++ events⟩ := by
    rw [groupsOf_append, ← Groups.foldl_outside hinner, ← hcurrent]
  refine ⟨⟨?_, ?_, ?_, h.nonempty_append (Event.nonempty_of_isInner hinner)⟩, ?_⟩
  · rw [hgroups]
    exact h.closed
  · rw [hgroups]
    exact fun _ h => nomatch h
  · rw [hgroups]
    intro e he
    exact (List.mem_append.mp he).elim (h.outside e) fun he => (hevents e he).2
  · rw [hgroups]

theorem openGroup (h : ExactlyOnce ext cols history) (hcurrent : (groupsOf history).current = none)
    {r : ExascriptRequest} (hr : (Frame.request r).opensGroup = true) :
    ExactlyOnce ext cols (history ++ [.send (.request r)]) ∧
      (groupsOf (history ++ [.send (.request r)])).current = some [] := by
  have hgroups : groupsOf (history ++ [.send (.request r)])
      = ⟨(groupsOf history).closed, some [], (groupsOf history).outside⟩ := by
    rw [groupsOf_append]
    simp [Groups.step, hr, hcurrent]
  refine ⟨⟨?_, ?_, ?_, h.nonempty_append fun _ h => absurd h List.not_mem_nil⟩, ?_⟩
  · rw [hgroups]
    exact h.closed
  · rw [hgroups]
    rintro G ⟨⟩ -
    exact ⟨[], rfl, List.nil_prefix⟩
  · rw [hgroups]
    exact h.outside
  · rw [hgroups]

theorem closeGroup (h : ExactlyOnce ext cols history) {G : List Event}
    (hcurrent : (groupsOf history).current = some G)
    (hexact : Acked G → sentRows cols G = some (acceptedRows ext cols G))
    {r : ExascriptRequest} (hr : (Frame.request r).opensGroup = false)
    (hr' : (Frame.request r).closesGroup = true) :
    ExactlyOnce ext cols (history ++ [.send (.request r)]) ∧
      (groupsOf (history ++ [.send (.request r)])).current = none := by
  have hgroups : groupsOf (history ++ [.send (.request r)])
      = ⟨(groupsOf history).closed ++ [G], none, (groupsOf history).outside⟩ := by
    rw [groupsOf_append]
    simp [Groups.step, hr, hr', hcurrent]
  refine ⟨⟨?_, ?_, ?_, h.nonempty_append fun _ h => absurd h List.not_mem_nil⟩, ?_⟩
  · rw [hgroups]
    intro G' hG'
    rcases List.mem_append.mp hG' with hG' | hG'
    · exact h.closed G' hG'
    · rw [List.mem_singleton.mp hG']
      exact hexact
  · rw [hgroups]
    exact fun _ h => nomatch h
  · rw [hgroups]
    exact h.outside
  · rw [hgroups]

theorem inside (h : ExactlyOnce ext cols history) (hcurrent : (groupsOf history).current = some [])
    {events : List Event} (hinner : ∀ e ∈ events, e.isInner = true)
    (hsome : Acked events →
      ∃ sent, sentRows cols events = some sent ∧ sent <+: acceptedRows ext cols events) :
    ExactlyOnce ext cols (history ++ events) ∧
      (groupsOf (history ++ events)).current = some events := by
  -- All events land in the group that has just been opened.
  have hgroups : groupsOf (history ++ events)
      = ⟨(groupsOf history).closed, some events, (groupsOf history).outside⟩ := by
    rw [groupsOf_append, ← List.nil_append events, ← Groups.foldl_inside hinner, ← hcurrent,
      List.nil_append]
  refine ⟨⟨?_, ?_, ?_, h.nonempty_append (Event.nonempty_of_isInner hinner)⟩, ?_⟩
  · rw [hgroups]
    exact h.closed
  · rw [hgroups]
    rintro G ⟨⟩
    exact hsome
  · rw [hgroups]
    exact h.outside
  · rw [hgroups]

end ExactlyOnce

/-! ### The run phase -/

/-- Since `base` the history has been as it should be. -/
def Exact (env : Env) (m : UdfMeta) (base : List Event) (w : World) : Prop :=
  ∃ history, w.log = base ++ history ∧ ExactlyOnce env.toExtern m.outputColumns history

/-- No group is open. -/
def Between (env : Env) (m : UdfMeta) (base : List Event) (w : World) : Prop :=
  ∃ history, w.log = base ++ history ∧ ExactlyOnce env.toExtern m.outputColumns history ∧
    (groupsOf history).current = none

/-- The group that started at `L` is open. -/
def Open (env : Env) (m : UdfMeta) (base L : List Event) (w : World) : Prop :=
  ∃ history G, L = base ++ history ∧ w.log = L ++ G ∧
    ExactlyOnce env.toExtern m.outputColumns history ∧ (groupsOf history).current = some [] ∧
    ∀ e ∈ G, e.isInner = true

theorem Event.isInner_of_isPassing {e : Event} (h : e.isPassing = true) :
    e.isInner = true ∧ e.emitted? = none := by
  cases e with
  | send f =>
    cases f with
    | emit r => cases h
    | request r =>
      have htype : r.type = pingType := by simpa [Event.isPassing, Frame.messageType] using h
      refine ⟨?_, rfl⟩
      simp only [Event.isInner, Frame.opensGroup, Frame.closesGroup, Frame.messageType, htype]
      decide
  | recv r => exact ⟨rfl, rfl⟩
  | _ => cases h

/-- An event of a group: it is not about `MT_RUN` or `MT_DONE`, and no `MT_EMIT` is empty. -/
def Event.isWithin : Event → Bool
  | .answered f _ => !(f.opensGroup || f.closesGroup)
  | e => e.isInner

theorem Event.isInner_of_isWithin {e : Event} (h : e.isWithin = true) : e.isInner = true := by
  cases e <;> first | rfl | exact h

theorem Event.isWithin_of_isPassing {e : Event} (h : e.isPassing = true) : e.isWithin = true := by
  cases e with
  | send f => exact (Event.isInner_of_isPassing h).1
  | recv r => rfl
  | _ => cases h

theorem groupRel_within (env : Env) :
    GroupRel env fun fd fd' => World.Adds (fun e => e.isWithin = true) fd.world fd'.world where
  refl _ := World.Adds.refl _
  trans := World.Adds.trans
  next fd := by
    rw [Feed.fetchStep_world]
    exact World.Adds.request (by rfl) (fun _ => rfl) (fun _ => Event.isWithin_of_isPassing) fd.world
  emit fd table hrows :=
    World.Adds.request (decide_eq_true hrows) (fun _ => rfl) (fun _ => Event.isWithin_of_isPassing)
      fd.world
  lookup fd name :=
    World.Adds.request (by rfl) (fun _ => rfl) (fun _ => Event.isWithin_of_isPassing) fd.world
  note fd e he := World.Adds.push (by cases e <;> first | rfl | cases he) fd.world

variable {base : List Event}

/-- `MT_RUN` opens a group. -/
theorem Between.open (h : Between env m base w) {res : Except RuntimeError HostEvent}
    (hreq : w.request env (.request w.proto.runRequest) = (res, w')) :
    (w' = w ∧ ∃ e, res = .error e) ∨ ∃ L, Open env m base L w' ∧ SentAll env m L w' := by
  have hspec := World.request_spec env (.request w.proto.runRequest) w
  rw [hreq] at hspec
  cases hspec with
  | stuck e => exact .inl ⟨rfl, e, rfl⟩
  | @answered events res w' hlive hwait hlog =>
    right
    obtain ⟨history, hbase, hexact, hcurrent⟩ := h
    obtain ⟨hopen, hcurrent⟩ := hexact.openGroup hcurrent (r := w.proto.runRequest) (by rfl)
    -- Between the `MT_RUN` and its answer there are replies to pings only.
    have hinner : ∀ e ∈ events ++ [.answered (.request w.proto.runRequest) res],
        e.isInner = true := by
      intro e he
      rcases List.mem_append.mp he with he | he
      · exact (Event.isInner_of_isPassing (hwait.isPassing e he)).1
      · rw [List.mem_singleton.mp he]
        rfl
    have hnone : ∀ e ∈ events ++ [.answered (.request w.proto.runRequest) res],
        e.isOutput = false := by
      intro e he
      rcases List.mem_append.mp he with he | he
      · exact Event.not_isOutput_of_isPassing (hwait.isPassing e he)
      · rw [List.mem_singleton.mp he]
        rfl
    have hlog' : w'.log = (base ++ (history ++ [.send (.request w.proto.runRequest)]))
        ++ (events ++ [.answered (.request w.proto.runRequest) res]) := by
      rw [hlog, hbase]
      simp
    obtain ⟨haccepted, hsent⟩ := silent_of_isOutput env.toExtern m.outputColumns hnone
    exact ⟨_, ⟨_, _, rfl, hlog', hopen, hcurrent, hinner⟩, [], _, hlog', haccepted,
      fun _ => ⟨[], hsent, fun _ => rfl, fun _ => List.prefix_rfl⟩⟩

theorem Open.adds (h : Open env m base L w)
    (hadds : World.Adds (fun e => e.isWithin = true) w w') : Open env m base L w' := by
  obtain ⟨history, G, hL, hlog, hexact, hcurrent, hinner⟩ := h
  obtain ⟨events, hlog', hevents⟩ := hadds
  refine ⟨history, G ++ events, hL, by rw [hlog', hlog, List.append_assoc], hexact, hcurrent, ?_⟩
  intro e he
  exact (List.mem_append.mp he).elim (hinner e) fun he => Event.isInner_of_isWithin (hevents e he)

/-- A group that stays open. -/
theorem Open.exact (h : Open env m base L w) (hsome : SentSome env m L w) :
    Exact env m base w := by
  obtain ⟨history, G, rfl, hlog, hexact, hcurrent, hinner⟩ := h
  obtain ⟨A, done, hle, G', hlog', hA, hsent⟩ := hsome
  -- The part of the history that `hsome` speaks of is the open group.
  obtain rfl : G' = G := List.append_cancel_left (hlog'.symm.trans hlog)
  refine ⟨history ++ G', by rw [hlog, List.append_assoc],
    (hexact.inside hcurrent hinner fun hacked => ?_).1⟩
  obtain ⟨sent, hrows, hlive, hdead⟩ := hsent hacked
  refine ⟨sent, hrows, ?_⟩
  rw [hA]
  cases hd : w.dead with
  | false => exact hlive hd ▸ hle
  | true => exact hdead hd

/-- `MT_DONE` closes a group. -/
theorem Open.close (h : Open env m base L w) (hall : SentAll env m L w)
    {res : Except RuntimeError HostEvent}
    (hreq : w.request env (.request w.proto.doneRequest) = (res, w')) :
    (w' = w ∧ ∃ e, res = .error e) ∨ Between env m base w' := by
  have hspec := World.request_spec env (.request w.proto.doneRequest) w
  rw [hreq] at hspec
  cases hspec with
  | stuck e => exact .inl ⟨rfl, e, rfl⟩
  | @answered events res w' hlive hwait hlog =>
    right
    obtain ⟨history, G, rfl, hG, hexact, hcurrent, hinner⟩ := h
    obtain ⟨A, G', hG', hA, hsent⟩ := hall
    obtain rfl : G' = G := List.append_cancel_left (hG'.symm.trans hG)
    have hall : Acked G' →
        sentRows m.outputColumns G' = some (acceptedRows env.toExtern m.outputColumns G') := by
      intro hacked
      obtain ⟨sent, hrows, hdone, -⟩ := hsent hacked
      rw [hrows, hdone hlive, hA]
    -- First the group is filled with its events, then it is closed by the message.
    obtain ⟨hgroup, hopen⟩ := hexact.inside hcurrent hinner fun hacked =>
      ⟨_, hall hacked, List.prefix_rfl⟩
    obtain ⟨hclosed, hnone⟩ := hgroup.closeGroup hopen hall (r := w.proto.doneRequest)
      (by rfl) (by rfl)
    have hrest : ∀ e ∈ events ++ [.answered (.request w.proto.doneRequest) res],
        e.isInner = true ∧ e.emitted? = none := by
      intro e he
      rcases List.mem_append.mp he with he | he
      · exact Event.isInner_of_isPassing (hwait.isPassing e he)
      · rw [List.mem_singleton.mp he]
        exact ⟨rfl, rfl⟩
    obtain ⟨hbetween, hnone⟩ := hclosed.between hnone hrest
    refine ⟨_, ?_, hbetween, hnone⟩
    rw [hlog, hG]
    simp

/-- **Exactly-once output.**  What a group sends between its `MT_RUN` and its `MT_DONE` is what it
accepts, in order and each row once, if the database answers every `MT_EMIT` by `MT_EMIT`: whatever
the UDF calls and however the rows fall into batches and flushes.  Nothing is sent outside of the
groups, and no `MT_EMIT` is empty. -/
theorem runUdf_exactlyOnce (hext : env.toExtern.Documented) (m : UdfMeta) (udf : LoadedUdf)
    (w : World) :
    ∃ history, (runUdf env m udf w).2.log = w.log ++ history ∧
      ExactlyOnce env.toExtern m.outputColumns history := by
  -- The invariant of the loop: between groups, each group so far has sent what it accepted.
  refine (runUdfLoop env m udf).run_elim (P := Between env m w.log)
    (Q := fun r => Exact env m w.log r.2) (fun w₀ hw₀ => ?_)
    ⟨[], (List.append_nil _).symm, .nil, rfl⟩
  show (runUdfStep env m udf w₀).elim _ _
  have hidle : Exact env m w.log w₀ := by
    obtain ⟨history, hlog, hexact, -⟩ := hw₀
    exact ⟨history, hlog, hexact⟩
  unfold runUdfStep
  rcases hrun : w₀.request env (.request w₀.proto.runRequest) with ⟨res, w₁⟩
  obtain ⟨rfl, e, rfl⟩ | ⟨L, hopen, hall⟩ := hw₀.open hrun
  · exact hidle
  have hearly : Exact env m w.log w₁ := hopen.exact hall.sentSome
  split <;> rename_i hr <;> cases hr
  · exact hearly
  · exact hearly
  · exact hearly
  have hgroup := runGroup_sentAll hext udf hall
  have hadds := hopen.adds (runGroup_rel (groupRel_within env) m udf w₁)
  -- A group that fails or ends the session stays open.
  split <;> rename_i hg <;> rw [hg] at hgroup hadds
  · exact hadds.exact hgroup.1
  · exact hadds.exact hgroup.1
  rename_i w₂
  rcases hdone : w₂.request env (.request w₂.proto.doneRequest) with ⟨res, w₃⟩
  obtain ⟨rfl, e, rfl⟩ | hbetween := hadds.close (hgroup.2 rfl) hdone
  · exact hadds.exact hgroup.1
  have hidle : Exact env m w.log w₃ := by
    obtain ⟨history, hlog, hexact, -⟩ := hbetween
    exact ⟨history, hlog, hexact⟩
  split <;> rename_i hr <;> cases hr
  · exact hidle
  · exact hidle
  · exact hidle
  · exact hbetween

/-- A UDF that emits a row for each of two input rows. -/
theorem runUdf_exactlyOnce_sample :
    let udf := LoadedUdf.emitting fun _ => .call (.emit [.int32 7]) fun _ => .done ⟨0, ""⟩
    let w := World.running [.ofType .mtRun, batchResponse [1, 2], .ofType .mtDone,
      .ofType .mtEmit, .ofType .mtDone, .ofType .mtCleanup]
    ∃ history, (runUdf (.reference udf) (integerMeta 1 2) udf w).2.log = w.log ++ history ∧
      ExactlyOnce .reference (integerMeta 1 2).outputColumns history := by
  intro udf w
  exact runUdf_exactlyOnce Extern.reference_documented (integerMeta 1 2) udf w

/-! ### Nothing accepted is lost -/

/-- `MT_CLEANUP` as the answer to `MT_RUN` or `MT_DONE`. -/
def Event.endsSession : Event → Bool
  | .answered f (.ok .cleanup) => f.opensGroup || f.closesGroup
  | _ => false

/-- The database has ended the session at a group boundary. -/
def EndedByCleanup (log : List Event) : Prop :=
  ∃ e, log.getLast? = some e ∧ e.endsSession = true

/-- Every row of a call that returned `Ok` has been in an `MT_EMIT` that was answered by
`MT_EMIT`. -/
def Delivered (ext : Extern) (cols : List ColumnInfo) (history : List Event) : Prop :=
  ∃ acked, ackedRows cols history = some acked ∧ (acceptedRows ext cols history).Subperm acked

theorem World.request_ok {f : Frame} {event : HostEvent}
    (h : w.request env f = (.ok event, w')) :
    w'.dead = false ∧ w'.log.getLast? = some (.answered f (.ok event)) := by
  have hspec := World.request_spec env f w
  rw [h] at hspec
  cases hspec with
  | answered hlive hwait hlog =>
    refine ⟨hwait.live_of_ok, ?_⟩
    rw [hlog, ← List.cons_append, ← List.append_assoc]
    exact List.getLast?_concat

theorem Event.endsSession_of_isWithin {e : Event} (h : e.isWithin = true) :
    e.endsSession = false := by
  unfold endsSession
  split
  · simpa [isWithin] using h
  · rfl

/-- A group does not end the session at its boundary. -/
theorem World.Adds.not_endedByCleanup (hadds : World.Adds (fun e => e.isWithin = true) w w')
    (h : ¬ EndedByCleanup w.log) : ¬ EndedByCleanup w'.log := by
  obtain ⟨events, hlog, hevents⟩ := hadds
  rintro ⟨e, hlast, hends⟩
  rw [hlog, List.getLast?_append] at hlast
  -- The last event is an old one, or one of the group, which is never at a boundary.
  cases hevent : events.getLast? with
  | none =>
    rw [hevent] at hlast
    exact h ⟨e, hlast, hends⟩
  | some e' =>
    rw [hevent] at hlast
    obtain rfl : e' = e := Option.some.inj hlast
    rw [Event.endsSession_of_isWithin (hevents e' (List.mem_of_getLast? hevent))] at hends
    cases hends

/-- Every `MT_EMIT` gets its answer. -/
theorem dispatchRel_acked (env : Env) : DispatchRel env fun w w' =>
    ∃ events, w'.log = w.log ++ events ∧
      (Acked events → events.filterMap Event.acked? = events.filterMap Event.emitted?) where
  refl w := ⟨[], (List.append_nil _).symm, fun _ => rfl⟩
  trans := by
    rintro a b c ⟨as, ha, hsa⟩ ⟨bs, hb, hsb⟩
    refine ⟨as ++ bs, by rw [hb, ha, List.append_assoc], fun hacked => ?_⟩
    rw [List.filterMap_append, List.filterMap_append, hsa hacked.of_append.1,
      hsb hacked.of_append.2]
  work f w _ := by
    have hspec := World.request_spec env f w
    generalize w.request env f = r at hspec
    cases hspec with
    | stuck => exact ⟨[], (List.append_nil _).symm, fun _ => rfl⟩
    | @answered events res w' _ hwait hlog =>
      refine ⟨_, hlog, fun hacked => ?_⟩
      have hnone : events.filterMap Event.acked? = [] ∧ events.filterMap Event.emitted? = [] := by
        refine ⟨List.filterMap_eq_nil_iff.mpr fun e he => ?_,
          List.filterMap_eq_nil_iff.mpr fun e he =>
            (Event.isInner_of_isPassing (hwait.isPassing e he)).2⟩
        have hpassing := hwait.isPassing e he
        cases e <;> first | rfl | cases hpassing
      have hsplit : ∀ pick : Event → Option EmitTable, events.filterMap pick = [] →
          (.send f :: (events ++ [.answered f res])).filterMap pick
            = (pick (.send f)).toList ++ (pick (.answered f res)).toList := by
        intro pick hpick
        rw [← List.singleton_append, List.filterMap_append, List.filterMap_append, hpick]
        cases hs : pick (.send f) <;> cases ha : pick (.answered f res) <;> simp [hs, ha]
      rw [hsplit _ hnone.1, hsplit _ hnone.2]
      -- An `MT_EMIT` is the only frame that counts, and `hacked` says how it was answered.
      cases f with
      | request r => rfl
      | emit r =>
        obtain rfl := hacked r res (by simp)
        rfl
  dispatchNote w e he := by
    refine ⟨[e], rfl, fun _ => ?_⟩
    cases e <;> first | rfl | cases he

/-- **Nothing accepted is lost** in a session that the database ends at a group boundary, if it
answers every `MT_EMIT` by `MT_EMIT`. -/
theorem runUdf_delivered (hext : env.toExtern.Documented) (m : UdfMeta) (udf : LoadedUdf)
    (w : World) {history : List Event}
    (hlog : (runUdf env m udf w).2.log = w.log ++ history)
    (hok : (runUdf env m udf w).1 = .ok ()) (hend : EndedByCleanup (runUdf env m udf w).2.log)
    (hacked : Acked history) : Delivered env.toExtern m.outputColumns history := by
  have hall : (runUdf env m udf w).1 = .ok () → EndedByCleanup (runUdf env m udf w).2.log →
      SentAll env m w.log (runUdf env m udf w).2 ∧ (runUdf env m udf w).2.dead = false := by
    -- The invariant: what has been accepted so far is sent. A session that does not end at a group
    -- boundary is ruled out by its last event.
    refine (runUdfLoop env m udf).run_elim (P := SentAll env m w.log)
      (Q := fun r => r.1 = .ok () → EndedByCleanup r.2.log →
        SentAll env m w.log r.2 ∧ r.2.dead = false) (fun w₀ hw₀ => ?_)
      ⟨[], [], (List.append_nil _).symm, rfl, fun _ =>
        ⟨[], rfl, fun _ => rfl, fun _ => List.prefix_rfl⟩⟩
    show (runUdfStep env m udf w₀).elim _ _
    have hrun := hw₀.noOutput (NoOutput.request env w₀.proto.runRequest w₀)
    unfold runUdfStep
    split <;> rename_i hr <;> rw [hr] at hrun
    · exact fun h => nomatch h
    · exact fun _ _ => ⟨hrun, (World.request_ok hr).1⟩
    · exact fun h => nomatch h
    rename_i event w₁ hcleanup _
    have hgroup := runGroup_sentAll hext udf hrun
    have hadds := runGroup_rel (groupRel_within env) m udf w₁
    have hopen : ¬ EndedByCleanup w₁.log := by
      rintro ⟨e, hlast, hends⟩
      rw [(World.request_ok hr).2] at hlast
      obtain rfl := Option.some.inj hlast
      cases event <;> first | exact hcleanup rfl | cases hends
    split <;> rename_i hg <;> rw [hg] at hgroup hadds
    · exact fun h => nomatch h
    · exact fun _ hend => absurd hend (hadds.not_endedByCleanup hopen)
    rename_i w₂
    have hdone := (hgroup.2 rfl).noOutput (NoOutput.request env w₂.proto.doneRequest w₂)
    split <;> rename_i hd <;> rw [hd] at hdone
    · exact fun h => nomatch h
    · exact fun _ _ => ⟨hdone, (World.request_ok hd).1⟩
    · exact fun h => nomatch h
    · exact hdone
  obtain ⟨⟨A, G, hG, hA, hsent⟩, hlive⟩ := hall hok hend
  obtain rfl : history = G := List.append_cancel_left (hlog.symm.trans hG)
  obtain ⟨sent, hrows, hdone, -⟩ := hsent hacked
  obtain ⟨events, hevents, hsame⟩ := (dispatchRel_acked env).runUdf m udf w
  obtain rfl : history = events := List.append_cancel_left (hlog.symm.trans hevents)
  refine ⟨sent, ?_, ?_⟩
  · rw [← hrows, ackedRows, sentRows, hsame hacked]
  · rw [hdone hlive, hA]

theorem eq_ok_of_isOk {ε : Type} {res : Except ε Unit} (h : res.isOk = true) : res = .ok () := by
  cases res with
  | error e => cases h
  | ok u => rfl

theorem EndedByCleanup.of_getLast? {log : List Event}
    (h : log.getLast?.any Event.endsSession = true) : EndedByCleanup log :=
  (Option.any_eq_true _ _).mp h

/-- The event is not an `MT_EMIT` answered by anything else than `MT_EMIT`. -/
def Event.isAcked : Event → Bool
  | .answered (.emit _) (.ok .emitAck) => true
  | .answered (.emit _) _ => false
  | _ => true

theorem Acked.of_all {log : List Event} (h : log.all Event.isAcked = true) : Acked log := by
  intro r res hmem
  have hacked := List.all_eq_true.mp h _ hmem
  unfold Event.isAcked at hacked
  split at hacked <;> simp_all

/-- A UDF that emits one row. -/
theorem runUdf_delivered_sample :
    let udf := LoadedUdf.emitting fun _ => .call (.emit [.int32 7]) fun _ => .done ⟨0, ""⟩
    let w := World.running [.ofType .mtRun, batchResponse [1], .ofType .mtDone, .ofType .mtEmit,
      .ofType .mtDone, .ofType .mtRun, .ofType .mtDone, .ofType .mtCleanup]
    let env := Env.reference udf
    ∃ history, (runUdf env (integerMeta 1 2) udf w).2.log = w.log ++ history ∧
      Delivered env.toExtern (integerMeta 1 2).outputColumns history := by
  intro udf w env
  have hok : (runUdf env (integerMeta 1 2) udf w).1.isOk = true := by decide +kernel
  have hlast : (runUdf env (integerMeta 1 2) udf w).2.log.getLast?.any Event.endsSession
      = true := by
    decide +kernel
  have hacked : (runUdf env (integerMeta 1 2) udf w).2.log.all Event.isAcked = true := by
    decide +kernel
  have hlog : (runUdf env (integerMeta 1 2) udf w).2.log
      = w.log ++ (runUdf env (integerMeta 1 2) udf w).2.log := by
    rw [show w.log = [] from rfl, List.nil_append]
  exact ⟨_, hlog, runUdf_delivered Extern.reference_documented (integerMeta 1 2) udf w hlog
    (eq_ok_of_isOk hok) (.of_getLast? hlast) (.of_all hacked)⟩

/-- The database answers the group's `MT_EMIT` by `MT_TRY_AGAIN`, and the row is gone. -/
theorem runUdf_not_delivered :
    ¬ ∀ (env : Env), env.toExtern.Documented → ∀ (m : UdfMeta) (udf : LoadedUdf) (w : World)
      (history : List Event), (runUdf env m udf w).2.log = w.log ++ history →
      (runUdf env m udf w).1 = .ok () → EndedByCleanup (runUdf env m udf w).2.log →
      Delivered env.toExtern m.outputColumns history := by
  intro hclaim
  let udf := LoadedUdf.emitting fun _ => .call (.emit [.int32 7]) fun _ => .done ⟨0, ""⟩
  let w := World.running [.ofType .mtRun, batchResponse [1], .ofType .mtDone, .ofType .mtTryAgain,
    .ofType .mtCleanup]
  let env := Env.reference udf
  have hok : (runUdf env (integerMeta 1 2) udf w).1.isOk = true := by decide +kernel
  have hlast : (runUdf env (integerMeta 1 2) udf w).2.log.getLast?.any Event.endsSession
      = true := by
    decide +kernel
  have hlost : ackedRows (integerMeta 1 2).outputColumns
      (runUdf env (integerMeta 1 2) udf w).2.log = some [] := by decide +kernel
  have haccepted : (acceptedRows env.toExtern (integerMeta 1 2).outputColumns
      (runUdf env (integerMeta 1 2) udf w).2.log).length = 1 := by decide +kernel
  have hlog : (runUdf env (integerMeta 1 2) udf w).2.log
      = w.log ++ (runUdf env (integerMeta 1 2) udf w).2.log := by
    rw [show w.log = [] from rfl, List.nil_append]
  obtain ⟨acked, hacked, hsub⟩ := hclaim env Extern.reference_documented (integerMeta 1 2) udf w _
    hlog (eq_ok_of_isOk hok) (.of_getLast? hlast)
  obtain rfl := Option.some.inj (hlost.symm.trans hacked)
  have hlen := hsub.length_le
  rw [haccepted] at hlen
  cases hlen

end ExaUdf
