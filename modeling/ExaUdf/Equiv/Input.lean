import ExaUdf.Equiv.Dispatch
import ExaUdf.Equiv.InputRows

/-!
# The input of a group in its history

The batches that a group has received are the answers to its `MT_NEXT`s.  `received` are their rows,
one batch after the other, and `receivedNumbers` the row numbers that the database gave to them.

`Feed.fetch_spec` says what fetching leaves in the history.  `Loaded` ties the rows under the cursor
to the last batch received, so that a position in the batch is a position among all rows
(`Loaded.row`, `Loaded.number`).
-/

namespace ExaUdf

variable {env : Env} {m : UdfMeta}

/-! ### Batches -/

def Frame.asksNext (f : Frame) : Bool :=
  f.messageType == MessageType.mtNext.toI32

/-- The batch that an answer to `MT_NEXT` brings. -/
def Event.batch? : Event → Option ExascriptTableData
  | .answered f (.ok (.nextData table)) => if f.asksNext then some table else none
  | _ => none

def batchesOf (events : List Event) : List ExascriptTableData :=
  events.filterMap Event.batch?

namespace InputRowSet

def rowCells (rs : InputRowSet) (idx : Nat) : List Value :=
  (rs.cells.drop (idx * rs.nCols)).take rs.nCols

def rows (rs : InputRowSet) : List (List Value) :=
  (List.range rs.nRows).map rs.rowCells

end InputRowSet

/-- The batch decodes. -/
def Decodes (env : Env) (m : UdfMeta) (table : ExascriptTableData) : Bool :=
  (InputRowSet.decode env.toExtern table m.inputColumns).isOk

/-- The rows of a batch; none if it does not decode. -/
def tableCells (env : Env) (m : UdfMeta) (table : ExascriptTableData) : List (List Value) :=
  match InputRowSet.decode env.toExtern table m.inputColumns with
  | .ok rs => rs.rows
  | .error _ => []

/-- The numbers that the database has given to the rows of a batch. -/
def tableNumbers (table : ExascriptTableData) : List UInt64 :=
  table.rowNumber.take table.rows

/-- The batches that have been loaded. -/
def loads (env : Env) (m : UdfMeta) (events : List Event) : List ExascriptTableData :=
  (batchesOf events).filter (Decodes env m)

/-- The rows received, batch after batch. -/
def received (env : Env) (m : UdfMeta) (events : List Event) : List (List Value) :=
  (loads env m events).flatMap (tableCells env m)

/-- The row numbers received, batch after batch. -/
def receivedNumbers (env : Env) (m : UdfMeta) (events : List Event) : List UInt64 :=
  (loads env m events).flatMap tableNumbers

/-- Every batch decodes. -/
def Intact (env : Env) (m : UdfMeta) (events : List Event) : Prop :=
  ∀ table ∈ batchesOf events, Decodes env m table = true

/-- Every batch has a number for each of its rows. -/
def Numbered (events : List Event) : Prop :=
  ∀ table ∈ batchesOf events, table.rows ≤ table.rowNumber.length

theorem batchesOf_append (as bs : List Event) :
    batchesOf (as ++ bs) = batchesOf as ++ batchesOf bs :=
  List.filterMap_append

theorem loads_append (as bs : List Event) :
    loads env m (as ++ bs) = loads env m as ++ loads env m bs := by
  rw [loads, batchesOf_append, List.filter_append]
  rfl

theorem received_append (as bs : List Event) :
    received env m (as ++ bs) = received env m as ++ received env m bs := by
  rw [received, loads_append, List.flatMap_append]
  rfl

theorem Intact.of_append {as bs : List Event} (h : Intact env m (as ++ bs)) : Intact env m as :=
  fun table ht => h table (batchesOf_append as bs ▸ List.mem_append_left _ ht)

theorem Numbered.of_append {as bs : List Event} (h : Numbered (as ++ bs)) : Numbered as :=
  fun table ht => h table (batchesOf_append as bs ▸ List.mem_append_left _ ht)

theorem batchesOf_of_none {events : List Event} (h : ∀ e ∈ events, e.batch? = none) :
    batchesOf events = [] :=
  List.filterMap_eq_nil_iff.mpr h

theorem loads_of_none {events : List Event} (h : batchesOf events = []) :
    loads env m events = [] := by
  rw [loads, h]
  rfl

theorem InputRowSet.length_rows (rs : InputRowSet) : rs.rows.length = rs.nRows := by
  rw [rows, List.length_map, List.length_range]

/-- Reading the row under the cursor. -/
theorem InputRowSet.currentRowCells_eq {rs : InputRowSet}
    (hcells : rs.cells.length = rs.nRows * rs.nCols) (hcursor : rs.currentRow < rs.nRows) :
    rs.currentRowCells = some (rs.rowCells rs.currentRow) := by
  have hlen : rs.currentRow * rs.nCols + rs.nCols ≤ rs.cells.length := by
    rw [hcells]
    calc rs.currentRow * rs.nCols + rs.nCols = (rs.currentRow + 1) * rs.nCols := by
          rw [Nat.add_mul, Nat.one_mul]
      _ ≤ rs.nRows * rs.nCols := Nat.mul_le_mul_right _ hcursor
  unfold currentRowCells row
  rw [if_pos hcursor, if_pos hlen]
  rfl

theorem length_tableCells {table : ExascriptTableData} (h : Decodes env m table = true) :
    (tableCells env m table).length = table.rows := by
  unfold Decodes at h
  unfold tableCells
  split
  · rename_i rs hrs
    rw [rs.length_rows, (InputRowSet.decode_ok hrs).1]
  · rename_i e he
    rw [he] at h
    cases h

theorem length_flatMap_tableCells {tables : List ExascriptTableData}
    (h : ∀ table ∈ tables, Decodes env m table = true) :
    (tables.flatMap (tableCells env m)).length = (tables.map ExascriptTableData.rows).sum := by
  rw [List.length_flatMap]
  exact congrArg List.sum (List.map_congr_left fun table ht => length_tableCells (h table ht))

theorem length_flatMap_tableNumbers {tables : List ExascriptTableData}
    (h : ∀ table ∈ tables, table.rows ≤ table.rowNumber.length) :
    (tables.flatMap tableNumbers).length = (tables.map ExascriptTableData.rows).sum := by
  rw [List.length_flatMap]
  refine congrArg List.sum (List.map_congr_left fun table ht => ?_)
  rw [tableNumbers, List.length_take, Nat.min_eq_left (h table ht)]

theorem decodes_of_mem_loads {G : List Event} {table : ExascriptTableData}
    (h : table ∈ loads env m G) : Decodes env m table = true :=
  (List.mem_filter.mp h).2

theorem length_received (G : List Event) :
    (received env m G).length = ((loads env m G).map ExascriptTableData.rows).sum :=
  length_flatMap_tableCells fun _ => decodes_of_mem_loads

theorem length_received_le {G events : List Event} :
    (received env m G).length ≤ (received env m (G ++ events)).length := by
  rw [received_append, List.length_append]
  exact Nat.le_add_right _ _

/-- Events that bring no batch bring no rows. -/
theorem received_idle {G events : List Event} (hnone : batchesOf events = []) :
    received env m (G ++ events) = received env m G := by
  rw [received_append, received, received, loads_of_none hnone]
  exact List.append_nil _

section Undecodable

variable {G events : List Event} {table : ExascriptTableData} {e : UdfError}

theorem decodes_of_error
    (h : InputRowSet.decode env.toExtern table m.inputColumns = .error e) :
    Decodes env m table = false := by
  unfold Decodes
  rw [h]
  rfl

/-- A batch that does not decode is not loaded. -/
theorem loads_undecodable
    (hdecode : InputRowSet.decode env.toExtern table m.inputColumns = .error e)
    (hbatch : batchesOf events = [table]) : loads env m (G ++ events) = loads env m G := by
  have hnone : loads env m events = [] := by
    rw [loads, hbatch, List.filter_singleton, decodes_of_error hdecode]
    rfl
  rw [loads_append, hnone, List.append_nil]

theorem received_undecodable
    (hdecode : InputRowSet.decode env.toExtern table m.inputColumns = .error e)
    (hbatch : batchesOf events = [table]) :
    received env m (G ++ events) = received env m G := by
  rw [received, loads_undecodable hdecode hbatch]
  rfl

theorem not_intact (hdecode : InputRowSet.decode env.toExtern table m.inputColumns = .error e)
    (hbatch : batchesOf events = [table]) : ¬ Intact env m (G ++ events) := by
  intro hintact
  have hmem : table ∈ batchesOf (G ++ events) := by
    rw [batchesOf_append, hbatch]
    exact List.mem_append_right _ (List.mem_singleton.mpr rfl)
  have hdecodes := hintact table hmem
  rw [decodes_of_error hdecode] at hdecodes
  cases hdecodes

end Undecodable

/-! ### Fetching -/

theorem Event.batch?_of_isPassing {e : Event} (h : e.isPassing = true) : e.batch? = none := by
  cases e <;> first | rfl | cases h

/-- An exchange leaves nothing, on a stuck socket, or ends with its answer and brings no batch
before. -/
theorem World.request_events (env : Env) (f : Frame) (w : World) :
    ∃ before after, (w.request env f).2.log = w.log ++ (before ++ after) ∧
      (∀ e ∈ before ++ after, e.isNote = false) ∧ batchesOf before = [] ∧
      (after = [.answered f (w.request env f).1] ∨
        after = [] ∧ (w.request env f).2.dead = true ∧ ∃ e, (w.request env f).1 = .error e) := by
  have hspec := World.request_spec env f w
  generalize w.request env f = r at hspec
  cases hspec with
  | stuck e hdead =>
    exact ⟨[], [], (List.append_nil _).symm, (fun _ h => nomatch h), rfl, .inr ⟨rfl, hdead, e, rfl⟩⟩
  | @answered events res w' _ hwait hlog =>
    refine ⟨.send f :: events, [.answered f res], hlog, fun e he => ?_, ?_, .inl rfl⟩
    · simp only [List.cons_append, List.mem_cons, List.mem_append, List.not_mem_nil, or_false] at he
      rcases he with rfl | he | rfl
      · rfl
      · have hpassing := hwait.isPassing e he
        cases e <;> first | rfl | cases hpassing
      · rfl
    · refine batchesOf_of_none fun e he => ?_
      rcases List.mem_cons.mp he with rfl | he
      · rfl
      · exact Event.batch?_of_isPassing (hwait.isPassing e he)

/-- An exchange that does not ask for a batch brings none. -/
theorem World.request_quiet (env : Env) {f : Frame} (hf : f.asksNext = false) (w : World) :
    World.Adds (fun e => e.isNote = false ∧ e.batch? = none) w (w.request env f).2 := by
  refine World.Adds.request (P := fun e => e.isNote = false ∧ e.batch? = none) ⟨rfl, rfl⟩
    (fun res => ⟨rfl, ?_⟩) (fun e he => ⟨?_, Event.batch?_of_isPassing he⟩) w
  · obtain e | event := res
    · rfl
    · cases event <;> first | rfl | exact if_neg (by rw [hf]; exact Bool.false_ne_true)
  · cases e <;> first | rfl | cases he

/-- Flushing and looking up bring no batch. -/
theorem writeRel_quiet (env : Env) :
    Feed.WriteRel env fun fd fd' =>
      World.Adds (fun e => e.isNote = false ∧ e.batch? = none) fd.world fd'.world where
  refl fd := World.Adds.refl fd.world
  trans := World.Adds.trans
  emit fd table _ :=
    have hother : (MessageType.mtEmit.toI32 == MessageType.mtNext.toI32) = false := by decide
    World.request_quiet env (f := .emit (fd.world.proto.emitRequest table)) hother fd.world
  lookup fd name :=
    have hother : (MessageType.mtImport.toI32 == MessageType.mtNext.toI32) = false := by decide
    World.request_quiet env (f := .request (fd.world.proto.importConnectionRequest name)) hother
      fd.world

/-- An answer that ends the input of a group. -/
def HostEvent.endsInput : HostEvent → Bool
  | .done | .cleanup | .close _ => true
  | _ => false

namespace Feed

/-- The events of fetching a batch: the last answer to `MT_NEXT` decides, and the ones before it
bring no batch. -/
def Fetched (events : List Event) (w : World) : Except UdfError (Option ExascriptTableData) → Prop
  | .ok (some table) => batchesOf events = [table]
  | .ok none => batchesOf events = [] ∧
    ∃ f event, events.getLast? = some (.answered f (.ok event)) ∧
      f.asksNext = true ∧ event.endsInput = true
  | .error _ => batchesOf events = [] ∧
    (w.dead = true ∨ ∃ f e, Event.answered f (.error e) ∈ events ∧ f.asksNext = true)

theorem Fetched.prepend {before events : List Event} {w : World}
    {res : Except UdfError (Option ExascriptTableData)} (hbefore : batchesOf before = [])
    (h : Fetched events w res) : Fetched (before ++ events) w res := by
  have hbatches : batchesOf (before ++ events) = batchesOf events := by
    rw [batchesOf_append, hbefore, List.nil_append]
  rcases res with e | (- | table)
  · obtain ⟨hnone, hdead | ⟨f, err, hmem, hasks⟩⟩ := h
    · exact ⟨hbatches.trans hnone, .inl hdead⟩
    · exact ⟨hbatches.trans hnone, .inr ⟨f, err, List.mem_append_right _ hmem, hasks⟩⟩
  · obtain ⟨hnone, f, event, hlast, hanswer⟩ := h
    refine ⟨hbatches.trans hnone, f, event, ?_, hanswer⟩
    rw [List.getLast?_append, hlast, Option.some_or]
  · exact hbatches.trans h

theorem fetchStep_spec (env : Env) (fd : Feed) :
    ∃ events, ((fd.fetchStep env).elim Prod.snd id).world.log = fd.world.log ++ events ∧
      (∀ e ∈ events, e.isNote = false) ∧
      (fd.fetchStep env).elim (fun r => Fetched events r.2.world r.1)
        fun _ => batchesOf events = [] := by
  have hasks : (Frame.request fd.world.proto.nextRequest).asksNext = true := by
    show (MessageType.mtNext.toI32 == MessageType.mtNext.toI32) = true
    exact beq_self_eq_true _
  obtain ⟨before, after, hlog, hwire, hbefore, hafter⟩ :=
    World.request_events env (.request fd.world.proto.nextRequest) fd.world
  rw [← fetchStep_world] at hlog
  refine ⟨before ++ after, hlog, hwire, ?_⟩
  have hworld := fetchStep_world env fd
  unfold fetchStep at hworld ⊢
  generalize fd.world.request env (.request fd.world.proto.nextRequest) = r at hafter hworld ⊢
  -- A failed exchange leaves no answer only where the socket was stuck before it.
  obtain ⟨e | event, w⟩ := r
  · refine ⟨?_, ?_⟩
    · rcases hafter with rfl | ⟨rfl, -⟩
      · rw [batchesOf_append, hbefore]
        rfl
      · rw [List.append_nil, hbefore]
    · rcases hafter with rfl | ⟨-, hdead, -⟩
      · exact .inr ⟨_, e, List.mem_append_right _ (List.mem_singleton.mpr rfl), hasks⟩
      · exact .inl hdead
  · obtain rfl : after = [.answered (.request fd.world.proto.nextRequest) (.ok event)] := by
      rcases hafter with rfl | ⟨-, -, e, he⟩
      · rfl
      · cases he
    have hbatches : batchesOf (before ++ [.answered (.request fd.world.proto.nextRequest)
        (.ok event)]) = (Event.batch? (.answered (.request fd.world.proto.nextRequest)
          (.ok event))).toList := by
      rw [batchesOf_append, hbefore, List.nil_append]
      unfold batchesOf
      rw [List.filterMap_cons]
      cases Event.batch? _ <;> rfl
    have hlast : (before ++ [Event.answered (.request fd.world.proto.nextRequest)
        (.ok event)]).getLast? = some (.answered (.request fd.world.proto.nextRequest)
          (.ok event)) := List.getLast?_concat
    cases event <;> first
      | exact hbatches
      | exact ⟨hbatches, _, _, hlast, hasks, rfl⟩

/-- **Fetching.** -/
theorem fetch_spec (env : Env) (fd : Feed) :
    ∃ events, (fd.fetch env).2.world.log = fd.world.log ++ events ∧
      (∀ e ∈ events, e.isNote = false) ∧
      Fetched events (fd.fetch env).2.world (fd.fetch env).1 := by
  refine (fetchLoop env).run_elim
    (P := fun fd' => ∃ events, fd'.world.log = fd.world.log ++ events ∧
      (∀ e ∈ events, e.isNote = false) ∧ batchesOf events = [])
    (Q := fun r => ∃ events, r.2.world.log = fd.world.log ++ events ∧
      (∀ e ∈ events, e.isNote = false) ∧ Fetched events r.2.world r.1) ?_
    ⟨[], (List.append_nil _).symm, (fun _ h => nomatch h), rfl⟩
  -- The rounds before the last one were answered by something else than a batch.
  rintro fd' ⟨before, hbefore, hwire, hnone⟩
  obtain ⟨events, hlog, hwire', hround⟩ := fetchStep_spec env fd'
  show (fd'.fetchStep env).elim _ _
  generalize fd'.fetchStep env = round at hlog hround
  have hall : ∀ e ∈ before ++ events, e.isNote = false := fun e he =>
    (List.mem_append.mp he).elim (hwire e) (hwire' e)
  have hlog' : ∀ log, log = fd'.world.log ++ events → log = fd.world.log ++ (before ++ events) := by
    rintro log rfl
    rw [hbefore, List.append_assoc]
  rcases round with ⟨res, fd''⟩ | fd''
  · exact ⟨before ++ events, hlog' _ hlog, hall, hround.prepend hnone⟩
  · refine ⟨before ++ events, hlog' _ hlog, hall, ?_⟩
    rw [batchesOf_append, hnone, hround]
    rfl

/-- Fetching, in a history that has grown by events on the wire so far. -/
theorem fetch_grows {fd fd' : Feed} {res : Except UdfError (Option ExascriptTableData)}
    (hf : fd.fetch env = (res, fd')) {L before : List Event} (hlog : fd.world.log = L ++ before)
    (hbefore : ∀ e ∈ before, e.isNote = false) :
    ∃ events, fd'.world.log = L ++ (before ++ events) ∧
      (∀ e ∈ before ++ events, e.isNote = false) ∧ Fetched events fd'.world res := by
  obtain ⟨events, hlog', hevents, hfetched⟩ := fetch_spec env fd
  rw [hf] at hlog' hfetched
  refine ⟨events, ?_, fun e he => (List.mem_append.mp he).elim (hbefore e) (hevents e), hfetched⟩
  rw [hlog', hlog, List.append_assoc]

end Feed

/-! ### The batch under the cursor -/

/-- The rows under the cursor are those of the last batch loaded, and `old` rows came before it.  If
every batch so far has decoded, so are their cells. -/
def Loaded (env : Env) (m : UdfMeta) (G : List Event) (old : Nat) (input : InputRowSet) : Prop :=
  ∃ olds table, loads env m G = olds ++ [table] ∧ (olds.map ExascriptTableData.rows).sum = old ∧
    input.nRows = table.rows ∧
    (table.rows ≤ table.rowNumber.length → input.rowNumbers = tableNumbers table) ∧
    (Intact env m G →
      InputRowSet.decode env.toExtern table m.inputColumns = .ok { input with currentRow := 0 })

/-- The last batch loaded has no rows. -/
def LastEmpty (env : Env) (m : UdfMeta) (G : List Event) : Prop :=
  ∃ table, (loads env m G).getLast? = some table ∧ table.rows = 0

namespace Loaded

variable {G events : List Event} {old : Nat} {input : InputRowSet}

/-- A batch is loaded. -/
theorem of_decode {table : ExascriptTableData}
    (hdecode : InputRowSet.decode env.toExtern table m.inputColumns = .ok input)
    (hbatches : batchesOf events = [table]) :
    Loaded env m (G ++ events) (received env m G).length input := by
  have hdecodes : Decodes env m table = true := by
    unfold Decodes
    rw [hdecode]
    rfl
  have hcursor : input = { input with currentRow := 0 } := by
    rw [← (InputRowSet.decode_ok hdecode).2]
  refine ⟨loads env m G, table, ?_, (length_received G).symm, (InputRowSet.decode_ok hdecode).1,
    fun hnumbers => ?_, fun _ => hcursor ▸ hdecode⟩
  · rw [loads_append, loads, loads, hbatches, List.filter_singleton, hdecodes]
    rfl
  · unfold InputRowSet.decode at hdecode
    split at hdecode
    · cases hdecode
    · obtain rfl := Except.ok.inj hdecode
      exact if_pos hnumbers

/-- A batch that does not decode takes the cells away. -/
theorem of_undecodable {table : ExascriptTableData} {e : UdfError} (h : Loaded env m G old input)
    (hdecode : InputRowSet.decode env.toExtern table m.inputColumns = .error e)
    (hbatches : batchesOf events = [table]) :
    Loaded env m (G ++ events) old { input with cells := [] } := by
  obtain ⟨olds, last, hloads, hold, hrows, hnumbers, -⟩ := h
  exact ⟨olds, last, (loads_undecodable hdecode hbatches).trans hloads, hold, hrows, hnumbers,
    fun hintact => absurd hintact (not_intact hdecode hbatches)⟩

/-- Events that bring no batch change nothing. -/
theorem quiet (h : Loaded env m G old input) (hevents : batchesOf events = []) :
    Loaded env m (G ++ events) old input := by
  obtain ⟨olds, table, hloads, hold, hrows, hnumbers, hcells⟩ := h
  refine ⟨olds, table, ?_, hold, hrows, hnumbers, fun hintact => hcells hintact.of_append⟩
  rw [loads_append, hloads, loads_of_none hevents, List.append_nil]

theorem advance (h : Loaded env m G old input) (row : Nat) :
    Loaded env m G old { input with currentRow := row } :=
  h

theorem total (h : Loaded env m G old input) :
    (received env m G).length = old + input.nRows := by
  obtain ⟨olds, table, hloads, hold, hrows, -⟩ := h
  rw [length_received, hloads, List.map_append, List.sum_append, hold, hrows]
  simp

theorem lastEmpty_iff (h : Loaded env m G old input) : LastEmpty env m G ↔ input.nRows = 0 := by
  obtain ⟨olds, table, hloads, -, hrows, -⟩ := h
  rw [hrows, LastEmpty, hloads, List.getLast?_concat]
  constructor
  · rintro ⟨table', htable, hzero⟩
    cases htable
    exact hzero
  · exact fun hzero => ⟨table, rfl, hzero⟩

/-- **A row of the batch** is the row at its position among all rows received. -/
theorem row (h : Loaded env m G old input) (hintact : Intact env m G) {i : Nat}
    (hi : i < input.nRows) : (received env m G)[old + i]? = some (input.rowCells i) := by
  obtain ⟨olds, table, hloads, hold, hrows, -, hcells⟩ := h
  -- The batches before the last one have `old` rows, so position `old + i` is in the last.
  have holds : (olds.flatMap (tableCells env m)).length = old := by
    rw [← hold]
    refine length_flatMap_tableCells fun t ht => decodes_of_mem_loads (G := G) ?_
    rw [hloads]
    exact List.mem_append_left _ ht
  have htable : tableCells env m table = input.rows := by
    unfold tableCells
    rw [hcells hintact]
    rfl
  rw [received, hloads, List.flatMap_append, List.flatMap_singleton, htable,
    List.getElem?_append_right (by omega), holds, Nat.add_sub_cancel_left, InputRowSet.rows,
    List.getElem?_map, List.getElem?_range hi]
  rfl

/-- **The number of a row of the batch** is the one at its position among all rows received. -/
theorem number (h : Loaded env m G old input) (hnumbered : Numbered G) {i : Nat}
    (hi : i < input.nRows) :
    (receivedNumbers env m G)[old + i]? = some (input.rowNumbers.getD i 0) := by
  obtain ⟨olds, table, hloads, hold, hrows, hnumbers, -⟩ := h
  have hcomplete : ∀ t ∈ olds ++ [table], t.rows ≤ t.rowNumber.length := fun t ht =>
    hnumbered t (List.mem_of_mem_filter (hloads ▸ ht : t ∈ loads env m G))
  have holds : (olds.flatMap tableNumbers).length = old := by
    rw [← hold]
    exact length_flatMap_tableNumbers fun t ht => hcomplete t (List.mem_append_left _ ht)
  have htable := hcomplete table (List.mem_append_right _ (List.mem_singleton.mpr rfl))
  rw [receivedNumbers, hloads, List.flatMap_append, List.flatMap_singleton, hnumbers htable,
    List.getElem?_append_right (by omega), holds, Nat.add_sub_cancel_left,
    List.getD_eq_getElem?_getD]
  have hlen : i < (tableNumbers table).length := by
    rw [tableNumbers, List.length_take]
    omega
  rw [List.getElem?_eq_getElem hlen]
  rfl

/-- An empty batch has no row numbers. -/
theorem rowNumbers_nil (h : Loaded env m G old input) (hempty : input.nRows = 0) :
    input.rowNumbers = [] := by
  obtain ⟨olds, table, -, -, hrows, hnumbers, -⟩ := h
  have hzero : table.rows = 0 := hrows.symm.trans hempty
  rw [hnumbers (hzero ▸ Nat.zero_le _), tableNumbers, hzero, List.take_zero]

/-- Reading the row under the cursor. -/
theorem currentRowCells (h : Loaded env m G old input) (hintact : Intact env m G)
    (hcursor : input.currentRow < input.nRows) :
    input.currentRowCells = some (input.rowCells input.currentRow) := by
  obtain ⟨olds, table, -, -, -, -, hcells⟩ := h
  exact InputRowSet.currentRowCells_eq (InputRowSet.decode_wf (hcells hintact)).cells hcursor

end Loaded

end ExaUdf
