import ExaUdf.Equiv.Iteration
import ExaUdf.Equiv.Pings
import ExaUdf.Equiv.Returns
import ExaUdf.TestContext

/-!
# The context for unit tests iterates like the host

A SET group is served as batches with rows, and then as ends of the input (`Serves`).  `Twin` ties
the host's position in its batch to the double's position among all rows: a call of `next` gets the
same answer from both and keeps them together (`Twin.next`), and so does `get` after the first
`next`.  Before it the host is on the first row already, where the double has no row.

`runGroup_twin`: the calls that the history of a group notes have been answered as the double
answers them.
-/

namespace ExaUdf

open HostContextBridge

variable {env : Env} {m : UdfMeta}

/-! ### What the database serves -/

/-- The batches to come, and then an end of the input for at least `spare` fetches. -/
structure Serves (env : Env) (m : UdfMeta) (tables : List ExascriptTableData) (spare : Nat)
    (w : World) : Prop where
  live : w.dead = false
  phase : w.proto.phase = .run
  inbox : ∃ nexts dones rest : List ExascriptResponse, w.inbox = nexts ++ (dones ++ rest) ∧
    List.Forall₂ (fun r table => r.messageType = .mtNext ∧ r.next = some table) nexts tables ∧
    (∀ r ∈ dones, r.messageType = .mtDone) ∧ spare ≤ dones.length
  rows : ∀ table ∈ tables, Decodes env m table = true ∧ 0 < table.rows

namespace Protocol

theorem step_mtNext {p : Protocol} (hphase : p.phase = .run) {r : ExascriptResponse}
    {table : ExascriptTableData} (htype : r.messageType = .mtNext) (hnext : r.next = some table) :
    p.step r = (.ok (.nextData table, none), p.heard r) := by
  obtain ⟨id, phase, pending, single⟩ := p
  obtain rfl : phase = .run := hphase
  unfold step
  simp only [htype, hnext]
  rfl

theorem step_mtDone {p : Protocol} (hphase : p.phase = .run) {r : ExascriptResponse}
    (htype : r.messageType = .mtDone) : p.step r = (.ok (.done, none), p.heard r) := by
  obtain ⟨id, phase, pending, single⟩ := p
  obtain rfl : phase = .run := hphase
  unfold step
  simp only [htype]
  rfl

end Protocol

namespace Serves

variable {tables : List ExascriptTableData} {table : ExascriptTableData} {spare : Nat} {w : World}

theorem mono {spare' : Nat} (h : Serves env m tables spare w) (hle : spare' ≤ spare) :
    Serves env m tables spare' w := by
  obtain ⟨nexts, dones, rest, hinbox, hnexts, hdones, hlen⟩ := h.inbox
  exact ⟨h.live, h.phase, ⟨nexts, dones, rest, hinbox, hnexts, hdones, hle.trans hlen⟩, h.rows⟩

/-- Only the channel matters. -/
theorem of_eq {w' : World} (h : Serves env m tables spare w) (hproto : w'.proto = w.proto)
    (hinbox : w'.inbox = w.inbox) (hdead : w'.dead = w.dead) : Serves env m tables spare w' where
  live := hdead.trans h.live
  phase := (congrArg Protocol.phase hproto).trans h.phase
  inbox := hinbox ▸ h.inbox
  rows := h.rows

/-- A fetch whose answer ends it. -/
theorem fetch_of_request {w w' : World} {event : HostEvent} {res : Option ExascriptTableData}
    (hrequest : w.request env (.request w.proto.nextRequest) = (.ok event, w'))
    (hres : event = .done ∧ res = none ∨ ∃ table, event = .nextData table ∧ res = some table)
    (exit : Option GroupExit) : Feed.fetch env ⟨w, exit⟩ = (.ok res, ⟨w', exit⟩) := by
  apply Loop.run_of_inl (L := Feed.fetchLoop env)
  show Feed.fetchStep env ⟨w, exit⟩ = _
  rw [Feed.fetchStep, hrequest]
  obtain ⟨rfl, rfl⟩ | ⟨table, rfl, rfl⟩ := hres <;> rfl

/-- A fetch gives the next batch. -/
theorem fetch (h : Serves env m (table :: tables) spare w) (exit : Option GroupExit) :
    ∃ w', Feed.fetch env ⟨w, exit⟩ = (.ok (some table), ⟨w', exit⟩) ∧
      Serves env m tables spare w' := by
  obtain ⟨nexts, dones, rest, hinbox, hnexts, hdones, hlen⟩ := h.inbox
  cases hnexts with
  | @cons r _ nexts _ hr hnexts =>
    have hstep := Protocol.step_mtNext h.phase hr.1 hr.2
    have houtcome : outcome w.proto r = .ok (.nextData table) := by rw [outcome, hstep]
    have hanswer : r.messageType ≠ .mtPingPong := by
      rw [hr.1]
      decide
    have hrequest := @World.request_answer env w (nexts ++ (dones ++ rest)) r hanswer hinbox h.live
      (.request w.proto.nextRequest)
    rw [houtcome, hstep] at hrequest
    refine ⟨_, fetch_of_request hrequest (.inr ⟨table, rfl, rfl⟩) exit, ?_⟩
    exact ⟨h.live, h.phase, ⟨nexts, dones, rest, rfl, hnexts, hdones, hlen⟩,
      fun t ht => h.rows t (List.mem_cons_of_mem _ ht)⟩

/-- Once there are no more batches, a fetch gives the end of the input. -/
theorem fetch_end (h : Serves env m [] (spare + 1) w) (exit : Option GroupExit) :
    ∃ w', Feed.fetch env ⟨w, exit⟩ = (.ok none, ⟨w', exit⟩) ∧ Serves env m [] spare w' := by
  obtain ⟨nexts, dones, rest, hinbox, hnexts, hdones, hlen⟩ := h.inbox
  cases hnexts
  cases dones with
  | nil => exact absurd hlen (Nat.not_succ_le_zero spare)
  | cons r dones =>
    have htype := hdones r List.mem_cons_self
    have hstep := Protocol.step_mtDone h.phase htype
    have houtcome : outcome w.proto r = .ok .done := by rw [outcome, hstep]
    have hanswer : r.messageType ≠ .mtPingPong := by
      rw [htype]
      decide
    have hrequest := @World.request_answer env w (dones ++ rest) r hanswer hinbox h.live
      (.request w.proto.nextRequest)
    rw [houtcome, hstep] at hrequest
    refine ⟨_, fetch_of_request hrequest (.inl ⟨rfl, rfl⟩) exit, ?_⟩
    exact ⟨h.live, h.phase, ⟨[], dones, rest, rfl, .nil,
      fun q hq => hdones q (List.mem_cons_of_mem _ hq), Nat.le_of_succ_le_succ hlen⟩,
      List.forall_mem_nil _⟩

/-! ### What the bridge makes of it -/

/-- A batch to come has rows. -/
theorem decode (h : Serves env m (table :: tables) spare w) :
    ∃ rs, InputRowSet.decode env.toExtern table m.inputColumns = .ok rs ∧ rs.isEmpty = false ∧
      rs.currentRow = 0 ∧ 0 < rs.nRows := by
  obtain ⟨hdecodes, hrows⟩ := h.rows table List.mem_cons_self
  unfold Decodes at hdecodes
  cases hdecode : InputRowSet.decode env.toExtern table m.inputColumns with
  | error e =>
    rw [hdecode] at hdecodes
    cases hdecodes
  | ok rs =>
    obtain ⟨hn, hcur⟩ := InputRowSet.decode_ok hdecode
    refine ⟨rs, rfl, ?_, hcur, hn ▸ hrows⟩
    rw [InputRowSet.isEmpty, hn, beq_eq_false_iff_ne]
    exact Nat.ne_of_gt hrows

/-- The dispatcher begins with the first batch. -/
theorem first (h : Serves env m (table :: tables) spare w) :
    ∃ rs w', InputRowSet.decode env.toExtern table m.inputColumns = .ok rs ∧
      (firstNonemptyInput env m).run ⟨w, none⟩ = (.ok (some rs), ⟨w', none⟩) ∧
      Serves env m tables spare w' := by
  obtain ⟨rs, hdecode, hempty, -⟩ := h.decode
  obtain ⟨w', hfetch, hserves⟩ := h.fetch none
  refine ⟨rs, w', hdecode, ?_, hserves⟩
  apply Loop.run_of_inl (L := firstNonemptyInput env m)
  show firstNonemptyInputStep env m ⟨w, none⟩ = _
  rw [firstNonemptyInputStep, hfetch]
  simp only [InputRowSet.fromProto, hdecode, hempty, Bool.false_eq_true, if_false]

/-- A drained batch is followed by the next one. -/
theorem refill {b : HostContextBridge} (h : Serves env m (table :: tables) spare b.world) :
    ∃ rs w', InputRowSet.decode env.toExtern table m.inputColumns = .ok rs ∧
      b.refill env m = (.ok true, { b with world := w', input := rs }) ∧
      Serves env m tables spare w' := by
  obtain ⟨rs, hdecode, hempty, -⟩ := h.decode
  obtain ⟨w', hfetch, hserves⟩ := h.fetch b.exit
  refine ⟨rs, w', hdecode, ?_, hserves⟩
  apply Loop.run_of_inl (L := refillLoop env m)
  show b.refillStep env m = _
  rw [refillStep, hfetch]
  simp only [InputRowSet.reload, hdecode, hempty, Bool.false_eq_true, if_false]

/-- The last batch stays when there is no other. -/
theorem refill_end {b : HostContextBridge} (h : Serves env m [] (spare + 1) b.world) :
    ∃ w', b.refill env m = (.ok false, { b with world := w' }) ∧ Serves env m [] spare w' := by
  obtain ⟨w', hfetch, hserves⟩ := h.fetch_end b.exit
  refine ⟨w', ?_, hserves⟩
  apply Loop.run_of_inl (L := refillLoop env m)
  show b.refillStep env m = _
  rw [refillStep, hfetch]

end Serves

/-! ### The host and the double -/

theorem TestContext.next_positioned (rows : List (List Value)) (cursor : Nat) :
    (positioned rows cursor).next
      = if cursor < rows.length then (.ok true, positioned rows (cursor + 1))
        else (.ok false, positioned rows cursor) :=
  rfl

/-- The host's bridge and the double are at the same place among `rows`: `before` are the rows of
the batches before the host's, `later` the batches to come. -/
structure TwinAt (env : Env) (m : UdfMeta) (rows : List (List Value)) (spare : Nat)
    (before : List (List Value)) (later : List ExascriptTableData) (b : HostContextBridge)
    (t : TestContext) : Prop where
  rows_eq : rows = before ++ (b.input.rows ++ later.flatMap (tableCells env m))
  cells : b.input.cells.length = b.input.nRows * b.input.nCols
  onRow : b.input.currentRow < b.input.nRows
  serves : Serves env m later spare b.world
  start : b.started = false → before = [] ∧ b.input.currentRow = 0
  /-- Before the first `next` the double is on no row. -/
  double : t = .positioned rows
    (if b.started then before.length + b.input.currentRow + 1 else 0)

def Twin (env : Env) (m : UdfMeta) (rows : List (List Value)) (spare : Nat) (b : HostContextBridge)
    (t : TestContext) : Prop :=
  ∃ before later, TwinAt env m rows spare before later b t

namespace TwinAt

variable {rows before : List (List Value)} {later : List ExascriptTableData} {spare : Nat}
  {b : HostContextBridge} {t : TestContext}

theorem length_rows (h : TwinAt env m rows spare before later b t) :
    rows.length = before.length + b.input.nRows + (later.flatMap (tableCells env m)).length := by
  rw [h.rows_eq, List.length_append, List.length_append, b.input.length_rows, Nat.add_assoc]

/-- The row under the host's cursor. -/
theorem row (h : TwinAt env m rows spare before later b t) :
    rows[before.length + b.input.currentRow]? = some (b.input.rowCells b.input.currentRow) := by
  have hlt : b.input.currentRow < b.input.rows.length := by
    rw [b.input.length_rows]
    exact h.onRow
  rw [h.rows_eq, List.getElem?_append_right (Nat.le_add_right _ _), Nat.add_sub_cancel_left,
    List.getElem?_append_left hlt, InputRowSet.rows, List.getElem?_map,
    List.getElem?_range h.onRow]
  rfl

theorem get_host (h : TwinAt env m rows spare before later b t) (col : Nat) :
    b.get col = cellAns (b.input.rowCells b.input.currentRow) col := by
  unfold HostContextBridge.get
  rw [InputRowSet.currentRowCells_eq h.cells h.onRow]
  rfl

/-- After the first `next` the double is on the same row. -/
theorem get_double (h : TwinAt env m rows spare before later b t) (hstarted : b.started = true) :
    t.currentRow = some (b.input.rowCells b.input.currentRow) := by
  rw [h.double, hstarted, if_pos rfl, ← h.row]
  rfl

/-- A call of `next` that stays within the batch. -/
theorem next_stay {spare' : Nat} (h : TwinAt env m rows spare' before later b t)
    (b' : HostContextBridge) (hcells : b'.input.cells = b.input.cells)
    (hnRows : b'.input.nRows = b.input.nRows) (hnCols : b'.input.nCols = b.input.nCols)
    (honRow : b'.input.currentRow < b'.input.nRows) (hserves : Serves env m later spare b'.world)
    (hstarted : b'.started = true)
    (ht : t = .positioned rows (before.length + b'.input.currentRow)) :
    t.next.1 = .ok true ∧ TwinAt env m rows spare before later b' t.next.2 := by
  have hlt : before.length + b'.input.currentRow < rows.length := by
    rw [h.length_rows]
    omega
  have hrowCells : b'.input.rowCells = b.input.rowCells := by
    funext idx
    rw [InputRowSet.rowCells, InputRowSet.rowCells, hcells, hnCols]
  have hrows : b'.input.rows = b.input.rows := by
    rw [InputRowSet.rows, InputRowSet.rows, hnRows, hrowCells]
  rw [ht, TestContext.next_positioned, if_pos hlt]
  refine ⟨rfl, ?_, ?_, honRow, hserves, ?_, ?_⟩
  · rw [hrows]
    exact h.rows_eq
  · rw [hcells, hnRows, hnCols]
    exact h.cells
  · rw [hstarted]
    rintro ⟨⟩
  · rw [hstarted, if_pos rfl]

/-- A call of `next` that goes on to the next batch. -/
theorem next_batch {spare' : Nat} {table : ExascriptTableData}
    (h : TwinAt env m rows spare' before (table :: later) b t) (hstarted : b.started = true)
    (hlast : ¬ b.input.currentRow + 1 < b.input.nRows) {rs : InputRowSet}
    (hdecode : InputRowSet.decode env.toExtern table m.inputColumns = .ok rs) {w : World}
    (hserves : Serves env m later spare w) :
    t.next.1 = .ok true ∧ TwinAt env m rows spare (before ++ b.input.rows) later
      { b with world := w, input := rs } t.next.2 := by
  obtain ⟨hnRows, hcur⟩ := InputRowSet.decode_ok hdecode
  have hpos : 0 < rs.nRows := hnRows ▸ (h.serves.rows table List.mem_cons_self).2
  have htable : tableCells env m table = rs.rows := by rw [tableCells, hdecode]
  have hsplit : rows = (before ++ b.input.rows)
      ++ (rs.rows ++ later.flatMap (tableCells env m)) := by
    rw [h.rows_eq, List.flatMap_cons, htable, List.append_assoc]
  have hcursor : before.length + b.input.currentRow + 1 = (before ++ b.input.rows).length := by
    have honRow := h.onRow
    rw [List.length_append, b.input.length_rows]
    omega
  have hlt : (before ++ b.input.rows).length < rows.length := by
    rw [hsplit, @List.length_append _ (before ++ b.input.rows) _,
      @List.length_append _ rs.rows _, rs.length_rows]
    omega
  have ht : t = .positioned rows (before ++ b.input.rows).length := by
    rw [h.double, hstarted, if_pos rfl, hcursor]
  rw [ht, TestContext.next_positioned, if_pos hlt]
  refine ⟨rfl, hsplit, (InputRowSet.decode_wf hdecode).cells, hcur ▸ hpos, hserves, ?_, ?_⟩
  · rw [hstarted]
    exact fun hnot => nomatch hnot
  · rw [hstarted, if_pos rfl, hcur]

/-- A call of `next` after the last row. -/
theorem next_end {spare' : Nat} (h : TwinAt env m rows spare' before [] b t)
    (hstarted : b.started = true) (hlast : ¬ b.input.currentRow + 1 < b.input.nRows) {w : World}
    (hserves : Serves env m [] spare w) :
    t.next.1 = .ok false ∧ TwinAt env m rows spare before [] { b with world := w } t.next.2 := by
  have honRow := h.onRow
  have hend : ¬ before.length + b.input.currentRow + 1 < rows.length := by
    rw [h.length_rows, List.flatMap_nil, List.length_nil]
    omega
  have ht : t = .positioned rows (before.length + b.input.currentRow + 1) := by
    rw [h.double, hstarted, if_pos rfl]
  rw [ht, TestContext.next_positioned, if_neg hend]
  refine ⟨rfl, h.rows_eq, h.cells, h.onRow, hserves, h.start, ?_⟩
  rw [hstarted, if_pos rfl]

end TwinAt

/-- **A call of `next`** gets the same answer from the host and the double. -/
theorem Twin.next {rows : List (List Value)} {spare : Nat} {b : HostContextBridge} {t : TestContext}
    (hset : m.inputIter = .multiple) (h : Twin env m rows (spare + 1) b t) :
    (b.next env m).1 = t.next.1 ∧ (b.next env m).2.started = true ∧
      Twin env m rows spare (b.next env m).2 t.next.2 := by
  obtain ⟨before, later, h⟩ := h
  have hpos : 0 < b.input.nRows := Nat.lt_of_le_of_lt (Nat.zero_le _) h.onRow
  have hserves : Serves env m later spare b.world := h.serves.mono (Nat.le_succ spare)
  cases hstarted : b.started with
  | false =>
    -- The host is on the first row already; the double moves there.
    obtain ⟨rfl, hcur⟩ := h.start hstarted
    have hempty : b.input.isEmpty = false := by
      rw [InputRowSet.isEmpty, beq_eq_false_iff_ne]
      exact Nat.ne_of_gt hpos
    have hnext : b.next env m = (.ok true, { b with started := true }) := by
      simp only [HostContextBridge.next, hset, hstarted, hempty, Bool.false_eq_true, if_false]
    have ht : t = .positioned rows (([] : List (List Value)).length + b.input.currentRow) := by
      rw [h.double, hstarted, hcur]
      rfl
    obtain ⟨hdouble, htwin⟩ := h.next_stay { b with started := true } rfl rfl rfl h.onRow
      hserves rfl ht
    rw [hnext]
    exact ⟨hdouble.symm, rfl, _, _, htwin⟩
  | true =>
    have hnext : b.next env m = b.advanceRow env m := by
      simp only [HostContextBridge.next, hset, hstarted, if_true]
    rw [hnext]
    by_cases hmore : b.input.currentRow + 1 < b.input.nRows
    · have hadvance : b.advanceRow env m = (.ok true,
          { b with input := { b.input with currentRow := b.input.currentRow + 1 } }) := by
        simp only [advanceRow, InputRowSet.advance, if_pos hmore]
      have ht : t = .positioned rows (before.length + (b.input.currentRow + 1)) := by
        rw [h.double, hstarted, if_pos rfl, Nat.add_assoc]
      obtain ⟨hdouble, htwin⟩ := h.next_stay
        { b with input := { b.input with currentRow := b.input.currentRow + 1 } } rfl rfl rfl hmore
        hserves hstarted ht
      rw [hadvance]
      exact ⟨hdouble.symm, hstarted, _, _, htwin⟩
    · have hadvance : b.advanceRow env m = b.refill env m := by
        simp only [advanceRow, InputRowSet.advance, if_neg hmore]
      rw [hadvance]
      cases later with
      | nil =>
        obtain ⟨w, hrefill, hend⟩ := h.serves.refill_end
        obtain ⟨hdouble, htwin⟩ := h.next_end hstarted hmore hend
        rw [hrefill]
        exact ⟨hdouble.symm, hstarted, _, _, htwin⟩
      | cons table later =>
        obtain ⟨rs, w, hdecode, hrefill, hlater⟩ := hserves.refill
        obtain ⟨hdouble, htwin⟩ := h.next_batch hstarted hmore hdecode hlater
        rw [hrefill]
        exact ⟨hdouble.symm, hstarted, _, _, htwin⟩

/-! ### Sequences of calls -/

/-- The answers of the host to a UDF's calls. -/
def hostAnswers (env : Env) (m : UdfMeta) : List RowCall → HostContextBridge → List Answered
  | [], _ => []
  | call :: calls, b =>
    ⟨call.op, (b.handle env m call.op).1⟩ :: hostAnswers env m calls (b.handle env m call.op).2

/-- The history of an invocation notes the answers. -/
theorem script_exec (calls : List RowCall) (b : HostContextBridge) :
    ((script calls).exec (handle env m) b).1 = ⟨0, ""⟩ ∧
      callsOf ((script calls).exec (handle env m) b).2.world.log
        = callsOf b.world.log ++ hostAnswers env m calls b := by
  induction calls generalizing b with
  | nil => exact ⟨rfl, (List.append_nil _).symm⟩
  | cons call calls ih =>
    obtain ⟨hexit, hcalls⟩ := ih (b.handle env m call.op).2
    refine ⟨hexit, ?_⟩
    rw [script, Prog.exec_call, hcalls, handle_calls, List.append_assoc]
    rfl

/-- The same answer, but for the text of an error of `get`. -/
def SameAnswer : Answered → Answered → Prop
  | ⟨.next, ans⟩, ⟨.next, ans'⟩ => ans = ans'
  | ⟨.get col, .value v⟩, ⟨.get col', .value v'⟩ => col = col' ∧ v = v'
  | ⟨.get col, .error _⟩, ⟨.get col', .error _⟩ => col = col'
  | _, _ => False

/-- The answers to a `get` before the first `next`: the host reads the first row, and the double has
no row. -/
def EarlyAnswer (first : List Value) : Answered → Answered → Prop
  | ⟨.get col, ans⟩, ⟨.get col', .error _⟩ => col = col' ∧ ans = cellAns first col
  | _, _ => False

def RowCall.isGet : RowCall → Bool
  | .get _ => true
  | .next => false

/-- The answers to `calls` are the same from the first `next` on. -/
def Alike (first : List Value) (calls : List RowCall) (hosts doubles : List Answered) : Prop :=
  let early := (calls.takeWhile RowCall.isGet).length
  List.Forall₂ (EarlyAnswer first) (hosts.take early) (doubles.take early) ∧
    List.Forall₂ SameAnswer (hosts.drop early) (doubles.drop early)

section

variable {rows : List (List Value)} {spare : Nat} {b : HostContextBridge} {t : TestContext}

theorem Twin.push (h : Twin env m rows spare b t) (e : Event) :
    Twin env m rows spare (b.push e) t := by
  obtain ⟨before, later, h⟩ := h
  exact ⟨before, later, h.rows_eq, h.cells, h.onRow, h.serves.of_eq rfl rfl rfl, h.start, h.double⟩

theorem Twin.mono {spare' : Nat} (h : Twin env m rows spare b t) (hle : spare' ≤ spare) :
    Twin env m rows spare' b t := by
  obtain ⟨before, later, h⟩ := h
  exact ⟨before, later, h.rows_eq, h.cells, h.onRow, h.serves.mono hle, h.start, h.double⟩

/-- After the first `next`, a `get` reads the same row. -/
theorem Twin.get (h : Twin env m rows spare b t) (hstarted : b.started = true) (col : Nat) :
    SameAnswer ⟨.get col, b.get col⟩ (t.answer (.get col)).1 := by
  obtain ⟨before, later, h⟩ := h
  have hrow := h.get_double hstarted
  rw [h.get_host]
  simp only [TestContext.answer, TestContext.get, hrow, cellAns]
  cases (b.input.rowCells b.input.currentRow)[col]? with
  | none => exact rfl
  | some v => exact ⟨rfl, rfl⟩

/-- Before the first `next`, the host reads the first row. -/
theorem Twin.get_early (h : Twin env m rows spare b t) (hstarted : b.started = false) (col : Nat) :
    EarlyAnswer (rows.headD []) ⟨.get col, b.get col⟩ (t.answer (.get col)).1 := by
  obtain ⟨before, later, h⟩ := h
  obtain ⟨rfl, hcur⟩ := h.start hstarted
  have hrow := h.row
  have ht : t = .positioned rows 0 := by
    rw [h.double, hstarted]
    rfl
  rw [hcur] at hrow
  have hfirst : rows.headD [] = b.input.rowCells b.input.currentRow := by
    rw [List.headD_eq_head?_getD, List.head?_eq_getElem?, hcur]
    exact congrArg (Option.getD · []) hrow
  rw [h.get_host, hfirst, ht]
  exact ⟨rfl, rfl⟩

/-- From the first `next` on. -/
theorem Twin.answers (hset : m.inputIter = .multiple) {calls : List RowCall}
    (h : Twin env m rows calls.length b t) (hstarted : b.started = true) :
    List.Forall₂ SameAnswer (hostAnswers env m calls b) (t.answers calls) := by
  induction calls generalizing b t with
  | nil => exact .nil
  | cons call calls ih =>
    cases call with
    | next =>
      obtain ⟨hsame, hstarted', htwin⟩ := h.next hset
      exact .cons hsame (ih (htwin.push _) hstarted')
    | get col => exact .cons (h.get hstarted col) (ih ((h.mono (Nat.le_succ _)).push _) hstarted)

/-- **Runs**: the answers to any calls. -/
theorem Twin.alike (hset : m.inputIter = .multiple) {calls : List RowCall}
    (h : Twin env m rows calls.length b t) (hstarted : b.started = false) :
    Alike (rows.headD []) calls (hostAnswers env m calls b) (t.answers calls) := by
  induction calls generalizing b t with
  | nil => exact ⟨.nil, .nil⟩
  | cons call calls ih =>
    cases call with
    | next =>
      obtain ⟨hsame, hstarted', htwin⟩ := h.next hset
      exact ⟨.nil, .cons hsame ((htwin.push _).answers hset hstarted')⟩
    | get col =>
      obtain ⟨hearly, hlater⟩ := ih ((h.mono (Nat.le_succ _)).push _) hstarted
      exact ⟨.cons (h.get_early hstarted col) hearly, hlater⟩

end

/-! ### Groups -/

/-- The dispatcher hands the UDF a bridge that is on the first row. -/
theorem Serves.twin {table : ExascriptTableData} {tables : List ExascriptTableData} {spare : Nat}
    {w w' : World} (h : Serves env m (table :: tables) spare w) {rs : InputRowSet}
    (hdecode : InputRowSet.decode env.toExtern table m.inputColumns = .ok rs)
    (hserves : Serves env m tables spare w') (exit : Option GroupExit) :
    Twin env m ((table :: tables).flatMap (tableCells env m)) spare
      (HostContextBridge.new ⟨w', exit⟩ rs)
      (.set ((table :: tables).flatMap (tableCells env m))) := by
  obtain ⟨hnRows, hcur⟩ := InputRowSet.decode_ok hdecode
  have htable : tableCells env m table = rs.rows := by rw [tableCells, hdecode]
  refine ⟨[], tables, ?_, (InputRowSet.decode_wf hdecode).cells, ?_, hserves,
    fun _ => ⟨rfl, hcur⟩, rfl⟩
  · rw [List.flatMap_cons, htable]
    rfl
  · show rs.currentRow < rs.nRows
    rw [hcur, hnRows]
    exact (h.rows table List.mem_cons_self).2

/-- Events of the wire note no calls. -/
theorem callsOf_adds {w w' : World} (h : World.Adds (fun e => e.isNote = false) w w') :
    callsOf w'.log = callsOf w.log := by
  obtain ⟨events, hlog, hwire⟩ := h
  rw [hlog, callsOf, List.filterMap_append, ← callsOf, ← callsOf, callsOf_of_isNote hwire,
    List.append_nil]

/-- The calls of a SET group are those of its invocation. -/
theorem runGroup_script (hset : m.inputIter = .multiple) {udf : LoadedUdf} {calls : List RowCall}
    (hudf : udf.run = fun _ => script calls) {w : World} {rs : InputRowSet} {fd : Feed}
    (hfirst : (firstNonemptyInput env m).run ⟨w, none⟩ = (.ok (some rs), fd)) :
    callsOf (runGroup env m udf w).2.log = callsOf w.log
      ++ hostAnswers env m calls ((HostContextBridge.new fd rs).push .runStart) := by
  -- Only the invocation notes calls: fetching before it and flushing after it add none.
  have hbegin : callsOf fd.world.log = callsOf w.log := by
    have hadds := firstNonemptyInput_rel m (feedRel_wire env).toFetchRel ⟨w, none⟩
    rw [hfirst] at hadds
    exact callsOf_adds hadds
  obtain ⟨hexit, hcalls⟩ :=
    @script_exec env m calls ((HostContextBridge.new fd rs).push .runStart)
  rcases hr : (script calls).exec (handle env m) ((HostContextBridge.new fd rs).push .runStart)
    with ⟨exit, b⟩
  rw [hr] at hexit hcalls
  obtain rfl : exit = ⟨0, ""⟩ := hexit
  have hrun : runOnce env m udf (.new fd rs) = (.ok (), b.push (.runEnd (.ok ()))) := by
    have hexec : (udf.run (HostContextBridge.new fd rs).world.log).exec (handle env m)
        ({ HostContextBridge.new fd rs with lastError := none }.push .runStart)
        = (⟨0, ""⟩, b) := by
      rw [hudf]
      exact hr
    rw [runOnce, hexec]
    rfl
  have hend : callsOf (endGroup env (b.push (.runEnd (.ok ()))).toFeed b.emitBuf).2.log
      = callsOf b.world.log := by
    rw [callsOf_adds (endGroup_rel (feedRel_wire env).toWriteRel _ _)]
    show callsOf (b.world.log ++ [.runEnd (.ok ())]) = _
    rw [callsOf, List.filterMap_append, ← callsOf]
    exact List.append_nil _
  have hstart : callsOf ((HostContextBridge.new fd rs).push .runStart).world.log
      = callsOf fd.world.log := by
    show callsOf (fd.world.log ++ [.runStart]) = _
    rw [callsOf, List.filterMap_append, ← callsOf]
    exact List.append_nil _
  rw [runGroup, hfirst]
  dsimp only
  rw [driveGroupRows, hset]
  dsimp only
  rw [hrun]
  dsimp only
  rw [← hbegin, ← hstart, ← hcalls]
  exact hend

/-- **The double iterates like the host.**  Take a SET group of some rows, in whatever batches, and
any calls of `next` and `get` by its UDF.  The history of the group notes them with the answers that
the double over the rows gives, up to texts of errors; only a `get` before the first `next` reads
the first row at the host, and is an error of the double. -/
theorem runGroup_twin (hset : m.inputIter = .multiple) {udf : LoadedUdf} {calls : List RowCall}
    (hudf : udf.run = fun _ => script calls) {rows : List (List Value)}
    {tables : List ExascriptTableData} (hrows : tables.flatMap (tableCells env m) = rows)
    (hne : tables ≠ []) {w : World} (hserves : Serves env m tables calls.length w) :
    ∃ hosts, callsOf (runGroup env m udf w).2.log = callsOf w.log ++ hosts ∧
      Alike (rows.headD []) calls hosts ((TestContext.set rows).answers calls) := by
  obtain ⟨table, tables, rfl⟩ := List.exists_cons_of_ne_nil hne
  subst hrows
  obtain ⟨rs, w', hdecode, hfirst, hserves'⟩ := hserves.first
  refine ⟨_, runGroup_script hset hudf hfirst, ?_⟩
  exact ((hserves.twin hdecode hserves' none).push .runStart).alike hset rfl

/-- The batch that `batchResponse` carries. -/
def integerBatch (values : List Int32) : ExascriptTableData :=
  { ExascriptTableData.empty with
    rows := values.length
    dataNulls := values.map fun _ => false
    dataInt32 := values }

/-- A channel that serves batches and then ends of the input. -/
def World.serving (batches : List (List Int32)) (ends : Nat) : World :=
  .running (batches.map batchResponse ++ (List.replicate ends (.ofType .mtDone) ++ []))

theorem serves_serving {env : Env} {m : UdfMeta} {batches : List (List Int32)} (ends : Nat)
    (hrows : ∀ values ∈ batches, Decodes env m (integerBatch values) = true ∧ 0 < values.length) :
    Serves env m (batches.map integerBatch) ends (.serving batches ends) where
  live := rfl
  phase := rfl
  inbox := by
    refine ⟨batches.map batchResponse, List.replicate ends (.ofType .mtDone), [], rfl, ?_, ?_, ?_⟩
    · induction batches with
      | nil => exact .nil
      | cons values batches ih =>
        exact .cons ⟨rfl, rfl⟩ (ih fun v hv => hrows v (List.mem_cons_of_mem _ hv))
    · intro r hr
      rw [List.eq_of_mem_replicate hr]
      rfl
    · rw [List.length_replicate]
  rows := by
    intro table htable
    obtain ⟨values, hvalues, rfl⟩ := List.mem_map.mp htable
    exact hrows values hvalues

/-- Two batches, read past their end. -/
theorem runGroup_twin_sample :
    let calls : List RowCall := [.get 0, .next, .get 0, .next, .next, .get 1, .next, .get 0, .next]
    let udf := LoadedUdf.emitting fun _ => script calls
    let rows : List (List Value) := [[.int32 1], [.int32 2], [.int32 3]]
    let w := World.serving [[1, 2], [3]] calls.length
    ∃ hosts, callsOf (runGroup (.reference udf) (integerMeta 2 2) udf w).2.log
        = callsOf w.log ++ hosts ∧
      Alike (rows.headD []) calls hosts ((TestContext.set rows).answers calls) := by
  intro calls udf rows w
  have hserves : Serves (.reference udf) (integerMeta 2 2) ([[1, 2], [3]].map integerBatch)
      calls.length w := serves_serving calls.length (by decide)
  exact runGroup_twin rfl rfl rfl (List.cons_ne_nil _ _) hserves

/-- A `get` before the first `next` reads the first row. -/
theorem not_runGroup_twin :
    ¬ ∀ (env : Env) (m : UdfMeta) (udf : LoadedUdf) (calls : List RowCall)
      (rows : List (List Value)) (tables : List ExascriptTableData) (w : World),
      m.inputIter = .multiple → udf.run = (fun _ => script calls) →
      tables.flatMap (tableCells env m) = rows → tables ≠ [] → Serves env m tables calls.length w →
      ∃ hosts, callsOf (runGroup env m udf w).2.log = callsOf w.log ++ hosts ∧
        List.Forall₂ SameAnswer hosts ((TestContext.set rows).answers calls) := by
  intro hclaim
  let udf := LoadedUdf.emitting fun _ => script [.get 0]
  obtain ⟨hosts, hlog, hsame⟩ := hclaim (.reference udf) (integerMeta 2 2) udf [.get 0]
    [[.int32 7]] [integerBatch [7]] (.serving [[7]] 1) rfl rfl rfl (List.cons_ne_nil _ _)
    (@serves_serving _ _ [[7]] 1 (by decide))
  have hread : callsOf (runGroup (.reference udf) (integerMeta 2 2) udf (.serving [[7]] 1)).2.log
      = [⟨.get 0, .value (.int32 7)⟩] := rfl
  obtain rfl : hosts = [⟨.get 0, .value (.int32 7)⟩] := (hlog.symm.trans hread)
  cases hsame with
  | cons hcell _ => exact hcell

end ExaUdf
