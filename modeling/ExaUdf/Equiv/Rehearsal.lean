import ExaUdf.Equiv.MockCycle
import ExaUdf.Equiv.TestContext
import ExaUdf.UnitTest

/-!
# Unit tests against sessions

A UDF whose unit tests pass does in a session what it has done in the tests: `joint_rehearsed`.  A
SCALAR script has one test for each row of a cycle, and a SET script one for all of them.

`Rehearsing` is a point of an invocation next to the same point of its test.  What ties the bridge
to the double is a parameter: for a SCALAR script both stay on one row, and for a SET script
`Placed` follows them over the rows.
-/

namespace ExaUdf

namespace MockDb

open HostContextBridge

variable {fx : Fixture} {env : Env} {m : UdfMeta} {T : List Frame} {w w' : World} {d d' : State}
  {numbers : List UInt64} {p : UdfProg} {b : HostContextBridge} {t : TestDouble}

/-! ### Tests -/

/-- The tests for some rows, each with the numbers of its rows. -/
def rowTests (m : UdfMeta) (rows : List (UInt64 × List Value)) : List (List UInt64 × TestDouble) :=
  match m.inputIter with
  | .exactlyOnce => rows.map fun row => ([row.1], .scalar row.2)
  | .multiple => if rows.isEmpty then [] else [(rows.map Prod.fst, .set (rows.map Prod.snd))]

theorem rowTests_nil (m : UdfMeta) : rowTests m [] = [] := by
  unfold rowTests
  cases m.inputIter <;> rfl

/-- The tests for a cycle. -/
def tests (env : Env) (m : UdfMeta) (tables : List ExascriptTableData) :
    List (List UInt64 × TestDouble) :=
  rowTests m (tables.flatMap (numberedRows env m))

/-- An output row on the wire, for one of these input rows. -/
def Carried (env : Env) (m : UdfMeta) (numbers : List UInt64) (row : WireRow)
    (values : List Value) : Prop :=
  ∃ n ∈ numbers, row = wireRow env.toExtern m.outputColumns n values

/-- The rows that these tests put out, one test after the other. -/
def Rehearsed (env : Env) (m : UdfMeta) (p : UdfProg) (tests : List (List UInt64 × TestDouble))
    (rows : List WireRow) : Prop :=
  ∃ parts : List (List WireRow), rows = parts.flatten ∧ List.Forall₂ (fun part test =>
    List.Forall₂ (Carried env m test.1) part ((test.2.test p).2.output m.outputIter)) parts tests

theorem Rehearsed.nil : Rehearsed env m p [] [] :=
  ⟨[], rfl, .nil⟩

theorem Rehearsed.cons {test : List UInt64 × TestDouble} {tests : List (List UInt64 × TestDouble)}
    {part rows : List WireRow}
    (hpart : List.Forall₂ (Carried env m test.1) part ((test.2.test p).2.output m.outputIter))
    (h : Rehearsed env m p tests rows) : Rehearsed env m p (test :: tests) (part ++ rows) := by
  obtain ⟨parts, rfl, hparts⟩ := h
  exact ⟨part :: parts, rfl, .cons hpart hparts⟩

/-! ### An invocation and its test -/

/-- A relation between the bridge within a cycle and the double, which the calls keep. -/
structure Follows (fx : Fixture) (env : Env) (m : UdfMeta) (T : List Frame) (numbers : List UInt64)
    (S : HostContextBridge → State → TestDouble → Prop) : Prop where
  keep : ∀ {b b' d d' t t'}, S b d t → b'.input = b.input → b'.started = b.started →
    d'.input = d.input → t'.toTestContext = t.toTestContext → S b' d' t'
  get : ∀ {b d t col v}, S b d t → t.get col = .ok v → b.get col = .value v
  number : ∀ {b d t}, S b d t → b.input.currentRowNumber ∈ numbers
  next : ∀ {b d t}, S b d t → InCycle fx T b.world d → m.inputIter = .multiple →
    SentOf T (b.next env m).2.world →
    ∃ d', (b.next env m).1 = t.next.1 ∧ (b.next env m).2.exit = b.exit ∧
      InCycle fx T (b.next env m).2.world d' ∧ Accepted env m b.world (b.next env m).2.world [] ∧
      S (b.next env m).2 d' { t with toTestContext := t.next.2 }

variable {S : HostContextBridge → State → TestDouble → Prop}

/-- A call that the test accepts. -/
structure Called (fx : Fixture) (env : Env) (m : UdfMeta) (T : List Frame) (numbers : List UInt64)
    (S : HostContextBridge → State → TestDouble → Prop) (b : HostContextBridge) (t : TestDouble)
    (op : CtxOp) (d' : State) (outs : List (List Value)) : Prop where
  answer : (b.answer env m op).1 = (t.handle op).1
  exit : (b.answer env m op).2.exit = b.exit
  cycle : InCycle fx T (b.answer env m op).2.world d'
  accepted : Accepted env m b.world (b.answer env m op).2.world []
  follows : S (b.answer env m op).2 d' (t.handle op).2
  output : (t.handle op).2.output m.outputIter = t.output m.outputIter ++ outs
  rows : List.Forall₂ (Carried env m numbers) ((Event.call b.input.currentRowNumber op
    (b.answer env m op).1).acceptedRows env.toExtern m.outputColumns) outs

/-- An output row that fits, pushed for the current input row. -/
theorem pushOutputRow_called (hS : Follows fx env m T numbers S) (h : S b d t)
    (hcycle : InCycle fx T b.world d) {values : List Value}
    (hfits : (checkOutputRow env.toExtern values m.outputColumns).isOk = true)
    (hsent : SentOf T (b.pushOutputRow env m values).2.world) (t' : TestDouble)
    (hsame : t'.toTestContext = t.toTestContext) :
    (b.pushOutputRow env m values).1 = .ok () ∧ (b.pushOutputRow env m values).2.exit = b.exit ∧
      ∃ d', InCycle fx T (b.pushOutputRow env m values).2.world d' ∧
        Accepted env m b.world (b.pushOutputRow env m values).2.world [] ∧
        S (b.pushOutputRow env m values).2 d' t' := by
  obtain ⟨hres, hexit, d', hcycle', hinput, haccepted⟩ := pushOutputRow_cycle hcycle hfits hsent
  obtain ⟨hcursor, hstarted⟩ := pushOutputRow_cursor m env b values
  exact ⟨hres, hexit, d', hcycle', haccepted, hS.keep h hcursor hstarted hinput hsame⟩

theorem Follows.carried (hS : Follows fx env m T numbers S) (h : S b d t) (values : List Value) :
    List.Forall₂ (Carried env m numbers)
      [wireRow env.toExtern m.outputColumns b.input.currentRowNumber values] [values] :=
  .cons ⟨_, hS.number h, rfl⟩ .nil

/-- **A call** that the test accepts is answered alike by the host. -/
theorem Follows.called (hS : Follows fx env m T numbers S) (h : S b d t)
    (hcycle : InCycle fx T b.world d) {op : CtxOp} (haccepts : t.accepts env.toExtern m op = true)
    (hsent : SentOf T (b.answer env m op).2.world) :
    ∃ d' outs, Called fx env m T numbers S b t op d' outs := by
  cases op with
  | get col =>
    change (t.get col).isOk = true at haccepts
    cases hget : t.get col with
    | error e =>
      rw [hget] at haccepts
      cases haccepts
    | ok v =>
      have hdouble : (t.handle (.get col)).1 = .value v := by
        simp only [TestDouble.handle, hget]
        rfl
      exact ⟨d, [], (hS.get h hget).trans hdouble.symm, rfl, hcycle, .refl env m _,
        hS.keep h rfl rfl rfl rfl, (List.append_nil _).symm, .nil⟩
  | emit values =>
    simp only [TestDouble.accepts, Bool.and_eq_true, beq_iff_eq] at haccepts
    obtain ⟨⟨hm, hpolicy⟩, hfits⟩ := haccepts
    have hanswer : b.answer env m (.emit values) = b.pushOutputRow env m values := by
      show b.emit env m values = _
      rw [emit, hm]
      rfl
    have htest : t.handle (.emit values)
        = (.ok (), { t with emitted := t.emitted ++ [values] }) := by
      show t.emit values = _
      simp only [TestDouble.emit, hpolicy]
      rfl
    rw [hanswer] at hsent
    obtain ⟨hres, hexit, d', hcycle', haccepted, hfollows⟩ :=
      pushOutputRow_called hS h hcycle hfits hsent (t.handle (.emit values)).2 (by rw [htest])
    refine ⟨d', [values], ?_, ?_, ?_, ?_, ?_, ?_, ?_⟩
    · rw [hanswer, htest]
      exact hres
    · rw [hanswer]
      exact hexit
    · rw [hanswer]
      exact hcycle'
    · rw [hanswer]
      exact haccepted
    · rw [hanswer]
      exact hfollows
    · rw [htest, hm]
      rfl
    · rw [hanswer]
      show List.Forall₂ _ (onOk (b.pushOutputRow env m values).1 _) _
      rw [hres]
      exact hS.carried h values
  | setReturn value =>
    simp only [TestDouble.accepts, Bool.and_eq_true, beq_iff_eq, Option.isNone_iff_eq_none]
      at haccepts
    obtain ⟨⟨hm, hfirst⟩, hfits⟩ := haccepts
    obtain ⟨hres, hexit, d', hcycle', haccepted, hfollows⟩ :=
      pushOutputRow_called hS h hcycle hfits hsent (t.handle (.setReturn value)).2 rfl
    refine ⟨d', [[value.getD .null]], hres, hexit, hcycle', haccepted, hfollows, ?_, ?_⟩
    · show TestDouble.output { t with capturedReturn := some value } _ = _
      rw [hm]
      show _ = t.capturedReturn.toList.map _ ++ _
      rw [hfirst]
      rfl
    · show List.Forall₂ _ (onOk (b.pushOutputRow env m [value.getD .null]).1 _) _
      rw [hres]
      exact hS.carried h [value.getD .null]
  | next =>
    simp only [TestDouble.accepts, Bool.and_eq_true, beq_iff_eq] at haccepts
    obtain ⟨d', hres, hexit, hcycle', haccepted, hfollows⟩ :=
      hS.next h hcycle haccepts.1 hsent
    exact ⟨d', [], hres, hexit, hcycle', haccepted, hfollows, (List.append_nil _).symm, .nil⟩
  | emitBatch _ | connection _ | rowsInGroup | outside _ => cases haccepts

/-- A point of an invocation that has put out rows since `w`, next to the point of its test. -/
def Rehearsing (fx : Fixture) (env : Env) (m : UdfMeta) (T : List Frame) (numbers : List UInt64)
    (S : HostContextBridge → State → TestDouble → Prop) (w : World) (p : UdfProg)
    (b : HostContextBridge) (t : TestDouble) : Prop :=
  b.exit = none ∧ SentOf T (p.exec (handle env m) b).2.world ∧
    t.passes env.toExtern m p = true ∧ ∃ d rows, InCycle fx T b.world d ∧ S b d t ∧
      Accepted env m w b.world rows ∧
      List.Forall₂ (Carried env m numbers) rows (t.output m.outputIter)

theorem Rehearsing.call (hS : Follows fx env m T numbers S) {op : CtxOp}
    {k : CtxAns op → UdfProg} (h : Rehearsing fx env m T numbers S w (.call op k) b t) :
    (b.handle env m op).1 = (t.handle op).1 ∧ Rehearsing fx env m T numbers S w
      (k (b.handle env m op).1) (b.handle env m op).2 (t.handle op).2 := by
  obtain ⟨hexit, hsent, hpasses, d, rows, hcycle, hfollows, haccepted, hrows⟩ := h
  simp only [TestDouble.passes, Bool.and_eq_true] at hpasses
  have hlater := Prog.exec_rel (handle env m)
    (R := fun b b' : HostContextBridge => b.world.log <+: b'.world.log)
    (fun _ => List.prefix_rfl) List.IsPrefix.trans
    (fun op b => handle_rel m (sessionRel_log env).dispatchRel.groupRel op b)
    (k (b.handle env m op).1) (b.handle env m op).2
  have hhandled : SentOf T (b.handle env m op).2.world := hsent.of_log hlater
  obtain ⟨d', outs, hcalled⟩ := hS.called hfollows hcycle hpasses.1
    (hhandled.of_log (List.prefix_append _ _))
  refine ⟨hcalled.answer, hcalled.exit.trans hexit, hsent, ?_, d', _, hcalled.cycle.push rfl,
    hS.keep hcalled.follows rfl rfl rfl rfl,
    haccepted.trans (hcalled.accepted.trans (.push env m _ _)), ?_⟩
  · rw [show (b.handle env m op).1 = (t.handle op).1 from hcalled.answer]
    exact hpasses.2
  · rw [hcalled.output, List.nil_append]
    exact List.rel_append hrows hcalled.rows

/-- **An invocation** whose test passes. -/
theorem runOnce_rehearsed (hS : Follows fx env m T numbers S) {udf : LoadedUdf}
    (hudf : udf.run = fun _ => p) (h : S b d t) (hcycle : InCycle fx T b.world d)
    (hexit : b.exit = none) (hpasses : t.passes env.toExtern m p = true)
    (hfresh : t.output m.outputIter = []) (hsent : SentOf T (runOnce env m udf b).2.world) :
    (runOnce env m udf b).1 = .ok () ∧ (runOnce env m udf b).2.exit = none ∧
      ∃ d' rows, InCycle fx T (runOnce env m udf b).2.world d' ∧
        S (runOnce env m udf b).2 d' (t.test p).2 ∧
        Accepted env m b.world (runOnce env m udf b).2.world rows ∧
        List.Forall₂ (Carried env m numbers) rows ((t.test p).2.output m.outputIter) := by
  unfold runOnce at hsent ⊢
  rw [hudf] at hsent ⊢
  dsimp only at hsent ⊢
  have hstart : Rehearsing fx env m T numbers S b.world p
      ({ b with lastError := none }.push .runStart) t := by
    refine ⟨hexit, ?_, hpasses, d, [], hcycle.push rfl, hS.keep h rfl rfl rfl rfl,
      .push env m _ _, ?_⟩
    · exact hsent.of_log (List.prefix_append _ _)
    · rw [hfresh]
      exact .nil
  obtain ⟨-, hexit', -, hrc, d', rows, hcycle', hfollows, haccepted, hrows⟩ :=
    Prog.exec_sim (fun op k b t h => Rehearsing.call hS h) hstart
  generalize Prog.exec (handle env m) p _ = r at *
  have hok : lifecycleResult "run" r.1 = .ok () := if_pos (beq_iff_eq.mp hrc)
  refine ⟨by rw [hok]; rfl, hexit', d', _, hcycle'.push rfl, hS.keep hfollows rfl rfl rfl rfl,
    haccepted.trans (.push env m _ _), ?_⟩
  rw [hok]
  show List.Forall₂ _ (rows ++ []) _
  rw [List.append_nil]
  exact hrows

/-! ### Reading a row -/

theorem getElem?_of_get {t : TestContext} {row : List Value} (hrow : t.currentRow = some row)
    {col : Nat} {v : Value} (hget : t.get col = .ok v) : row[col]? = some v := by
  unfold TestContext.get at hget
  rw [hrow] at hget
  dsimp only at hget
  cases hcell : row[col]? with
  | none =>
    rw [hcell] at hget
    cases hget
  | some v' =>
    rw [hcell] at hget
    cases hget
    rfl

/-- What the double reads on the row of the host, the host reads too. -/
theorem get_of_double (hwf : b.input.WF) (hrow : b.input.currentRow < b.input.nRows)
    {t : TestContext} (hsame : t.currentRow = some (b.input.rowCells b.input.currentRow))
    {col : Nat} {v : Value} (hget : t.get col = .ok v) : b.get col = .value v := by
  rw [HostContextBridge.get, InputRowSet.currentRowCells_eq hwf.cells hrow]
  dsimp only
  rw [getElem?_of_get hsame hget]

/-! ### SCALAR groups -/

/-- A SCALAR invocation stays on its row. -/
structure Stays (input : InputRowSet) (later : List ExascriptTableData) (row : List Value)
    (b : HostContextBridge) (d : State) (t : TestDouble) : Prop where
  host : b.input = input
  later : d.input = later
  double : t.toTestContext = .scalar row

theorem follows_scalar (fx : Fixture) (env : Env) (T : List Frame)
    (hm : m.inputIter = .exactlyOnce) {input : InputRowSet} (hwf : input.WF)
    (hrow : input.currentRow < input.nRows) (later : List ExascriptTableData) :
    Follows fx env m T [input.currentRowNumber]
      (Stays input later (input.rowCells input.currentRow)) where
  keep h hinput _ hlater hsame :=
    ⟨hinput.trans h.host, hlater.trans h.later, hsame.trans h.double⟩
  get h hget := by
    obtain ⟨rfl, -, hdouble⟩ := h
    exact get_of_double hwf hrow (by rw [hdouble]; rfl) hget
  number h := by
    rw [h.host]
    exact List.mem_singleton_self _
  next _ _ hset := by
    rw [hm] at hset
    cases hset

theorem scalarStep_runs (env : Env) (m : UdfMeta) (udf : LoadedUdf) (b : HostContextBridge) :
    (runOnce env m udf b).2.world.log
      <+: ((scalarStep env m udf b).elim (fun r => r.2.toFeed) toFeed).world.log := by
  unfold scalarStep
  rcases runOnce env m udf b with ⟨e | u, b'⟩
  · exact List.prefix_rfl
  · have hadvance := advanceRow_rel m (feedRel_log env).toFetchRel b'
    dsimp only
    generalize b'.advanceRow env m = r at hadvance ⊢
    rcases r with ⟨e | - | -, b''⟩ <;> exact hadvance

/-- **The rows of a SCALAR group**, each with its test. -/
theorem scalarLoop_rehearsed (hm : m.inputIter = .exactlyOnce) {udf : LoadedUdf}
    (hudf : udf.run = fun _ => p) (hcycle : InCycle fx T b.world d) (hexit : b.exit = none)
    (hlegible : Legible env m d.input) (hwf : b.input.WF)
    (hrow : b.input.currentRow < b.input.nRows)
    (htests : ∀ row ∈ b.input.ahead ++ d.later env m,
      (TestDouble.scalar row.2).passes env.toExtern m p = true)
    (hsent : SentOf T ((scalarLoop env m udf).run b).2.world) :
    ((scalarLoop env m udf).run b).1 = none ∧ ((scalarLoop env m udf).run b).2.exit = none ∧
      ∃ d' rows, InCycle fx T ((scalarLoop env m udf).run b).2.world d' ∧
        Accepted env m b.world ((scalarLoop env m udf).run b).2.world rows ∧
        Rehearsed env m p ((b.input.ahead ++ d.later env m).map fun row => ([row.1], .scalar row.2))
          rows := by
  induction b using (scalarLoop env m udf).induct generalizing d with
  | _ b ih =>
    have hrel := (sessionRel_log env).dispatchRel.groupRel
    have hround := (scalarLoop env m udf).step_rel toFeed (fun r => r.2.toFeed)
      (R := fun fd fd' => fd.world.log <+: fd'.world.log) hrel.refl hrel.trans
      (scalarStep_rel m udf hrel) b
    change ((scalarStep env m udf b).elim (fun r => r.2.toFeed) toFeed).world.log <+: _ at hround
    have htest := htests (b.input.currentRowNumber, b.input.rowCells b.input.currentRow)
      (by rw [InputRowSet.ahead_cons hrow]; exact List.mem_cons_self)
    obtain ⟨hres, hexit₁, d₁, part, hcycle₁, hstays, haccepted₁, hpart⟩ := runOnce_rehearsed
      (follows_scalar fx env T hm hwf hrow d.input) hudf ⟨rfl, rfl, rfl⟩ hcycle hexit htest
      (by cases m.outputIter <;> rfl)
      (hsent.of_log ((scalarStep_runs env m udf b).trans hround))
    rcases hrun : runOnce env m udf b with ⟨res, b₁⟩
    rw [hrun] at hres hexit₁ hcycle₁ hstays haccepted₁
    obtain rfl : res = .ok () := hres
    obtain ⟨hinput, hlater, -⟩ := hstays
    dsimp only at hexit₁ hcycle₁ haccepted₁ hinput
    have hadvanced : ((scalarStep env m udf b).elim (fun r => r.2.toFeed) toFeed).world
        = (b₁.advanceRow env m).2.world := by
      unfold scalarStep
      rw [hrun]
      dsimp only
      rcases b₁.advanceRow env m with ⟨e | - | -, b₂⟩ <;> rfl
    rw [hadvanced] at hround
    obtain ⟨more, w₂, d₂, input₂, hadvance, hcycle₂, haccepted₂, hsuffix, -, hrows⟩ :=
      advanceRow_cycle m hcycle₁ (hlater ▸ hlegible) (hinput ▸ hwf) (hinput ▸ hrow)
        (hsent.of_log hround)
    rw [State.later, hlater, ← State.later, hinput] at hrows
    cases more with
    | false =>
      have hstep : scalarStep env m udf b
          = .inl (none, { b₁ with world := w₂, input := input₂ }) := by
        rw [scalarStep, hrun]
        dsimp only
        rw [hadvance]
      have hlast : (scalarLoop env m udf).run b = _ := Loop.run_of_inl hstep
      rw [hlast]
      rw [if_neg (by simp)] at hrows
      refine ⟨rfl, hexit₁, d₂, _, hcycle₂, haccepted₁.trans haccepted₂, ?_⟩
      rw [hrows.1]
      exact .cons hpart .nil
    | true =>
      have hstep : scalarStep env m udf b = .inr { b₁ with world := w₂, input := input₂ } := by
        rw [scalarStep, hrun]
        dsimp only
        rw [hadvance]
      have hlast : (scalarLoop env m udf).run b = _ := Loop.run_of_inr hstep
      rw [if_pos rfl] at hrows
      obtain ⟨hwf₂, hrow₂, hrows⟩ := hrows
      rw [hlast] at hsent ⊢
      rw [hrows] at htests ⊢
      obtain ⟨hnone, hexit₂, d', rows, hcycle', haccepted', hrest⟩ := ih _ hstep hcycle₂ hexit₁
        (fun t ht => hlegible t (hlater ▸ hsuffix.subset ht)) hwf₂ hrow₂
        (fun row hmem => htests row (List.mem_cons_of_mem _ hmem)) hsent
      exact ⟨hnone, hexit₂, d', _, hcycle', haccepted₁.trans (haccepted₂.trans haccepted'),
        .cons hpart hrest⟩

/-! ### SET groups -/

/-- Batches with rows are used up when no rows are left. -/
theorem Legible.input_nil (h : Legible env m d.input) (hfilled : ∀ table ∈ d.input, 0 < table.rows)
    (hlater : d.later env m = []) : d.input = [] := by
  cases hinput : d.input with
  | nil => rfl
  | cons table tables =>
    rw [hinput] at h hfilled
    obtain ⟨rs, hdecode⟩ := h.decode
    obtain ⟨hrows, hcursor⟩ := InputRowSet.decode_ok hdecode
    have hpos : rs.currentRow < rs.nRows := by
      rw [hrows, hcursor]
      exact hfilled table List.mem_cons_self
    rw [State.later, hinput, List.flatMap_cons, numberedRows_of_decode hdecode,
      InputRowSet.ahead_cons hpos] at hlater
    cases hlater

/-- The bridge and the double are on the same one of `rows`. -/
structure Placed (env : Env) (m : UdfMeta) (rows : List (UInt64 × List Value))
    (b : HostContextBridge) (d : State) (t : TestDouble) : Prop where
  legible : Legible env m d.input
  filled : ∀ table ∈ d.input, 0 < table.rows
  wf : b.input.WF
  onRow : b.input.currentRow < b.input.nRows
  /-- Before the first `next` the double is on no row. -/
  position : ∃ before, rows = before ++ (b.input.ahead ++ d.later env m) ∧
    (b.started = false → before = []) ∧ t.toTestContext = .positioned (rows.map Prod.snd)
      (if b.started then before.length + 1 else 0)

namespace Placed

variable {rows : List (UInt64 × List Value)}

/-- After the first `next` the double reads the row of the host. -/
theorem get (h : Placed env m rows b d t) {col : Nat} {v : Value} (hget : t.get col = .ok v) :
    b.get col = .value v := by
  obtain ⟨before, hrows, -, hdouble⟩ := h.position
  rw [hdouble] at hget
  cases hstarted : b.started with
  | false =>
    rw [hstarted] at hget
    cases hget
  | true =>
    have hrow : (TestContext.positioned (rows.map Prod.snd) (before.length + 1)).currentRow
        = some (b.input.rowCells b.input.currentRow) := by
      show (rows.map Prod.snd)[before.length]? = _
      rw [hrows, InputRowSet.ahead_cons h.onRow]
      simp
    rw [hstarted, if_pos rfl] at hget
    exact get_of_double h.wf h.onRow hrow hget

/-- **A call of `next`** is answered alike, and keeps both on the same row. -/
theorem next (h : Placed env m rows b d t) (hcycle : InCycle fx T b.world d)
    (hm : m.inputIter = .multiple) (hsent : SentOf T (b.next env m).2.world) :
    ∃ d', (b.next env m).1 = t.next.1 ∧ (b.next env m).2.exit = b.exit ∧
      InCycle fx T (b.next env m).2.world d' ∧ Accepted env m b.world (b.next env m).2.world [] ∧
      Placed env m rows (b.next env m).2 d' { t with toTestContext := t.next.2 } := by
  obtain ⟨before, hrows, hbefore, hdouble⟩ := h.position
  have hahead := InputRowSet.ahead_cons h.onRow
  cases hstarted : b.started with
  | false =>
    -- The host is on the first row already, and the double moves there.
    obtain rfl := hbefore hstarted
    have hnext : b.next env m = (.ok true, { b with started := true }) := by
      have hempty : b.input.isEmpty = false :=
        beq_eq_false_iff_ne.mpr (Nat.ne_of_gt (Nat.lt_of_le_of_lt (Nat.zero_le _) h.onRow))
      simp [HostContextBridge.next, hm, hstarted, hempty]
    have hmoves : t.next = (.ok true, .positioned (rows.map Prod.snd) 1) := by
      rw [hdouble, hstarted, if_neg Bool.false_ne_true, TestContext.next_positioned, if_pos]
      rw [hrows, hahead]
      simp
    rw [hnext, hmoves]
    exact ⟨d, rfl, rfl, hcycle, .refl env m _, h.legible, h.filled, h.wf, h.onRow, [], hrows,
      fun _ => rfl, rfl⟩
  | true =>
    have hnext : b.next env m = b.advanceRow env m := by
      simp [HostContextBridge.next, hm, hstarted]
    rw [hnext] at hsent ⊢
    obtain ⟨more, w', d', input, hadvance, hcycle', haccepted, hsuffix, hkept, hends⟩ :=
      advanceRow_cycle m hcycle h.legible h.wf h.onRow hsent
    have hlegible : Legible env m d'.input := fun table ht => h.legible table (hsuffix.subset ht)
    have hfilled : ∀ table ∈ d'.input, 0 < table.rows :=
      fun table ht => h.filled table (hsuffix.subset ht)
    rw [hstarted, if_pos rfl] at hdouble
    rw [hadvance, hdouble, TestContext.next_positioned]
    cases more with
    | true =>
      obtain ⟨hwf, honRow, hsplit⟩ := hends
      rw [hsplit] at hrows
      have hmore : before.length + 1 < (rows.map Prod.snd).length := by
        rw [hrows, InputRowSet.ahead_cons honRow]
        simp
      rw [if_pos hmore]
      refine ⟨d', rfl, rfl, hcycle', haccepted, hlegible, hfilled, hwf, honRow,
        before ++ [(b.input.currentRowNumber, b.input.rowCells b.input.currentRow)], ?_, ?_, ?_⟩
      · rw [hrows, List.append_assoc]
        rfl
      · rw [show HostContextBridge.started _ = true from hstarted]
        rintro ⟨⟩
      · rw [show HostContextBridge.started _ = true from hstarted, if_pos rfl, List.length_append]
        rfl
    | false =>
      -- No batch was left, so that the host stays on the last row, as the double does.
      obtain ⟨hlast, hlater, hinput'⟩ := hends
      have hend : ¬ before.length + 1 < (rows.map Prod.snd).length := by
        rw [hrows, hlast]
        simp
      have hinput := h.legible.input_nil h.filled hlater
      obtain rfl := hkept hinput rfl
      rw [if_neg hend]
      refine ⟨d', rfl, rfl, hcycle', haccepted, hlegible, hfilled, h.wf, h.onRow, before, ?_,
        hbefore, ?_⟩
      · rw [hrows, State.later, State.later, hinput, hinput']
      · rw [show HostContextBridge.started _ = true from hstarted, if_pos rfl]

end Placed

theorem follows_set (fx : Fixture) (env : Env) (m : UdfMeta) (T : List Frame)
    (rows : List (UInt64 × List Value)) :
    Follows fx env m T (rows.map Prod.fst) (Placed env m rows) where
  keep {b b' d d' t t'} h hinput hstarted hlater hsame := by
    obtain ⟨hlegible, hfilled, hwf, honRow, before, hrows, hbefore, hdouble⟩ := h
    refine ⟨by rwa [hlater], by rwa [hlater], by rwa [hinput], by rwa [hinput], before, ?_,
      by rwa [hstarted], by rw [hstarted, hsame, hdouble]⟩
    rw [hinput, State.later, hlater]
    exact hrows
  get h hget := h.get hget
  number h := by
    obtain ⟨before, hrows, -⟩ := h.position
    rw [hrows, InputRowSet.ahead_cons h.onRow]
    simp
  next h hcycle hm hsent := h.next hcycle hm hsent

/-! ### Groups -/

/-- A cycle that tests can stand for: its batches decode, and those of a SET script have rows. -/
structure Testable (env : Env) (m : UdfMeta) (tables : List ExascriptTableData) : Prop where
  legible : Legible env m tables
  filled : m.inputIter = .multiple → ∀ table ∈ tables, 0 < table.rows

/-- **The rows of a group**, with their tests. -/
theorem driveGroupRows_rehearsed {udf : LoadedUdf} (hudf : udf.run = fun _ => p) (fd : Feed)
    {rs : InputRowSet} (hcycle : InCycle fx T fd.world d) (hexit : fd.exit = none)
    (htestable : Testable env m d.input) (hwf : rs.WF) (hrow : rs.currentRow < rs.nRows)
    (htests : ∀ test ∈ rowTests m (rs.ahead ++ d.later env m),
      test.2.passes env.toExtern m p = true)
    (hsent : SentOf T (driveGroupRows env m udf (.new fd rs)).2.world) :
    (driveGroupRows env m udf (.new fd rs)).1 = none ∧
      (driveGroupRows env m udf (.new fd rs)).2.exit = none ∧
      ∃ d' rows, InCycle fx T (driveGroupRows env m udf (.new fd rs)).2.world d' ∧
        Accepted env m fd.world (driveGroupRows env m udf (.new fd rs)).2.world rows ∧
        Rehearsed env m p (rowTests m (rs.ahead ++ d.later env m)) rows := by
  cases hm : m.inputIter with
  | exactlyOnce =>
    have hdrive : driveGroupRows env m udf (.new fd rs)
        = (scalarLoop env m udf).run (.new fd rs) := by
      unfold driveGroupRows
      rw [hm]
    have hrows : ∀ rows, rowTests m rows = rows.map fun row => ([row.1], .scalar row.2) := by
      intro rows
      rw [rowTests, hm]
    rw [hdrive] at hsent ⊢
    rw [hrows] at htests ⊢
    exact scalarLoop_rehearsed (b := .new fd rs) hm hudf hcycle hexit htestable.legible hwf hrow
      (fun row hmem => htests _ (List.mem_map_of_mem hmem)) hsent
  | multiple =>
    have hrows : rowTests m (rs.ahead ++ d.later env m)
        = [((rs.ahead ++ d.later env m).map Prod.fst,
          .set ((rs.ahead ++ d.later env m).map Prod.snd))] := by
      rw [rowTests, hm, InputRowSet.ahead_cons hrow]
      rfl
    rw [hrows] at htests ⊢
    have hplaced : Placed env m (rs.ahead ++ d.later env m) (.new fd rs) d
        (.set ((rs.ahead ++ d.later env m).map Prod.snd)) :=
      ⟨htestable.legible, htestable.filled hm, hwf, hrow, [], rfl, fun _ => rfl, rfl⟩
    have hdrove : (driveGroupRows env m udf (.new fd rs)).2
        = (runOnce env m udf (.new fd rs)).2 := by
      unfold driveGroupRows
      rw [hm]
      dsimp only
      rcases runOnce env m udf (.new fd rs) with ⟨e | u, b⟩ <;> rfl
    rw [hdrove] at hsent ⊢
    obtain ⟨hres, hexit', d', rows, hcycle', -, haccepted, hpart⟩ := runOnce_rehearsed
      (follows_set fx env m T _) hudf hplaced hcycle hexit (htests _ (List.mem_singleton_self _))
      (by cases m.outputIter <;> rfl) hsent
    refine ⟨?_, hexit', d', _, hcycle', haccepted, List.append_nil rows ▸ .cons hpart .nil⟩
    unfold driveGroupRows
    rw [hm]
    dsimp only
    rcases hrun : runOnce env m udf (.new fd rs) with ⟨e | u, b⟩
    · rw [hrun] at hres
      cases hres
    · rfl

theorem runGroup_fetches (env : Env) (m : UdfMeta) (udf : LoadedUdf) (w : World) :
    ((firstNonemptyInput env m).run ⟨w, none⟩).2.world.log <+: (runGroup env m udf w).2.log := by
  have hrel := (sessionRel_log env).dispatchRel.groupRel
  unfold runGroup
  rcases (firstNonemptyInput env m).run ⟨w, none⟩ with ⟨e | - | input, fd⟩
  · exact List.prefix_rfl
  · exact endGroup_rel hrel.toRel.toWriteRel fd EmitBuffer.new
  · have hdrive := driveGroupRows_rel m udf hrel (.new fd input)
    dsimp only
    generalize driveGroupRows env m udf (.new fd input) = r at hdrive ⊢
    rcases r with ⟨- | e, b⟩
    · exact hdrive.trans (endGroup_rel hrel.toRel.toWriteRel b.toFeed b.emitBuf)
    · exact hdrive

/-- **A group** does what its tests have done. -/
theorem runGroup_rehearsed {udf : LoadedUdf} (hudf : udf.run = fun _ => p)
    (hcycle : InCycle fx T w d) (htestable : Testable env m d.input)
    (htests : ∀ test ∈ tests env m d.input, test.2.passes env.toExtern m p = true)
    (hsent : SentOf T (runGroup env m udf w).2) :
    (runGroup env m udf w).1 = .ok none ∧ ∃ d' rows, InCycle fx T (runGroup env m udf w).2 d' ∧
      Accepted env m w (runGroup env m udf w).2 rows ∧
      Rehearsed env m p (tests env m d.input) rows := by
  have hrel := (sessionRel_log env).dispatchRel.groupRel
  obtain ⟨loaded, w₁, d₁, hfirst, hcycle₁, haccepted₁, hsuffix, hloads⟩ :=
    firstNonemptyInput_cycle m ⟨w, none⟩ hcycle htestable.legible
      (hsent.of_log (runGroup_fetches env m udf w))
  have htestable₁ : Testable env m d₁.input :=
    ⟨fun table ht => htestable.legible table (hsuffix.subset ht),
      fun hm table ht => htestable.filled hm table (hsuffix.subset ht)⟩
  unfold runGroup at hsent ⊢
  rw [hfirst] at hsent ⊢
  cases hloads with
  | none hlater =>
    dsimp only at hsent ⊢
    obtain ⟨hres, d', hcycle', -, haccepted⟩ :=
      endGroup_cycle m ⟨w₁, none⟩ hcycle₁ rfl hsent
    refine ⟨hres, d', _, hcycle', haccepted₁.trans haccepted, ?_⟩
    have hnone : tests env m d.input = [] := by
      rw [tests, show d.input.flatMap (numberedRows env m) = [] from hlater, rowTests_nil]
    rw [hnone]
    exact .nil
  | @some rs hwf hrow hlater =>
    have hsplit : tests env m d.input = rowTests m (rs.ahead ++ d₁.later env m) :=
      congrArg (rowTests m) hlater
    rw [hsplit] at htests ⊢
    have hdrive := driveGroupRows_rehearsed hudf ⟨w₁, none⟩ hcycle₁ rfl htestable₁ hwf hrow htests
    dsimp only at hsent ⊢
    generalize driveGroupRows env m udf (.new ⟨w₁, none⟩ rs) = r at hdrive hsent ⊢
    obtain ⟨res, b⟩ := r
    have hdrove : SentOf T b.world := by
      cases res with
      | none => exact hsent.of_log (endGroup_rel hrel.toRel.toWriteRel b.toFeed b.emitBuf)
      | some e => exact hsent
    obtain ⟨hres, hexit, d₂, rows, hcycle₂, haccepted₂, hrehearsed⟩ := hdrive hdrove
    obtain rfl : res = none := hres
    obtain ⟨hend, d₃, hcycle₃, -, haccepted₃⟩ :=
      endGroup_cycle m b.toFeed hcycle₂ hexit hsent
    refine ⟨hend, d₃, _, hcycle₃, haccepted₁.trans (haccepted₂.trans haccepted₃), ?_⟩
    rw [List.nil_append, List.append_nil]
    exact hrehearsed

/-! ### Sessions -/

/-- The `MT_EMIT`s of a cycle carry what the tests of the cycle have put out. -/
def Performed (env : Env) (m : UdfMeta) (p : UdfProg) (tables : List ExascriptTableData)
    (emits : List EmitRequest) : Prop :=
  ∃ rows, tableRows m.outputColumns (emits.map EmitRequest.table) = some rows ∧
    Rehearsed env m p (tests env m tables) rows

/-- Tests that pass foresee the groups. -/
theorem foreseen_of_tests {udf : LoadedUdf} (hudf : udf.run = fun _ => p)
    (hstream : m.singleCallMode = false)
    (hhook : ∀ w e, (Cleanup.runHook udf (.ok ()) w).1 ≠ .error e)
    (htestable : ∀ tables ∈ fx.cycles, Testable env m tables)
    (htests : ∀ tables ∈ fx.cycles, ∀ test ∈ tests env m tables,
      test.2.passes env.toExtern m p = true) :
    Foreseen fx env m udf (fun tables => Rehearsed env m p (tests env m tables)) False where
  single hsingle := by
    rw [hstream] at hsingle
    cases hsingle
  hook w e h := hhook w e h
  group {w d F G} hlog hstage hmem hcoupled := by
    have hcycle : InCycle fx (sends w.log ++ (sends G ++ F)) w d := ⟨⟨_, hcoupled, rfl⟩, hstage⟩
    have hsent : SentOf (sends w.log ++ (sends G ++ F)) (runGroup env m udf w).2 := by
      rw [SentOf, hlog, sends_append, ← List.append_assoc]
      exact List.prefix_append _ _
    obtain ⟨hres, d', rows, hcycle', ⟨G', hlog', hrows⟩, hrehearsed⟩ :=
      runGroup_rehearsed hudf hcycle (htestable _ hmem) (htests _ hmem) hsent
    obtain rfl : G = G' := List.append_cancel_left (hlog.symm.trans hlog')
    refine ⟨.inr ⟨hres, hcycle'.live⟩, fun _ _ => ?_⟩
    rw [hrows]
    exact hrehearsed

theorem performed_of_carries {cycles : List (List ExascriptTableData)}
    {emits : List (List EmitRequest)} {groups : List (List Event)}
    (hcarry : List.Forall₂ (Carries env m) emits groups)
    (hrows : List.Forall₂ (fun tables G => Rehearsed env m p (tests env m tables)
      (acceptedRows env.toExtern m.outputColumns G)) cycles groups) :
    List.Forall₂ (Performed env m p) cycles emits := by
  induction hrows generalizing emits with
  | nil =>
    cases hcarry
    exact .nil
  | cons hrow _ ih =>
    cases hcarry with
    | cons hfirst hrest => exact .cons ⟨_, hfirst, hrow⟩ (ih hrest)

/-- **What has been rehearsed is performed.**  Take a script that streams and loads, whose
invocations all run one program and whose cleanup hook does not fail, and the cycles of a mock
database, with batches that tests can stand for.  If its tests over the rows of the cycles pass
(`TestDouble.passes`: the host accepts every call and every output row), then any joint session ends
well on both sides, and cycle by cycle the sink has seen the output of the tests, in order, each
output row with the number of an input row of its test. -/
theorem joint_rehearsed {σ : Type} {rt : Runtime} {sink : EmitSink σ} {st : σ}
    (hext : env.toExtern.Documented) (j : Joint rt env fx sink st) {udf : LoadedUdf}
    (hload : Runtime.loadUdf env fx.udfMeta = .ok udf) (hudf : udf.run = fun _ => p)
    (hstream : fx.udfMeta.singleCallMode = false)
    (hhook : ∀ w e, (Cleanup.runHook udf (.ok ()) w).1 ≠ .error e)
    (htestable : ∀ tables ∈ fx.cycles, Testable env fx.udfMeta tables)
    (htests : ∀ tables ∈ fx.cycles, ∀ test ∈ tests env fx.udfMeta tables,
      test.2.passes env.toExtern fx.udfMeta p = true) :
    j.session.1 = .ok () ∧ j.driver.1 = .ok () ∧ ∃ emits : List (List EmitRequest),
      j.driver.2.1 = observed sink emits.flatten st ∧
      List.Forall₂ (Performed env fx.udfMeta p) fx.cycles emits := by
  have hrefused : ∀ code e, Runtime.loadUdf env fx.udfMeta = .error (code, e) → False := by
    intro code e h
    rw [hload] at h
    cases h
  have hforeseen : ∀ udf', Runtime.loadUdf env fx.udfMeta = .ok udf' →
      Foreseen fx env fx.udfMeta udf'
        (fun tables => Rehearsed env fx.udfMeta p (tests env fx.udfMeta tables)) False := by
    intro udf' h
    obtain rfl : udf = udf' := Except.ok.inj (hload.symm.trans h)
    exact foreseen_of_tests hudf hstream hhook htestable htests
  have hok : j.session.1 = .ok () := by
    obtain ⟨w, H, -, -, -, hends⟩ := j.meets hext hrefused hforeseen
    generalize j.session = r at hends ⊢
    cases hends with
    | finished => rfl
    | closed _ hB => exact hB.elim
    | lost hB => exact hB.elim
  obtain ⟨hdriver, emits, hsink, -, hcarry, hrows⟩ := j.delivers hext hrefused hforeseen hok
  exact ⟨hok, hdriver, emits, hsink, performed_of_carries hcarry hrows⟩

/-- A SET script that emits its first row, over two cycles of which the first has two batches. -/
theorem joint_rehearsed_sample :
    let p : UdfProg := .call .next fun _ => .call (.get 0) fun ans =>
      .call (.emit (match ans with | .value v => [v] | _ => [])) fun _ => .done ⟨0, ""⟩
    let udf := LoadedUdf.emitting fun _ => p
    let env := Env.reference udf
    let fx := Fixture.integers 2 2 [[[1, 2], [3]], [[4]]]
    ∃ j : Joint ⟨"rust"⟩ env fx EmitCounters.observe .default,
      j.session.1 = .ok () ∧ j.driver.1 = .ok () ∧ ∃ emits : List (List EmitRequest),
        j.driver.2.1 = observed EmitCounters.observe emits.flatten .default ∧
        List.Forall₂ (Performed env fx.udfMeta p) fx.cycles emits := by
  intro p udf env fx
  let responses := [Session.infoReply fx.info, Session.metaReply fx.metadata] ++
    (fx.cycles.flatMap fun tables => reply .mtRun :: (tables.take 1).map nextReply ++
      [reply .mtEmit, reply .mtDone]) ++ [reply .mtCleanup, reply .mtFinished]
  have hreplies : responses = fx.peer.replies (start fx.cycles)
      (sends ((Runtime.mk "rust").run env responses).2.log) := by decide +kernel
  have hext : env.toExtern.Documented := Extern.reference_documented
  let j : Joint ⟨"rust"⟩ env fx EmitCounters.observe .default := .ofReplies hext _ _ hreplies
  have htestable : ∀ tables ∈ fx.cycles, Testable env fx.udfMeta tables := by
    intro tables hmem
    have hall : (fx.cycles.all fun tables => tables.all fun table =>
        Decodes env fx.udfMeta table && decide (0 < table.rows)) = true := by decide +kernel
    have htables := List.all_eq_true.mp (List.all_eq_true.mp hall tables hmem)
    constructor
    · intro table ht
      exact (Bool.and_eq_true_iff.mp (htables table ht)).1
    · intro _ table ht
      exact of_decide_eq_true (Bool.and_eq_true_iff.mp (htables table ht)).2
  have htests : ∀ tables ∈ fx.cycles, ∀ test ∈ tests env fx.udfMeta tables,
      test.2.passes env.toExtern fx.udfMeta p = true := by
    intro tables hmem test htest
    have hall : (fx.cycles.all fun tables => (tests env fx.udfMeta tables).all fun test =>
        test.2.passes env.toExtern fx.udfMeta p) = true := by decide +kernel
    exact List.all_eq_true.mp (List.all_eq_true.mp hall tables hmem) test htest
  have hload : Runtime.loadUdf env fx.udfMeta = .ok udf := by
    have hpath : parseUdfObjectPath fx.udfMeta.sourceCode = some "/f.so" := by
      decide +kernel
    unfold Runtime.loadUdf
    rw [hpath]
    rfl
  exact ⟨j, joint_rehearsed hext j hload rfl rfl (fun w e h => by cases h) htestable htests⟩

end MockDb

end ExaUdf
