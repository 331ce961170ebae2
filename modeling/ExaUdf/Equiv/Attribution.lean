import ExaUdf.Equiv.Points
import ExaUdf.Equiv.Pushed

/-!
# The row numbers of output rows

An output row carries the number of the row under the cursor.  `runGroup_attributed`: that is the
number of the row delivered last, exactly if no row is pushed while the last batch is empty, unless
its number happens to be 0.  A SET group can push such rows once `next` has come to an empty batch
at the end of the input (`runGroup_not_attributed`).
-/

namespace ExaUdf

open History

variable {env : Env} {m : UdfMeta} {G : List Event}

/-! ### Rows of a push -/

theorem Push.rowNumber_of_mem {ext : Extern} {cols : List ColumnInfo} {p : Push} {row : WireRow}
    (h : row ∈ p.rows ext cols) :
    row.rowNumber = match p with
      | .row rowNumber _ => rowNumber
      | .batch rowNumber _ => rowNumber := by
  cases p with
  | row rowNumber values =>
    unfold Push.rows Push.pricedRows at h
    dsimp only at h
    split at h
    · obtain rfl := List.mem_singleton.mp h
      rfl
    · cases h
  | batch rowNumber batch =>
    unfold Push.rows Push.pricedRows at h
    dsimp only at h
    split at h
    · rw [List.map_map] at h
      obtain ⟨r, -, rfl⟩ := List.mem_map.mp h
      rfl
    · cases h

/-- The rows of a call carry the number that was current when it was made. -/
theorem Event.rowNumber_of_mem {rowNumber : UInt64} {op : CtxOp} {ans : CtxAns op} {row : WireRow}
    (h : row ∈ (Event.call rowNumber op ans).pushedRows env m) : row.rowNumber = rowNumber := by
  unfold Event.pushedRows at h
  change row ∈ (op.push? m rowNumber ans).elim [] _ at h
  cases op with
  | emit values =>
    unfold CtxOp.push? at h
    dsimp only at h
    split_ifs at h
    · cases h
    · exact Push.rowNumber_of_mem h
  | setReturn value => exact Push.rowNumber_of_mem h
  | emitBatch imported =>
    cases imported with
    | error e => cases h
    | ok batch =>
      unfold CtxOp.push? at h
      dsimp only at h
      split_ifs at h
      · cases h
      · exact Push.rowNumber_of_mem h
  | _ => cases h

theorem Event.pushedRows_next {rowNumber : UInt64} {ans : CtxAns .next} :
    (Event.call rowNumber .next ans).pushedRows env m = [] :=
  rfl

/-! ### Numbers -/

/-- The number of the row that was delivered last, or of the first row of a SET group. -/
def currentNumber? (env : Env) (m : UdfMeta) (events : List Event) : Option UInt64 :=
  (receivedNumbers env m events)[delivered m events - 1]?

/-- The rows that an event pushes carry the number of the row delivered last. -/
def CarriesNumber (env : Env) (m : UdfMeta) (before : List Event) (e : Event) : Prop :=
  ∀ row ∈ e.pushedRows env m, currentNumber? env m before = some row.rowNumber

/-- While the last batch is empty, rows are pushed only if the row delivered last has number 0. -/
def KeepsNumber (env : Env) (m : UdfMeta) (before : List Event) (e : Event) : Prop :=
  LastEmpty env m before → e.pushedRows env m ≠ [] → currentNumber? env m before = some 0

/-- Every output row carries the number of the row delivered last. -/
structure Attributed (env : Env) (m : UdfMeta) (G : List Event) : Prop where
  numbers : Always (CarriesNumber env m) G
  /-- What is sent are rows that were pushed, in order. -/
  rows : ∃ sent, sentRows m.outputColumns G = some sent ∧
    sent.Sublist (G.flatMap (Event.pushedRows env m))

theorem carriesNumber_iff_of_nil {before : List Event} {e : Event}
    (h : e.pushedRows env m = []) :
    CarriesNumber env m before e ↔ KeepsNumber env m before e := by
  refine iff_of_true (fun row hrow => ?_) fun _ hne => absurd h hne
  rw [h] at hrow
  cases hrow

/-- **The number of a pushed row.** -/
theorem Reading.carriesNumber_iff {b : HostContextBridge} (h : Reading env m G b)
    (hnumbered : Numbered G) (op : CtxOp) (ans : CtxAns op) :
    CarriesNumber env m G (.call b.input.currentRowNumber op ans) ↔
      KeepsNumber env m G (.call b.input.currentRowNumber op ans) := by
  obtain ⟨old, hloaded⟩ := h.position.loaded
  rcases h.onRow with hrow | ⟨hempty, -⟩
  · -- The cursor is on the row delivered last.
    obtain ⟨old, hloaded, hpos⟩ := h.position.index hrow
    refine iff_of_true (fun row hmem => ?_) fun hlast => ?_
    · rw [Event.rowNumber_of_mem hmem, currentNumber?, hpos]
      exact hloaded.number hnumbered hrow
    · have hzero := hloaded.lastEmpty_iff.mp hlast
      omega
  · -- An empty batch has no number but the default.
    have hnumber : b.input.currentRowNumber = 0 := by
      unfold InputRowSet.currentRowNumber
      rw [hloaded.rowNumbers_nil hempty]
      rfl
    rw [hnumber]
    constructor
    · intro hcarries _ hne
      obtain ⟨row, hrow⟩ := List.exists_mem_of_ne_nil _ hne
      rw [hcarries row hrow, Event.rowNumber_of_mem hrow]
    · intro hkeeps row hrow
      rw [Event.rowNumber_of_mem hrow]
      exact hkeeps (hloaded.lastEmpty_iff.mpr hempty) (List.ne_nil_of_mem hrow)

theorem pointRule_carriesNumber (env : Env) (m : UdfMeta) :
    PointRule env m (fun _ => True) fun before e =>
      Numbered before → (CarriesNumber env m before e ↔ KeepsNumber env m before e) where
  back := groupRel_true env
  wire _ hwire := fun _ => carriesNumber_iff_of_nil (Event.pushedRows_of_isNote hwire)
  start _ := fun _ => carriesNumber_iff_of_nil rfl
  stop _ _ := fun _ => carriesNumber_iff_of_nil rfl
  call {G events b op} _ hreading hwire hnone := by
    intro hnumbered
    have hidle : ∀ e ∈ events, e.isIdle = true := fun e he => Event.isIdle_of_isNote (hwire e he)
    have hsame : Reading env m (G ++ events) b := hreading.idle rfl rfl hidle hnone
    exact hsame.carriesNumber_iff hnumbered op _
  next _ _ _ _ _ := fun _ => carriesNumber_iff_of_nil Event.pushedRows_next

/-- **Row numbers.**  In a group whose batches number their rows, every output row carries the
number of the row delivered last, exactly if no row is pushed while the last batch is empty, or that
number is 0. -/
theorem runGroup_attributed (hext : env.toExtern.Documented) (m : UdfMeta) (udf : LoadedUdf)
    (w : World) (hlog : (runGroup env m udf w).2.log = w.log ++ G) (hnumbered : Numbered G) :
    Attributed env m G ↔ Always (KeepsNumber env m) G := by
  obtain ⟨G', hG', -, halways⟩ := runGroup_always (pointRule_carriesNumber env m) udf w
  obtain rfl : G = G' := List.append_cancel_left (hlog.symm.trans hG')
  have hiff : Always (CarriesNumber env m) G ↔ Always (KeepsNumber env m) G := by
    refine Always.iff fun before e after heq => halways trivial before e after heq ?_
    exact (heq ▸ hnumbered).of_append
  refine ⟨fun h => hiff.mp h.numbers, fun h => ⟨hiff.mpr h, ?_⟩⟩
  obtain ⟨G'', rows, sent, hlog', hpushed, hsent, hle, -⟩ := runGroup_pushed hext m udf w
  obtain rfl : G = G'' := List.append_cancel_left (hlog.symm.trans hlog')
  exact ⟨sent, hsent, hle.sublist.trans hpushed.sublist⟩

/-- An input batch whose rows have the numbers `numbers`. -/
def numberedResponse (numbers : List UInt64) : ExascriptResponse :=
  let table : ExascriptTableData :=
    { ExascriptTableData.empty with
      rows := numbers.length
      rowNumber := numbers
      dataNulls := numbers.map fun _ => false
      dataInt32 := numbers.map fun _ => 1 }
  { ExascriptResponse.ofType .mtNext with next := some table }

def Event.isNumbered (e : Event) : Bool :=
  e.batch?.all fun table => table.rows ≤ table.rowNumber.length

theorem Numbered.of_all (h : G.all Event.isNumbered = true) : Numbered G := by
  intro table ht
  obtain ⟨e, he, hbatch⟩ := List.mem_filterMap.mp ht
  have hnumbered := List.all_eq_true.mp h e he
  unfold Event.isNumbered at hnumbered
  rw [hbatch] at hnumbered
  exact of_decide_eq_true hnumbered

/-- A SCALAR group with an empty batch in between. -/
theorem runGroup_attributed_sample :
    let udf := LoadedUdf.emitting fun _ => .call (.emit [.int32 7]) fun _ => .done ⟨0, ""⟩
    let w := World.running [numberedResponse [5, 6], numberedResponse [], numberedResponse [9],
      .ofType .mtDone, .ofType .mtEmit]
    let env := Env.reference udf
    let m := integerMeta 1 2
    Attributed env m (runGroup env m udf w).2.log ↔
      Always (KeepsNumber env m) (runGroup env m udf w).2.log := by
  intro udf w env m
  have hlog : (runGroup env m udf w).2.log = w.log ++ (runGroup env m udf w).2.log := by
    rw [show w.log = [] from rfl, List.nil_append]
  exact runGroup_attributed Extern.reference_documented m udf w hlog
    (.of_all (by decide +kernel))

/-- Only numbers that were received are sent. -/
theorem Attributed.rowNumber_mem (h : Attributed env m G) {sent : List WireRow}
    (hsent : sentRows m.outputColumns G = some sent) {row : WireRow} (hrow : row ∈ sent) :
    row.rowNumber ∈ receivedNumbers env m G := by
  obtain ⟨sent', hsent', hsub⟩ := h.rows
  obtain rfl := Option.some.inj (hsent.symm.trans hsent')
  obtain ⟨e, he, hpushed⟩ := List.mem_flatMap.mp (hsub.subset hrow)
  obtain ⟨before, after, heq⟩ := List.append_of_mem he
  have hmem := List.mem_of_getElem? (h.numbers before e after heq row hpushed)
  rw [heq, receivedNumbers, loads_append, List.flatMap_append]
  exact List.mem_append_left _ hmem

/-- A SET group whose last batch is empty: a row emitted after the end carries the number 0. -/
theorem runGroup_not_attributed :
    ¬ ∀ (env : Env) (m : UdfMeta) (udf : LoadedUdf) (w : World) (G : List Event),
      env.toExtern.Documented → (runGroup env m udf w).2.log = w.log ++ G → Numbered G →
      Attributed env m G := by
  intro hclaim
  let udf := LoadedUdf.emitting fun _ => .call .next fun _ => .call .next fun _ =>
    .call (.emit [.int32 7]) fun _ => .done ⟨0, ""⟩
  let w := World.running [numberedResponse [5], numberedResponse [], .ofType .mtDone,
    .ofType .mtEmit]
  let env := Env.reference udf
  let m := integerMeta 2 2
  have hlog : (runGroup env m udf w).2.log = w.log ++ (runGroup env m udf w).2.log := by
    rw [show w.log = [] from rfl, List.nil_append]
  have hattributed := hclaim env m udf w _ Extern.reference_documented hlog
    (.of_all (by decide +kernel))
  have hsent : (sentRows m.outputColumns (runGroup env m udf w).2.log).map
      (List.map WireRow.rowNumber) = some [0] := by decide +kernel
  have hnumbers : receivedNumbers env m (runGroup env m udf w).2.log = [5] := by decide +kernel
  obtain ⟨sent, hrows, hzero⟩ := Option.map_eq_some_iff.mp hsent
  obtain ⟨row, hrow, hnumber⟩ := List.mem_map.mp (hzero ▸ List.mem_singleton.mpr rfl :
    (0 : UInt64) ∈ sent.map WireRow.rowNumber)
  have hmem := hattributed.rowNumber_mem hrows hrow
  rw [hnumber, hnumbers] at hmem
  exact absurd hmem (by decide)

end ExaUdf
