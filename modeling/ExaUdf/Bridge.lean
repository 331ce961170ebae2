import ExaUdf.EmitPack
import ExaUdf.Wire

/-!
# The context of a streaming UDF

`HostContextBridge` is the context that `run` gets.  It joins the input rows, the emit buffer and
the wire: `next` fetches further batches when the rows drain, and `emit`, `setReturn` and
`emitBatch` send an `MT_EMIT` whenever the buffer reaches its threshold.

A database that ends the session in the middle of a group is noted in `exit`, for `runGroup` to
read once the UDF has returned.
-/

namespace ExaUdf

/-! ### Fetching -/

/-- How a group's input ended, when not at the group boundary. -/
inductive GroupExit where
  | session
  | closed (message : Option String)
  deriving DecidableEq, Repr

/-- What the batch fetcher reads and writes. -/
structure Feed where
  world : World
  exit : Option GroupExit

namespace Feed

def push (fd : Feed) (e : Event) : Feed :=
  { fd with world := fd.world.push e }

/-- The feed after an exchange. -/
def exchange (env : Env) (f : Frame) (fd : Feed) : Feed :=
  { fd with world := (fd.world.request env f).2 }

/-- One `MT_NEXT` exchange. -/
def fetchStep (env : Env) (fd : Feed) :
    (Except UdfError (Option ExascriptTableData) × Feed) ⊕ Feed :=
  match fd.world.request env (.request fd.world.proto.nextRequest) with
  | (.error e, w) => .inl (.error (.connectBack e.display), { fd with world := w })
  | (.ok event, w) =>
    match event with
    | .nextData table => .inl (.ok (some table), { fd with world := w })
    | .done => .inl (.ok none, { fd with world := w })
    | .cleanup => .inl (.ok none, ⟨w, some .session⟩)
    | .close message => .inl (.ok none, ⟨w, some (.closed message)⟩)
    -- `MT_TRY_AGAIN` and `MT_RESET`, and whatever else a database may answer
    | _ => .inr { fd with world := w }

theorem fetchStep_world (env : Env) (fd : Feed) :
    ((fd.fetchStep env).elim Prod.snd id).world
      = (fd.world.request env (.request fd.world.proto.nextRequest)).2 := by
  unfold fetchStep
  split <;> rename_i hr <;> rw [hr]
  · rfl
  · split <;> rfl

theorem fetchStep_decreases (env : Env) (fd fd' : Feed) (h : fd.fetchStep env = .inr fd') :
    fd'.world.weight < fd.world.weight := by
  have hweight := World.request_weight env (.request fd.world.proto.nextRequest) fd.world
  unfold fetchStep at h
  rcases hr : fd.world.request env (.request fd.world.proto.nextRequest) with ⟨e | event, w⟩
  · rw [hr] at h
    cases h
  · rw [hr] at h hweight
    have hlt := hweight.2 event rfl
    cases event <;> cases h <;> dsimp only at hlt ⊢ <;> omega

def fetchLoop (env : Env) :
    Loop Feed (Except UdfError (Option ExascriptTableData) × Feed) where
  step := fetchStep env
  variant := fun fd => fd.world.weight
  decreases := fetchStep_decreases env

/-- Pull the next `MT_NEXT` batch, or `none` at the end of the group. -/
def fetch (env : Env) (fd : Feed) : Except UdfError (Option ExascriptTableData) × Feed :=
  (fetchLoop env).run fd

theorem fetch_weight (env : Env) (fd : Feed) :
    (fd.fetch env).2.world.weight ≤ fd.world.weight ∧
      ∀ table, (fd.fetch env).1 = .ok (some table) →
        (fd.fetch env).2.world.weight + 1 + table.rows ≤ fd.world.weight := by
  refine (fetchLoop env).run_rule (P := fun fd' => fd'.world.weight ≤ fd.world.weight)
    (Q := fun r => r.2.world.weight ≤ fd.world.weight ∧
      ∀ table, r.1 = .ok (some table) → r.2.world.weight + 1 + table.rows ≤ fd.world.weight)
    ?_ ?_ (Nat.le_refl _)
  -- The round that ends the loop has taken the answer out of the inbox, with its rows.
  · intro fd₁ r hle hstep
    have hweight := World.request_weight env (.request fd₁.world.proto.nextRequest) fd₁.world
    change fd₁.fetchStep env = _ at hstep
    unfold fetchStep at hstep
    rcases hr : fd₁.world.request env (.request fd₁.world.proto.nextRequest) with ⟨e | event, w⟩
    · rw [hr] at hstep hweight
      cases hstep
      exact ⟨Nat.le_trans hweight.1 hle, fun _ h => nomatch h⟩
    · rw [hr] at hstep hweight
      have hlt := hweight.2 event rfl
      refine ⟨?_, fun table h => ?_⟩
      · cases event <;> cases hstep <;> dsimp only at hlt ⊢ <;> omega
      · cases event <;> cases hstep <;> cases h
        simp only [HostEvent.rows] at hlt
        dsimp only
        omega
  · intro fd₁ fd₂ hle hstep
    exact Nat.le_trans (Nat.le_of_lt (fetchStep_decreases env fd₁ fd₂ hstep)) hle

end Feed

/-! ### Flushing -/

/-- Send the buffered blocks as one `MT_EMIT`.  The event of the answer is not looked at. -/
def emitFlusher (env : Env) (table : EmitTable) (w : World) : Except UdfError Unit × World :=
  if table.rows = 0 then (.ok (), w)
  else
    match w.request env (.emit (w.proto.emitRequest table)) with
    | (.error e, w) => (.error (.connectBack e.display), w)
    -- Whatever event the answer stands for, the rows count as sent.
    | (.ok _, w) => (.ok (), w)

/-! ### The bridge -/

structure HostContextBridge extends Feed where
  input : InputRowSet
  emitBuf : EmitBuffer
  /-- `next` has been called. -/
  started : Bool
  lastError : Option String

namespace HostContextBridge

def new (feed : Feed) (input : InputRowSet) : HostContextBridge where
  toFeed := feed
  input := input
  emitBuf := EmitBuffer.new
  started := false
  lastError := none

def push (b : HostContextBridge) (e : Event) : HostContextBridge :=
  { b with world := b.world.push e }

/-- A bound for the rows that can still come under the cursor. -/
def measure (b : HostContextBridge) : Nat :=
  b.world.weight + (b.input.nRows - b.input.currentRow)

/-- One round of looking for a batch with rows. -/
def refillStep (env : Env) (m : UdfMeta) (b : HostContextBridge) :
    (Except UdfError Bool × HostContextBridge) ⊕ HostContextBridge :=
  match b.toFeed.fetch env with
  | (.error e, feed) => .inl (.error e, { b with toFeed := feed })
  | (.ok none, feed) => .inl (.ok false, { b with toFeed := feed })
  | (.ok (some table), feed) =>
    match b.input.reload env.toExtern table m.inputColumns with
    | (.error e, input) => .inl (.error e, { b with toFeed := feed, input := input })
    | (.ok (), input) =>
      -- An empty batch does not end the group.
      if input.isEmpty then .inr { b with toFeed := feed, input := input }
      else .inl (.ok true, { b with toFeed := feed, input := input })

theorem refillStep_decreases (env : Env) (m : UdfMeta) (b b' : HostContextBridge)
    (h : b.refillStep env m = .inr b') : b'.world.weight < b.world.weight := by
  have hweight := Feed.fetch_weight env b.toFeed
  unfold refillStep at h
  rcases hf : b.toFeed.fetch env with ⟨e | (- | table), feed⟩
  · rw [hf] at h
    cases h
  · rw [hf] at h
    cases h
  · rw [hf] at h hweight
    have hlt := hweight.2 table rfl
    rcases hr : b.input.reload env.toExtern table m.inputColumns with ⟨e | u, input⟩
    · simp only [hr, reduceCtorEq] at h
    · simp only [hr] at h
      split_ifs at h
      cases h
      dsimp only at hlt ⊢
      omega

def refillLoop (env : Env) (m : UdfMeta) :
    Loop HostContextBridge (Except UdfError Bool × HostContextBridge) where
  step := refillStep env m
  variant := fun b => b.world.weight
  decreases := refillStep_decreases env m

/-- Fetch batches until one with rows is loaded or the group ends. -/
def refill (env : Env) (m : UdfMeta) (b : HostContextBridge) :
    Except UdfError Bool × HostContextBridge :=
  (refillLoop env m).run b

/-- The next row of a SCALAR group, fetching a batch when the current one drains. -/
def advanceRow (env : Env) (m : UdfMeta) (b : HostContextBridge) :
    Except UdfError Bool × HostContextBridge :=
  match b.input.advance with
  | (true, input) => (.ok true, { b with input := input })
  | (false, input) => refill env m { b with input := input }

/-- Add one output row, and flush when the buffer has reached the threshold. -/
def pushOutputRow (env : Env) (m : UdfMeta) (b : HostContextBridge) (row : List Value) :
    Except UdfError Unit × HostContextBridge :=
  match checkOutputRow env.toExtern row m.outputColumns with
  | .error e => (.error e, b)
  | .ok rowCost =>
    let buf :=
      b.emitBuf.pushCosted env.toExtern row b.input.currentRowNumber m.outputColumns rowCost
    if buf.shouldFlush then
      let r := buf.flush (emitFlusher env) b.world
      (r.1, { b with emitBuf := r.2.1, world := r.2.2 })
    else (.ok (), { b with emitBuf := buf })

/-! ### Context methods -/

/-- Row output by hand is not for RETURNS. -/
def returnsOnly : UdfError :=
  .user "emit() is not allowed in RETURNS output context; return the value instead"

def get (b : HostContextBridge) (col : Nat) : GetAns :=
  match b.input.currentRowCells with
  -- A batch that did not decode has left a row count without cells.
  | none => .panic
  | some cells =>
    match cells[col]? with
    | some v => .value v
    | none => .error (.type ("column " ++ toString col ++ " out of range"))

def emit (env : Env) (m : UdfMeta) (b : HostContextBridge) (values : List Value) :
    Except UdfError Unit × HostContextBridge :=
  if m.outputIter = .exactlyOnce then (.error returnsOnly, b)
  else b.pushOutputRow env m values

def setReturn (env : Env) (m : UdfMeta) (b : HostContextBridge) (value : Option Value) :
    Except UdfError Unit × HostContextBridge :=
  b.pushOutputRow env m [value.getD .null]

def emitRecordBatch (env : Env) (m : UdfMeta) (b : HostContextBridge)
    (imported : Except UdfError RecordBatch) : Except UdfError Unit × HostContextBridge :=
  if m.outputIter = .exactlyOnce then (.error returnsOnly, b)
  else
    match imported with
    | .error e => (.error e, b)
    | .ok batch =>
      let r := b.emitBuf.pushBatch env.toExtern batch m.outputColumns b.input.currentRowNumber
        (emitFlusher env) b.world
      (r.1, { b with emitBuf := r.2.1, world := r.2.2 })

def next (env : Env) (m : UdfMeta) (b : HostContextBridge) :
    Except UdfError Bool × HostContextBridge :=
  match m.inputIter with
  | .exactlyOnce => (.error (.user "next() is not allowed in scalar context"), b)
  | .multiple =>
    if b.started then b.advanceRow env m
    else
      -- The first call stays on the row that the group begins with.
      let b := { b with started := true }
      if b.input.isEmpty then b.refill env m else (.ok true, b)

def connection (env : Env) (b : HostContextBridge) (name : String) :
    Except UdfError ConnInfo × HostContextBridge :=
  match connRequester env name b.world with
  -- Recorded, so that it explains the failure of the invocation.
  | (.error e, w) => (.error e, { b with world := w, lastError := some e.display })
  | (.ok ci, w) => (.ok ci, { b with world := w })

/-- Answer a call of a context method. -/
def answer (env : Env) (m : UdfMeta) (op : CtxOp) (b : HostContextBridge) :
    CtxAns op × HostContextBridge :=
  match op with
  | .get col => (b.get col, b)
  | .emit values => b.emit env m values
  | .setReturn value => b.setReturn env m value
  | .emitBatch imported => b.emitRecordBatch env m imported
  | .next => b.next env m
  | .connection name => b.connection env name
  | .rowsInGroup => (b.input.rowsInGroup, b)
  | .outside recorded => ((), { b with lastError := recorded.or b.lastError })

/-- Answer a call and note it in the history. -/
def handle (env : Env) (m : UdfMeta) (op : CtxOp) (b : HostContextBridge) :
    CtxAns op × HostContextBridge :=
  let r := b.answer env m op
  (r.1, r.2.push (.call b.input.currentRowNumber op r.1))

end HostContextBridge

/-! ### What every exchange of a group respects -/

/-- A relation that the exchanges of an invocation respect, apart from those that fetch. -/
structure Feed.WriteRel (env : Env) (R : Feed → Feed → Prop) : Prop where
  refl : ∀ fd, R fd fd
  trans : ∀ {a b c}, R a b → R b c → R a c
  emit : ∀ fd table, 0 < table.rows →
    R fd (fd.exchange env (.emit (fd.world.proto.emitRequest table)))
  lookup : ∀ fd name,
    R fd (fd.exchange env (.request (fd.world.proto.importConnectionRequest name)))

/-- A relation that the exchanges of a group respect: those that fetch, flush and look up. -/
structure Feed.Rel (env : Env) (R : Feed → Feed → Prop) : Prop extends Feed.WriteRel env R where
  next : ∀ fd, R fd ((fd.fetchStep env).elim Prod.snd id)

/-- A relation that the exchanges that fetch respect. -/
structure Feed.FetchRel (env : Env) (R : Feed → Feed → Prop) : Prop where
  refl : ∀ fd, R fd fd
  trans : ∀ {a b c}, R a b → R b c → R a c
  next : ∀ fd, R fd ((fd.fetchStep env).elim Prod.snd id)

theorem Feed.Rel.toFetchRel {env : Env} {R : Feed → Feed → Prop} (h : Feed.Rel env R) :
    Feed.FetchRel env R :=
  ⟨h.refl, h.trans, h.next⟩

theorem Feed.FetchRel.fetch {env : Env} {R : Feed → Feed → Prop} (h : Feed.FetchRel env R)
    (fd : Feed) : R fd (fd.fetch env).2 :=
  (Feed.fetchLoop env).run_rel id Prod.snd h.refl h.trans h.next fd

namespace Feed.WriteRel

variable {env : Env} {R : Feed → Feed → Prop}

theorem emitFlusher (h : Feed.WriteRel env R) (fd : Feed) (table : EmitTable) :
    R fd { fd with world := (ExaUdf.emitFlusher env table fd.world).2 } := by
  unfold ExaUdf.emitFlusher
  split_ifs with hrows
  · exact h.refl fd
  · have hemit := h.emit fd table (Nat.pos_of_ne_zero hrows)
    unfold Feed.exchange at hemit
    split <;> rename_i hr <;> rw [hr] at hemit <;> exact hemit

theorem connRequester (h : Feed.WriteRel env R) (fd : Feed) (name : String) :
    R fd { fd with world := (ExaUdf.connRequester env name fd.world).2 } :=
  connRequester_rel (R := fun w w' => R { fd with world := w } { fd with world := w' })
    (h.lookup fd name)

end Feed.WriteRel

namespace HostContextBridge

variable {env : Env} {R : Feed → Feed → Prop} (m : UdfMeta)

theorem refillStep_rel (h : Feed.FetchRel env R) (b : HostContextBridge) :
    R b.toFeed ((b.refillStep env m).elim (fun r => r.2.toFeed) toFeed) := by
  have hfetch := h.fetch b.toFeed
  unfold refillStep
  split <;> rename_i hf <;> rw [hf] at hfetch
  · exact hfetch
  · exact hfetch
  · split
    · exact hfetch
    · split_ifs <;> exact hfetch

theorem refill_rel (h : Feed.FetchRel env R) (b : HostContextBridge) :
    R b.toFeed (b.refill env m).2.toFeed :=
  (refillLoop env m).run_rel toFeed (fun r => r.2.toFeed) h.refl h.trans (refillStep_rel m h) b

theorem advanceRow_rel (h : Feed.FetchRel env R) (b : HostContextBridge) :
    R b.toFeed (b.advanceRow env m).2.toFeed := by
  unfold advanceRow
  split
  · exact h.refl _
  · rename_i input _
    exact refill_rel m h { b with input := input }

theorem pushOutputRow_rel (h : Feed.WriteRel env R) (b : HostContextBridge) (row : List Value) :
    R b.toFeed (b.pushOutputRow env m row).2.toFeed := by
  unfold pushOutputRow
  split
  · exact h.refl _
  · dsimp only
    split_ifs
    · exact h.emitFlusher b.toFeed _
    · exact h.refl _

theorem emitRecordBatch_rel (h : Feed.WriteRel env R) (b : HostContextBridge)
    (imported : Except UdfError RecordBatch) :
    R b.toFeed (b.emitRecordBatch env m imported).2.toFeed := by
  unfold emitRecordBatch
  split_ifs
  · exact h.refl _
  split
  · exact h.refl _
  · exact EmitBuffer.pushBatch_rel (R := fun w w' => R { b.toFeed with world := w }
      { b.toFeed with world := w' }) (fun w => h.refl _) h.trans
      (fun table w => h.emitFlusher { b.toFeed with world := w } table) b.emitBuf _ _ _ b.world

theorem next_rel (h : Feed.FetchRel env R) (b : HostContextBridge) :
    R b.toFeed (b.next env m).2.toFeed := by
  unfold next
  split
  · exact h.refl _
  · dsimp only
    split_ifs
    · exact advanceRow_rel m h b
    · exact refill_rel m h { b with started := true }
    · exact h.refl _

theorem connection_rel (h : Feed.WriteRel env R) (b : HostContextBridge) (name : String) :
    R b.toFeed (b.connection env name).2.toFeed := by
  have hreq := h.connRequester b.toFeed name
  unfold connection
  split <;> rename_i hr <;> rw [hr] at hreq <;> exact hreq

/-- Whatever a UDF calls respects the relation, if `next` does. -/
theorem answer_write (h : Feed.WriteRel env R) (op : CtxOp) (b : HostContextBridge)
    (hnext : op = .next → R b.toFeed (b.next env m).2.toFeed) :
    R b.toFeed (b.answer env m op).2.toFeed := by
  cases op with
  | get col => exact h.refl _
  | emit values =>
    show R b.toFeed (b.emit env m values).2.toFeed
    unfold emit
    split_ifs
    · exact h.refl _
    · exact pushOutputRow_rel m h b values
  | setReturn value => exact pushOutputRow_rel m h b _
  | emitBatch imported => exact emitRecordBatch_rel m h b imported
  | next => exact hnext rfl
  | connection name => exact connection_rel h b name
  | rowsInGroup => exact h.refl _
  | outside recorded => exact h.refl _

/-- **Exchange rule for context methods**: whatever a UDF calls, the relation is respected. -/
theorem answer_rel (h : Feed.Rel env R) (op : CtxOp) (b : HostContextBridge) :
    R b.toFeed (b.answer env m op).2.toFeed :=
  answer_write m h.toWriteRel op b fun _ => next_rel m h.toFetchRel b

/-! ### The measure -/

theorem feedRel_weight (env : Env) :
    Feed.Rel env fun fd fd' => fd'.world.weight ≤ fd.world.weight where
  refl _ := Nat.le_refl _
  trans hab hbc := Nat.le_trans hbc hab
  next fd := by
    rw [Feed.fetchStep_world]
    exact (World.request_weight env _ fd.world).1
  emit fd _ _ := (World.request_weight env _ fd.world).1
  lookup fd _ := (World.request_weight env _ fd.world).1

theorem refillStep_measure (env : Env) (b : HostContextBridge) :
    ((b.refillStep env m).elim Prod.snd id).measure ≤ b.measure ∧
      ∀ b', b.refillStep env m = .inl (.ok true, b') → b'.measure < b.world.weight := by
  have hweight := Feed.fetch_weight env b.toFeed
  unfold refillStep measure
  split <;> rename_i hf <;> rw [hf] at hweight
  · exact ⟨Nat.add_le_add_right hweight.1 _, fun _ h => nomatch h⟩
  · exact ⟨Nat.add_le_add_right hweight.1 _, fun _ h => nomatch h⟩
  · rename_i table feed
    have hlt : feed.world.weight + 1 + table.rows ≤ b.world.weight := hweight.2 table rfl
    split <;> rename_i input hr
    · obtain ⟨hrows, hcur⟩ := InputRowSet.reload_error hr
      refine ⟨?_, fun _ h => nomatch h⟩
      show feed.world.weight + (input.nRows - input.currentRow) ≤ _
      rw [hrows, hcur]
      omega
    · obtain ⟨hrows, hcur⟩ := InputRowSet.decode_ok (InputRowSet.reload_ok hr)
      have hle : feed.world.weight + (input.nRows - input.currentRow) < b.world.weight := by
        rw [hrows, hcur]
        omega
      split_ifs
      · exact ⟨show feed.world.weight + (input.nRows - input.currentRow) ≤ _ by omega,
          fun _ h => nomatch h⟩
      · refine ⟨show feed.world.weight + (input.nRows - input.currentRow) ≤ _ by omega, ?_⟩
        intro b' h
        cases h
        exact hle

/-- Loading a batch uses up more of the responses to come than it has rows. -/
theorem refill_measure (env : Env) (b : HostContextBridge) :
    (b.refill env m).2.measure ≤ b.measure ∧
      ((b.refill env m).1 = .ok true → (b.refill env m).2.measure < b.world.weight) := by
  refine (refillLoop env m).run_rule
    (P := fun b' => b'.measure ≤ b.measure ∧ b'.world.weight ≤ b.world.weight)
    (Q := fun r => r.2.measure ≤ b.measure ∧ (r.1 = .ok true → r.2.measure < b.world.weight))
    ?_ ?_ ⟨Nat.le_refl _, Nat.le_refl _⟩
  · intro b₁ r hle hstep
    change b₁.refillStep env m = _ at hstep
    have hround := refillStep_measure m env b₁
    rw [hstep] at hround
    refine ⟨Nat.le_trans hround.1 hle.1, fun hres => ?_⟩
    obtain ⟨res, b₂⟩ := r
    cases hres
    exact Nat.lt_of_lt_of_le (hround.2 b₂ rfl) hle.2
  · intro b₁ b₂ hle hstep
    change b₁.refillStep env m = _ at hstep
    have hround := refillStep_measure m env b₁
    rw [hstep] at hround
    have hdec := refillStep_decreases env m b₁ b₂ hstep
    exact ⟨Nat.le_trans hround.1 hle.1, Nat.le_trans (Nat.le_of_lt hdec) hle.2⟩

theorem advanceRow_measure (env : Env) (b : HostContextBridge) :
    (b.advanceRow env m).2.measure ≤ b.measure ∧
      ((b.advanceRow env m).1 = .ok true → (b.advanceRow env m).2.measure < b.measure) := by
  unfold advanceRow InputRowSet.advance
  split_ifs with hmore
  · have hlt : b.world.weight + (b.input.nRows - (b.input.currentRow + 1)) < b.measure := by
      unfold measure
      omega
    exact ⟨Nat.le_of_lt hlt, fun _ => hlt⟩
  · have hrefill := refill_measure m env b
    exact ⟨hrefill.1, fun h => Nat.lt_of_lt_of_le (hrefill.2 h) (Nat.le_add_right _ _)⟩

theorem pushOutputRow_cursor (env : Env) (b : HostContextBridge) (row : List Value) :
    (b.pushOutputRow env m row).2.input = b.input ∧
      (b.pushOutputRow env m row).2.started = b.started := by
  unfold pushOutputRow
  split
  · exact ⟨rfl, rfl⟩
  · dsimp only
    split_ifs <;> exact ⟨rfl, rfl⟩

/-- Only `next` moves the cursor. -/
theorem answer_cursor (env : Env) {op : CtxOp} (hop : op ≠ .next) (b : HostContextBridge) :
    (b.answer env m op).2.input = b.input ∧ (b.answer env m op).2.started = b.started := by
  cases op with
  | get col => exact ⟨rfl, rfl⟩
  | emit values =>
    show (b.emit env m values).2.input = _ ∧ (b.emit env m values).2.started = _
    unfold emit
    split_ifs
    · exact ⟨rfl, rfl⟩
    · exact pushOutputRow_cursor m env b values
  | setReturn value => exact pushOutputRow_cursor m env b _
  | emitBatch imported =>
    show (b.emitRecordBatch env m imported).2.input = _ ∧
      (b.emitRecordBatch env m imported).2.started = _
    unfold emitRecordBatch
    split_ifs
    · exact ⟨rfl, rfl⟩
    split <;> exact ⟨rfl, rfl⟩
  | next => exact absurd rfl hop
  | connection name =>
    show (b.connection env name).2.input = _ ∧ (b.connection env name).2.started = _
    unfold connection
    split <;> exact ⟨rfl, rfl⟩
  | rowsInGroup => exact ⟨rfl, rfl⟩
  | outside recorded => exact ⟨rfl, rfl⟩

theorem handle_measure (env : Env) (op : CtxOp) (b : HostContextBridge) :
    (b.handle env m op).2.measure ≤ b.measure := by
  show (b.answer env m op).2.measure ≤ b.measure
  by_cases hop : op = .next
  · subst hop
    show (b.next env m).2.measure ≤ b.measure
    unfold next
    split
    · exact Nat.le_refl _
    · dsimp only
      split_ifs
      · exact (advanceRow_measure m env b).1
      · exact (refill_measure m env { b with started := true }).1
      · exact Nat.le_refl _
  · unfold measure
    rw [(answer_cursor m env hop b).1]
    exact Nat.add_le_add_right (answer_rel m (feedRel_weight env) op b) _

end HostContextBridge

end ExaUdf
