import ExaUdf.Equiv.Points

/-!
# Every row once

`runGroup_perRow`: a SCALAR group invokes its UDF once for each row received, in order, and each
invocation reads its own row.  `runGroup_iterates`: a SET group invokes it once, and `next` goes
over the rows received, one by one, until the database has said that there are no more.
-/

namespace ExaUdf

open History HostContextBridge

variable {env : Env} {m : UdfMeta} {G : List Event}

/-! ### Well served groups -/

/-- How a database serves the input of a group: it answers every `MT_NEXT`, without ending the
session, its strings are UTF-8, and no request is left without an answer. -/
structure Served (G : List Event) (w : World) : Prop where
  live : w.dead = false
  answers : ∀ f res, Event.answered f res ∈ G → f.asksNext = true →
    ∃ event, res = .ok event ∧ event ≠ .cleanup ∧ ∀ message, event ≠ .close message
  text : ∀ table ∈ batchesOf G, ∀ bs ∈ table.dataString, (Utf8.text? bs).isSome = true

/-- The event is not an `MT_NEXT` answered otherwise. -/
def Event.isServed : Event → Bool
  | .answered f (.ok event) => !f.asksNext || !(event matches .cleanup | .close _)
  | .answered f (.error _) => !f.asksNext
  | _ => true

theorem Served.of_all {w : World} (hlive : w.dead = false)
    (hanswers : G.all Event.isServed = true)
    (htext : ((batchesOf G).all fun table =>
      table.dataString.all fun bs => (Utf8.text? bs).isSome) = true) : Served G w where
  live := hlive
  answers f res hmem hasks := by
    have hserved := List.all_eq_true.mp hanswers _ hmem
    cases res with
    | error e => simp [Event.isServed, hasks] at hserved
    | ok event =>
      refine ⟨event, rfl, ?_⟩
      cases event <;> simp [Event.isServed, hasks] at hserved ⊢
  text table ht bs hbs := by
    have hall := List.all_eq_true.mp htext table ht
    exact List.all_eq_true.mp hall bs hbs

/-- The database has said that there are no more rows. -/
def SaidDone (events : List Event) : Prop :=
  ∃ f, Event.answered f (.ok .done) ∈ events ∧ f.asksNext = true

/-- What `get` says about a row. -/
def cellAns (cells : List Value) (col : Nat) : GetAns :=
  match cells[col]? with
  | some v => .value v
  | none => .error (.type ("column " ++ toString col ++ " out of range"))

/-- A batch whose strings are UTF-8 decodes. -/
theorem decodes_of_text {table : ExascriptTableData}
    (h : ∀ bs ∈ table.dataString, (Utf8.text? bs).isSome = true) : Decodes env m table = true := by
  obtain ⟨rs, hrs⟩ := @InputRowSet.decode_of_text env.toExtern _ m.inputColumns h
  unfold Decodes
  rw [hrs]
  rfl

namespace Served

variable {w : World}

theorem of_append {events : List Event} {w' : World} (h : Served (G ++ events) w')
    (hlive : w.dead = false) : Served G w where
  live := hlive
  answers f res hmem := h.answers f res (List.mem_append_left _ hmem)
  text table ht := h.text table (batchesOf_append G events ▸ List.mem_append_left _ ht)

theorem intact (h : Served G w) : Intact env m G :=
  fun table ht => decodes_of_text (h.text table ht)

theorem not_fault (h : Served G w) : ¬ Fault env m G w := by
  rintro (hlost | hdead | ⟨f, e, hmem, hasks⟩)
  · exact hlost h.intact
  · rw [h.live] at hdead
    cases hdead
  · obtain ⟨event, he, -⟩ := h.answers f _ hmem hasks
    cases he

/-- The input of a well served group ends by `MT_DONE`. -/
theorem eq_done (h : Served G w) {f : Frame} {event : HostEvent}
    (hmem : Event.answered f (.ok event) ∈ G) (hasks : f.asksNext = true)
    (hends : event.endsInput = true) : event = .done := by
  obtain ⟨event', heq, hcleanup, hclose⟩ := h.answers f _ hmem hasks
  obtain rfl := Except.ok.inj heq
  cases event with
  | done => rfl
  | cleanup => exact absurd rfl hcleanup
  | close message => exact absurd rfl (hclose message)
  | _ => cases hends

theorem saidDone (h : Served G w) (hfinished : Finished G) : SaidDone G := by
  obtain ⟨f, event, hmem, hasks, hends⟩ := hfinished
  obtain rfl := h.eq_done hmem hasks hends
  exact ⟨f, hmem, hasks⟩

end Served

/-! ### Reading rows -/

/-- While the cursor is on a row, `get` reads the row that was delivered last. -/
theorem Reading.get {b : HostContextBridge} (h : Reading env m G b) (hintact : Intact env m G)
    (hrow : b.input.currentRow < b.input.nRows) (col : Nat) :
    ∃ cells, (received env m G)[delivered m G - 1]? = some cells ∧
      b.get col = cellAns cells col := by
  obtain ⟨old, hloaded, hpos⟩ := h.position.index hrow
  refine ⟨b.input.rowCells b.input.currentRow, ?_, ?_⟩
  · rw [hpos]
    exact hloaded.row hintact hrow
  · unfold HostContextBridge.get
    rw [hloaded.currentRowCells hintact hrow]
    rfl

/-! ### SCALAR groups -/

/-- One invocation for each row. -/
structure PerRow (env : Env) (m : UdfMeta) (G : List Event) : Prop where
  /-- Every invocation has a row of its own, so there is none without rows. -/
  le : G.countP Event.isRunStart ≤ (received env m G).length
  /-- If none fails, every row has its invocation, and there are no more rows. -/
  all : Unfailed G → G.countP Event.isRunStart = (received env m G).length ∧ SaidDone G
  /-- An invocation reads its own row. -/
  get : ∀ before rowNumber col ans after, G = before ++ .call rowNumber (.get col) ans :: after →
    ∃ i cells, before.countP Event.isRunStart = i + 1 ∧ (received env m G)[i]? = some cells ∧
      ans = cellAns cells col
  /-- Nothing happens in the group after an invocation that fails. -/
  stop : ∀ before e after, G = before ++ .runEnd (.error e) :: after → after = []

theorem delivered_scalar (hm : m.inputIter = .exactlyOnce) :
    delivered m G = G.countP Event.isRunStart := by
  unfold delivered
  rw [hm]

theorem Reading.delivered_pos (hm : m.inputIter = .exactlyOnce) {b : HostContextBridge}
    (h : Reading env m G b) : 0 < delivered m G := by
  have hrow := h.onRow.resolve_right fun hset => by rw [hm] at hset; cases hset.2.1
  cases h.position with
  | first hset =>
    rw [hm] at hset
    cases hset
  | @row old _ _ hpos =>
    rw [hpos, Nat.min_eq_left hrow]
    omega

/-- What `PerRow` says of an event. -/
def ReadsOwnRow (env : Env) (m : UdfMeta) (before : List Event) (e : Event) : Prop :=
  Unfailed before ∧ ∀ rowNumber col ans, e = .call rowNumber (.get col) ans →
    Intact env m before → ∃ i cells, before.countP Event.isRunStart = i + 1 ∧
      (received env m before)[i]? = some cells ∧ ans = cellAns cells col

theorem pointRule_readsOwnRow (hm : m.inputIter = .exactlyOnce) :
    PointRule env m (fun _ => True) (ReadsOwnRow env m) where
  back := groupRel_true env
  wire hunfailed hwire := by
    refine ⟨hunfailed, ?_⟩
    rintro _ _ _ rfl
    cases hwire
  start hready := ⟨hready.unfailed, fun _ _ _ h => nomatch h⟩
  stop res hunfailed := ⟨hunfailed, fun _ _ _ h => nomatch h⟩
  call {G events b op} hop hreading hwire hnone := by
    have hidle : ∀ e ∈ events, e.isIdle = true := fun e he => Event.isIdle_of_isNote (hwire e he)
    refine ⟨hreading.unfailed.append (unfailed_idle hidle), ?_⟩
    rintro rowNumber col ans heq hintact
    obtain ⟨rfl, rfl, hans⟩ := Event.call.inj heq
    have hrow := hreading.onRow.resolve_right fun hset => by rw [hm] at hset; cases hset.2.1
    obtain ⟨cells, hcells, hget⟩ := hreading.get hintact.of_append hrow col
    refine ⟨delivered m G - 1, cells, ?_, ?_, (eq_of_heq hans).symm.trans hget⟩
    · rw [countP_isRunStart_idle hidle, ← delivered_scalar hm]
      have hpos := hreading.delivered_pos hm
      omega
    · rw [received_idle hnone]
      exact hcells
  next hset := by
    rw [hm] at hset
    cases hset

/-- **SCALAR groups.**  While invocations succeed there is one for each row, in order, and it reads
its own row; nothing follows one that fails. -/
theorem runGroup_perRow (hm : m.inputIter = .exactlyOnce) (udf : LoadedUdf) (w : World)
    (hlog : (runGroup env m udf w).2.log = w.log ++ G)
    (hserved : Served G (runGroup env m udf w).2) :
    PerRow env m G := by
  obtain ⟨G', hG', hended, halways⟩ := runGroup_always (@pointRule_readsOwnRow env _ hm) udf w
  obtain rfl : G = G' := List.append_cancel_left (hlog.symm.trans hG')
  unfold Ended at hended
  rw [hm] at hended
  refine ⟨hended.1, fun hunfailed => ?_, ?_, ?_⟩
  · obtain ⟨hruns, hend⟩ := hended.2 hunfailed
    exact ⟨hruns, hserved.saidDone (hend.resolve_left hserved.not_fault)⟩
  · rintro before rowNumber col ans after rfl
    obtain ⟨i, cells, hi, hcells, hans⟩ := (halways trivial before _ after rfl).2 _ _ _ rfl
      hserved.intact.of_append
    refine ⟨i, cells, hi, ?_, hans⟩
    rw [received_append]
    exact List.getElem?_append_left (List.getElem?_eq_some_iff.mp hcells).1 ▸ hcells
  · rintro before e after rfl
    cases after with
    | nil => rfl
    | cons x after =>
      have hnext := (halways trivial (before ++ [.runEnd (.error e)]) x after (by simp)).1
      exact absurd (List.mem_append_right _ (List.mem_singleton.mpr rfl)) (hnext e)

/-- Invocations that copy their row, over four batches of which one is empty. -/
theorem runGroup_perRow_sample :
    let udf := LoadedUdf.emitting fun _ => .call (.get 0) fun ans =>
      .call (.emit (match ans with | .value v => [v] | _ => [])) fun _ => .done ⟨0, ""⟩
    let w := World.running [batchResponse [1], batchResponse [], .ofType .mtTryAgain,
      batchResponse [2, 3], batchResponse [4], .ofType .mtDone, .ofType .mtEmit]
    let env := Env.reference udf
    let m := integerMeta 1 2
    PerRow env m (runGroup env m udf w).2.log := by
  intro udf w env m
  have hlog : (runGroup env m udf w).2.log = w.log ++ (runGroup env m udf w).2.log := by
    rw [show w.log = [] from rfl, List.nil_append]
  exact @runGroup_perRow env m _ rfl udf w hlog
    (.of_all (by decide +kernel) (by decide +kernel) (by decide +kernel))

/-! ### SET groups -/

/-- One invocation, which iterates over the rows. -/
structure Iterates (env : Env) (m : UdfMeta) (G : List Event) : Prop where
  /-- There is one invocation if there is a row. -/
  once : G.countP Event.isRunStart = if received env m G = [] then 0 else 1
  none : received env m G = [] → SaidDone G
  /-- Up to its first `false`, a `next` says `true` if the rows received go on, and `false` if the
  database has just said that there are no more rows and all of them have been delivered. -/
  next : ∀ before rowNumber ans after, G = before ++ .call rowNumber .next ans :: after →
    Iterating before →
      ans = .ok true ∧ before.countP Event.isNext < (received env m before).length ∨
      ans = .ok false ∧ before.countP Event.isNext = (received env m before).length ∧
        ∃ f, before.getLast? = some (.answered f (.ok .done)) ∧ f.asksNext = true
  /-- After so many `next`s `get` reads the row of this number. -/
  get : ∀ before rowNumber col ans after, G = before ++ .call rowNumber (.get col) ans :: after →
    Iterating before → ∃ cells,
      (received env m before)[before.countP Event.isNext - 1]? = some cells ∧
        ans = cellAns cells col

/-- What `Iterates` says of an event. -/
def ReadsOn (env : Env) (m : UdfMeta) (before : List Event) (e : Event) : Prop :=
  (∃ w, Served before w) → Iterating before →
    (∀ rowNumber ans, e = .call rowNumber .next ans →
      ans = .ok true ∧ before.countP Event.isNext < (received env m before).length ∨
      ans = .ok false ∧ before.countP Event.isNext = (received env m before).length ∧
        ∃ f, before.getLast? = some (.answered f (.ok .done)) ∧ f.asksNext = true) ∧
    ∀ rowNumber col ans, e = .call rowNumber (.get col) ans → ∃ cells,
      (received env m before)[before.countP Event.isNext - 1]? = some cells ∧
        ans = cellAns cells col

theorem groupRel_live (env : Env) :
    GroupRel env fun fd fd' => fd'.world.dead = false → fd.world.dead = false := by
  have hiff : ∀ w w' : World,
      (w.dead = true → w'.dead = true) ↔ (w'.dead = false → w.dead = false) := by
    intro w w'
    cases w.dead <;> cases w'.dead <;> simp
  have hdead := (sessionRel_dead env).dispatchRel.groupRel
  simpa only [hiff] using hdead

theorem delivered_set (hm : m.inputIter = .multiple) (h : Iterating G) :
    G.countP Event.isNext = delivered m G := by
  unfold delivered
  rw [hm]
  exact h.countP_isNext

theorem pointRule_readsOn (hm : m.inputIter = .multiple) :
    PointRule env m (fun w => w.dead = false) (ReadsOn env m) where
  back := groupRel_live env
  wire _ hwire := fun _ _ =>
    ⟨(by rintro _ _ rfl; cases hwire), (by rintro _ _ _ rfl; cases hwire)⟩
  start _ := fun _ _ => ⟨fun _ _ h => (nomatch h), fun _ _ _ h => nomatch h⟩
  stop res _ := fun _ _ => ⟨fun _ _ h => (nomatch h), fun _ _ _ h => nomatch h⟩
  call {G events b op} hop hreading hwire hnone := by
    rintro ⟨w, hserved⟩ hiterating
    refine ⟨?_, ?_⟩
    · rintro rowNumber ans heq
      -- A `next` that is no `next` of a SET group is one of a scalar group.
      obtain ⟨-, rfl, -⟩ := Event.call.inj heq
      have hscalar := hop rfl
      rw [hm] at hscalar
      cases hscalar
    · rintro rowNumber col ans heq
      obtain ⟨rfl, rfl, hans⟩ := Event.call.inj heq
      -- While every `next` delivers, the cursor is on a row.
      have hrow := hreading.onRow.resolve_right fun hstop => hstop.2.2 hiterating.of_append
      obtain ⟨cells, hcells, hget⟩ := hreading.get hserved.intact.of_append hrow col
      refine ⟨cells, ?_, (eq_of_heq hans).symm.trans hget⟩
      rw [received_idle hnone, delivered_set hm hiterating,
        delivered_idle fun e he => Event.isIdle_of_isNote (hwire e he)]
      exact hcells
  next {G b events} _ hreading hwire hspec hlive := by
    rintro ⟨w, hserved⟩ hiterating
    have hserved' : Served (G ++ events) (b.next env m).2.world :=
      ⟨hlive, hserved.answers, hserved.text⟩
    refine ⟨?_, fun _ _ _ h => nomatch h⟩
    rintro rowNumber ans heq
    obtain ⟨-, -, hans⟩ := Event.call.inj heq
    obtain rfl := eq_of_heq hans
    rw [delivered_set hm hiterating]
    generalize (b.next env m).1 = res at hspec
    obtain e | (- | -) := res
    -- The database serves the group, so no fetch fails.
    · exact absurd hspec hserved'.not_fault
    · obtain ⟨hall, f, event, hlast, hasks, hends⟩ := hspec
      obtain rfl := hserved.eq_done (List.mem_of_getLast? hlast) hasks hends
      exact .inr ⟨rfl, hall, f, hlast, hasks⟩
    · exact .inl ⟨rfl, hspec⟩

/-- **SET groups.**  There is one invocation if there is a row, and `next` goes over the rows, one
by one, until the database has said that there are no more. -/
theorem runGroup_iterates (hm : m.inputIter = .multiple) (udf : LoadedUdf) (w : World)
    (hlog : (runGroup env m udf w).2.log = w.log ++ G)
    (hserved : Served G (runGroup env m udf w).2) :
    Iterates env m G := by
  obtain ⟨G', hG', hended, halways⟩ := runGroup_always (@pointRule_readsOn env _ hm) udf w
  obtain rfl : G = G' := List.append_cancel_left (hlog.symm.trans hG')
  unfold Ended at hended
  rw [hm] at hended
  have hpoint : ∀ before e after, G = before ++ e :: after → ReadsOn env m before e ∧
      ∃ w, Served before w := by
    rintro before e after rfl
    exact ⟨halways hserved.live before e after rfl, _, hserved.of_append hserved.live⟩
  refine ⟨hended.1, fun hrows => ?_, ?_, ?_⟩
  · exact hserved.saidDone ((hended.2 hrows).resolve_left hserved.not_fault)
  · intro before rowNumber ans after heq hiterating
    obtain ⟨hreads, hbefore⟩ := hpoint before _ after heq
    exact (hreads hbefore hiterating).1 rowNumber ans rfl
  · intro before rowNumber col ans after heq hiterating
    obtain ⟨hreads, hbefore⟩ := hpoint before _ after heq
    exact (hreads hbefore hiterating).2 rowNumber col ans rfl

/-- An invocation that copies the first row and then calls `next` three times. -/
theorem runGroup_iterates_sample :
    let copy : UdfProg → UdfProg := fun rest => .call (.get 0) fun ans =>
      .call (.emit (match ans with | .value v => [v] | _ => [])) fun _ => rest
    let udf := LoadedUdf.emitting fun _ => .call .next fun _ => copy <| .call .next fun _ =>
      copy <| .call .next fun _ => .done ⟨0, ""⟩
    let w := World.running [batchResponse [], batchResponse [1], .ofType .mtReset,
      batchResponse [2], batchResponse [], .ofType .mtDone, .ofType .mtEmit]
    let env := Env.reference udf
    let m := integerMeta 2 2
    Iterates env m (runGroup env m udf w).2.log := by
  intro copy udf w env m
  have hlog : (runGroup env m udf w).2.log = w.log ++ (runGroup env m udf w).2.log := by
    rw [show w.log = [] from rfl, List.nil_append]
  exact @runGroup_iterates env m _ rfl udf w hlog
    (.of_all (by decide +kernel) (by decide +kernel) (by decide +kernel))

end ExaUdf
