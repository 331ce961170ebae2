import ExaUdf.Equiv.Input
import ExaUdf.Lib.History

/-!
# The position of the cursor

`delivered` counts the rows that a group has given to its UDF: by an invocation in a SCALAR group,
by `next` in a SET group.  While the UDF runs, the row under the cursor is the last one delivered,
or the first one of a SET group before its first `next` (`Reading`).

`runGroup_always` is the rule for facts about each event of a group: whoever runs is `Reading`, and
is `Ready` when an invocation starts.
-/

namespace ExaUdf

open History

variable {env : Env} {m : UdfMeta} {G events : List Event}

/-! ### Rows delivered -/

/-- What a `next` has returned. -/
def Event.nextResult? : Event → Option (Except UdfError Bool)
  | .call _ .next ans => some ans
  | _ => none

def Event.isNext (e : Event) : Bool :=
  e.nextResult?.isSome

/-- A `next` has delivered a row. -/
def Event.isDelivery (e : Event) : Bool :=
  match e.nextResult? with
  | some (.ok true) => true
  | _ => false

/-- The rows that the UDF has been given. -/
def delivered (m : UdfMeta) (events : List Event) : Nat :=
  match m.inputIter with
  | .exactlyOnce => events.countP Event.isRunStart
  | .multiple => events.countP Event.isDelivery

/-- No invocation has failed. -/
def Unfailed (events : List Event) : Prop :=
  ∀ e, Event.runEnd (.error e) ∉ events

/-- Every `next` has delivered a row. -/
def Iterating (events : List Event) : Prop :=
  ∀ e ∈ events, e.isNext = true → e.isDelivery = true

/-- An event that starts and ends no invocation and is no `next`. -/
def Event.isIdle : Event → Bool
  | .runStart | .runEnd _ => false
  | e => !e.isNext

theorem Event.isIdle_of_isNote {e : Event} (h : e.isNote = false) : e.isIdle = true := by
  cases e <;> first | rfl | cases h

theorem Event.isIdle_spec {e : Event} (h : e.isIdle = true) :
    e.isRunStart = false ∧ e.isNext = false ∧ e.isDelivery = false ∧
      ∀ err, e ≠ .runEnd (.error err) := by
  have hnext : e.isNext = false → e.isDelivery = false := by
    unfold isNext isDelivery
    cases e.nextResult? with
    | none => exact fun _ => rfl
    | some res => exact fun h => nomatch h
  have hno : e.isNext = false := by
    cases e <;> first | rfl | exact (Bool.not_eq_true' _).mp h
  refine ⟨?_, hno, hnext hno, ?_⟩
  · cases e <;> first | rfl | cases h
  · rintro err rfl
    cases h

/-- Idle events deliver nothing. -/
theorem delivered_idle (h : ∀ e ∈ events, e.isIdle = true) :
    delivered m (G ++ events) = delivered m G := by
  have hruns : events.countP Event.isRunStart = 0 :=
    List.countP_eq_zero.mpr fun e he => by simp [(Event.isIdle_spec (h e he)).1]
  have hnexts : events.countP Event.isDelivery = 0 :=
    List.countP_eq_zero.mpr fun e he => by simp [(Event.isIdle_spec (h e he)).2.2.1]
  unfold delivered
  cases m.inputIter with
  | exactlyOnce =>
    dsimp only
    rw [List.countP_append, hruns, Nat.add_zero]
  | multiple =>
    dsimp only
    rw [List.countP_append, hnexts, Nat.add_zero]

theorem countP_isRunStart_idle (h : ∀ e ∈ events, e.isIdle = true) :
    (G ++ events).countP Event.isRunStart = G.countP Event.isRunStart := by
  have hruns : events.countP Event.isRunStart = 0 :=
    List.countP_eq_zero.mpr fun e he => by simp [(Event.isIdle_spec (h e he)).1]
  rw [List.countP_append, hruns, Nat.add_zero]

theorem Unfailed.append (hG : Unfailed G) (hevents : Unfailed events) : Unfailed (G ++ events) :=
  fun e he => (List.mem_append.mp he).elim (hG e) (hevents e)

theorem Unfailed.of_append (h : Unfailed (G ++ events)) : Unfailed G :=
  fun e he => h e (List.mem_append_left _ he)

theorem unfailed_idle (h : ∀ e ∈ events, e.isIdle = true) : Unfailed events :=
  fun err he => (Event.isIdle_spec (h _ he)).2.2.2 err rfl

theorem Iterating.of_append (h : Iterating (G ++ events)) : Iterating G :=
  fun e he => h e (List.mem_append_left _ he)

/-- While every `next` delivers, the rows delivered are the `next`s. -/
theorem Iterating.countP_isNext (h : Iterating G) :
    G.countP Event.isNext = G.countP Event.isDelivery := by
  refine List.countP_congr fun e he => ⟨h e he, fun hdelivery => ?_⟩
  unfold Event.isDelivery at hdelivery
  unfold Event.isNext
  cases hres : e.nextResult? with
  | none =>
    rw [hres] at hdelivery
    cases hdelivery
  | some res => rfl

/-! ### Where the cursor is -/

/-- The rows delivered and the cursor agree. -/
inductive At (env : Env) (m : UdfMeta) (G : List Event) (b : HostContextBridge) : Prop where
  /-- `next` has not been called in a SET group. -/
  | first : m.inputIter = .multiple → b.started = false → Loaded env m G 0 b.input →
    b.input.currentRow = 0 → 0 < b.input.nRows → delivered m G = 0 → At env m G b
  /-- The row under the cursor is the last one delivered; an empty batch has none. -/
  | row {old : Nat} : (m.inputIter = .multiple → b.started = true) → Loaded env m G old b.input →
    delivered m G = old + min (b.input.currentRow + 1) b.input.nRows → At env m G b

/-- An invocation can start: the cursor is on the first row that is not delivered. -/
structure Ready (env : Env) (m : UdfMeta) (G : List Event) (b : HostContextBridge) : Prop where
  position : ∃ old, Loaded env m G old b.input ∧ delivered m G = old + b.input.currentRow
  onRow : b.input.currentRow < b.input.nRows
  unfailed : Unfailed G
  once : m.inputIter = .multiple →
    b.started = false ∧ delivered m G = 0 ∧ G.countP Event.isRunStart = 0

/-- The UDF runs. -/
structure Reading (env : Env) (m : UdfMeta) (G : List Event) (b : HostContextBridge) : Prop where
  position : At env m G b
  onRow : b.input.currentRow < b.input.nRows ∨
    b.input.nRows = 0 ∧ m.inputIter = .multiple ∧ ¬ Iterating G
  unfailed : Unfailed G
  once : m.inputIter = .multiple → G.countP Event.isRunStart = 1
  rows : 0 < (received env m G).length

namespace At

variable {b : HostContextBridge}

theorem loaded (h : At env m G b) : ∃ old, Loaded env m G old b.input := by
  cases h with
  | first _ _ hloaded => exact ⟨0, hloaded⟩
  | row _ hloaded => exact ⟨_, hloaded⟩

theorem delivered_le (h : At env m G b) : delivered m G ≤ (received env m G).length := by
  cases h with
  | first _ _ _ _ _ hnone => exact hnone ▸ Nat.zero_le _
  | row _ hloaded hpos =>
    rw [hloaded.total, hpos]
    exact Nat.add_le_add_left (Nat.min_le_right _ _) _

/-- The row under the cursor, among all rows. -/
theorem index (h : At env m G b) (hrow : b.input.currentRow < b.input.nRows) :
    ∃ old, Loaded env m G old b.input ∧ delivered m G - 1 = old + b.input.currentRow := by
  cases h with
  | first _ _ hloaded hcursor _ hnone => exact ⟨0, hloaded, by rw [hnone, hcursor]⟩
  | @row old _ hloaded hpos =>
    refine ⟨old, hloaded, ?_⟩
    rw [hpos, Nat.min_eq_left hrow]
    omega

/-- Events that bring no batch and deliver nothing leave the cursor where it is. -/
theorem keep {b' : HostContextBridge} (h : At env m G b) (hinput : b'.input = b.input)
    (hstarted : b'.started = b.started) (hsame : delivered m (G ++ events) = delivered m G)
    (hnone : batchesOf events = []) : At env m (G ++ events) b' := by
  cases h with
  | first hm hfresh hloaded hcursor hrows hzero =>
    refine .first hm (hstarted.trans hfresh) ?_ ?_ ?_ (hsame.trans hzero)
    · exact hinput ▸ hloaded.quiet hnone
    · rw [hinput, hcursor]
    · rwa [hinput]
  | @row old hdone hloaded hpos =>
    refine @At.row env m _ _ old (fun hm => hstarted.trans (hdone hm)) ?_ ?_
    · exact hinput ▸ hloaded.quiet hnone
    · rw [hsame, hpos, hinput]

end At

/-- Calls other than `next` leave the cursor where it is. -/
theorem Reading.idle {b b' : HostContextBridge} (h : Reading env m G b)
    (hinput : b'.input = b.input) (hstarted : b'.started = b.started)
    (hidle : ∀ e ∈ events, e.isIdle = true) (hnone : batchesOf events = []) :
    Reading env m (G ++ events) b' where
  position := h.position.keep hinput hstarted (delivered_idle hidle) hnone
  onRow := by
    rw [hinput]
    exact h.onRow.imp id fun ⟨hrows, hm, hstop⟩ =>
      ⟨hrows, hm, fun hall => hstop hall.of_append⟩
  unfailed := h.unfailed.append (unfailed_idle hidle)
  once hm := by rw [countP_isRunStart_idle hidle, h.once hm]
  rows := Nat.lt_of_lt_of_le h.rows length_received_le

/-- An invocation starts. -/
theorem Ready.start {b : HostContextBridge} (h : Ready env m G b) :
    Reading env m (G ++ [.runStart]) ({ b with lastError := none }.push .runStart) := by
  obtain ⟨old, hloaded, hpos⟩ := h.position
  have hquiet : Loaded env m (G ++ [.runStart]) old b.input := hloaded.quiet rfl
  refine ⟨?_, .inl h.onRow, h.unfailed.append fun e he => ?_, fun hm => ?_, ?_⟩
  · cases hm : m.inputIter with
    -- A scalar UDF is given the row under the cursor by the invocation itself.
    | exactlyOnce =>
      refine @At.row env m _ _ old (fun hm' => ?_) hquiet ?_
      · rw [hm] at hm'
        cases hm'
      · show delivered m (G ++ [.runStart]) = old + min (b.input.currentRow + 1) b.input.nRows
        unfold delivered at hpos ⊢
        rw [hm] at hpos ⊢
        dsimp only at hpos ⊢
        rw [List.countP_append, hpos, Nat.min_eq_left h.onRow, List.countP_singleton]
        rfl
    -- A set UDF starts on the first row, which its first `next` will deliver.
    | multiple =>
      obtain ⟨hfresh, hzero, -⟩ := h.once hm
      obtain ⟨rfl, hcursor⟩ : old = 0 ∧ b.input.currentRow = 0 := by omega
      refine .first hm hfresh hquiet hcursor (Nat.lt_of_le_of_lt (Nat.zero_le _) h.onRow) ?_
      unfold delivered at hzero ⊢
      rw [hm] at hzero ⊢
      dsimp only at hzero ⊢
      rw [List.countP_append, hzero]
      rfl
  · cases List.mem_singleton.mp he
  · rw [List.countP_append, (h.once hm).2.2]
    rfl
  · rw [hquiet.total]
    have hrow : b.input.currentRow < b.input.nRows := h.onRow
    omega

/-! ### Fetching further batches -/

/-- The cursor is on the last row of the batch, or there is none. -/
def UsedUp (env : Env) (m : UdfMeta) (G : List Event) (b : HostContextBridge) : Prop :=
  ∃ old, Loaded env m G old b.input ∧
    (b.input.currentRow + 1 = b.input.nRows ∨ b.input.nRows = 0)

/-- Fetching can fail: a batch does not decode, the socket is stuck, or an `MT_NEXT` has failed. -/
def Fault (env : Env) (m : UdfMeta) (events : List Event) (w : World) : Prop :=
  ¬ Intact env m events ∨ w.dead = true ∨
    ∃ f e, Event.answered f (.error e) ∈ events ∧ f.asksNext = true

/-- An `MT_NEXT` has just been answered by the end of the input. -/
def InputEnded (events : List Event) : Prop :=
  ∃ f event, events.getLast? = some (.answered f (.ok event)) ∧ f.asksNext = true ∧
    event.endsInput = true

theorem InputEnded.prepend (h : InputEnded events) : InputEnded (G ++ events) := by
  obtain ⟨f, event, hlast, hanswer⟩ := h
  refine ⟨f, event, ?_, hanswer⟩
  rw [List.getLast?_append, hlast, Option.some_or]

theorem Fault.of_fetch {w : World}
    (h : w.dead = true ∨ ∃ f e, Event.answered f (.error e) ∈ events ∧ f.asksNext = true) :
    Fault env m (G ++ events) w :=
  .inr (h.imp id fun ⟨f, e, hmem, hasks⟩ => ⟨f, e, List.mem_append_right _ hmem, hasks⟩)

/-- What looking for a batch with rows can find, when the rows received are used up. -/
def Refilled (env : Env) (m : UdfMeta) (G events : List Event) (b' : HostContextBridge) :
    Except UdfError Bool → Prop
  | .ok true => Loaded env m (G ++ events) (received env m G).length b'.input ∧
    b'.input.currentRow = 0 ∧ 0 < b'.input.nRows
  | .ok false => UsedUp env m (G ++ events) b' ∧
    received env m (G ++ events) = received env m G ∧ InputEnded (G ++ events)
  | .error _ => UsedUp env m (G ++ events) b' ∧
    received env m (G ++ events) = received env m G ∧ Fault env m (G ++ events) b'.world

theorem refill_spec {b : HostContextBridge} (h : UsedUp env m G b) :
    ∃ events, (b.refill env m).2.world.log = b.world.log ++ events ∧
      (∀ e ∈ events, e.isNote = false) ∧ (b.refill env m).2.started = b.started ∧
      Refilled env m G events (b.refill env m).2 (b.refill env m).1 := by
  refine HostContextBridge.refill_rule env m
    (P := fun b' => ∃ events, b'.world.log = b.world.log ++ events ∧
      (∀ e ∈ events, e.isNote = false) ∧ b'.started = b.started ∧
      UsedUp env m (G ++ events) b' ∧ received env m (G ++ events) = received env m G)
    (Q := fun res b' => ∃ events, b'.world.log = b.world.log ++ events ∧
      (∀ e ∈ events, e.isNote = false) ∧ b'.started = b.started ∧
      Refilled env m G events b' res) ?_ ?_ ?_ ?_ ?_
    ⟨[], (List.append_nil _).symm, (fun _ h => nomatch h), rfl, by rwa [List.append_nil],
      by rw [List.append_nil]⟩
  · rintro b₁ e feed ⟨before, hlog, hwire, hstarted, ⟨old, hloaded, hused⟩, hsame⟩ hf
    obtain ⟨events, hlog', hwire', hnone, hfault⟩ := Feed.fetch_grows hf hlog hwire
    refine ⟨before ++ events, hlog', hwire', hstarted, ?_⟩
    rw [Refilled, ← List.append_assoc]
    exact ⟨⟨old, hloaded.quiet hnone, hused⟩, (received_idle hnone).trans hsame,
      .of_fetch hfault⟩
  · rintro b₁ feed ⟨before, hlog, hwire, hstarted, ⟨old, hloaded, hused⟩, hsame⟩ hf
    obtain ⟨events, hlog', hwire', hnone, hended⟩ := Feed.fetch_grows hf hlog hwire
    refine ⟨before ++ events, hlog', hwire', hstarted, ?_⟩
    rw [Refilled, ← List.append_assoc]
    exact ⟨⟨old, hloaded.quiet hnone, hused⟩, (received_idle hnone).trans hsame,
      InputEnded.prepend hended⟩
  · rintro b₁ table feed e ⟨before, hlog, hwire, hstarted, ⟨old, hloaded, hused⟩, hsame⟩ hf hdecode
    obtain ⟨events, hlog', hwire', hbatch⟩ := Feed.fetch_grows hf hlog hwire
    refine ⟨before ++ events, hlog', hwire', hstarted, ?_⟩
    rw [Refilled, ← List.append_assoc]
    refine ⟨⟨old, hloaded.of_undecodable hdecode hbatch, hused⟩, ?_, .inl ?_⟩
    · exact (received_undecodable hdecode hbatch).trans hsame
    · exact not_intact hdecode hbatch
  · rintro b₁ table feed input ⟨before, hlog, hwire, hstarted, -, hsame⟩ hf hdecode hrows
    obtain ⟨events, hlog', hwire', hbatch⟩ := Feed.fetch_grows hf hlog hwire
    refine ⟨before ++ events, hlog', hwire', hstarted, ?_⟩
    rw [← List.append_assoc]
    have hloaded : Loaded env m (G ++ before ++ events) _ input := .of_decode hdecode hbatch
    refine ⟨⟨_, hloaded, .inr hrows⟩, ?_⟩
    · -- A batch without rows adds none.
      have hlen := hloaded.total
      rw [hrows, Nat.add_zero, received_append, List.length_append] at hlen
      rw [received_append, List.eq_nil_of_length_eq_zero (Nat.add_eq_left.mp hlen), List.append_nil,
        hsame]
  · rintro b₁ table feed input ⟨before, hlog, hwire, hstarted, -, hsame⟩ hf hdecode hrows
    obtain ⟨events, hlog', hwire', hbatch⟩ := Feed.fetch_grows hf hlog hwire
    refine ⟨before ++ events, hlog', hwire', hstarted, ?_⟩
    rw [Refilled, ← List.append_assoc, ← hsame]
    exact ⟨.of_decode hdecode hbatch, (InputRowSet.decode_ok hdecode).2, Nat.pos_of_ne_zero hrows⟩

/-- What advancing past the rows delivered can find. -/
def Advanced (env : Env) (m : UdfMeta) (G events : List Event) (b' : HostContextBridge) :
    Except UdfError Bool → Prop
  | .ok true => b'.input.currentRow < b'.input.nRows ∧ ∃ old,
    Loaded env m (G ++ events) old b'.input ∧ delivered m G = old + b'.input.currentRow
  | .ok false => UsedUp env m (G ++ events) b' ∧
    (received env m (G ++ events)).length = delivered m G ∧ InputEnded (G ++ events)
  | .error _ => UsedUp env m (G ++ events) b' ∧
    (received env m (G ++ events)).length = delivered m G ∧ Fault env m (G ++ events) b'.world

theorem advanceRow_spec {b : HostContextBridge} {old : Nat} (h : Loaded env m G old b.input)
    (hrow : b.input.currentRow < b.input.nRows ∨ b.input.nRows = 0)
    (hpos : delivered m G = old + min (b.input.currentRow + 1) b.input.nRows) :
    ∃ events, (b.advanceRow env m).2.world.log = b.world.log ++ events ∧
      (∀ e ∈ events, e.isNote = false) ∧ (b.advanceRow env m).2.started = b.started ∧
      Advanced env m G events (b.advanceRow env m).2 (b.advanceRow env m).1 := by
  unfold HostContextBridge.advanceRow InputRowSet.advance
  by_cases hmore : b.input.currentRow + 1 < b.input.nRows
  · rw [if_pos hmore]
    refine ⟨[], (List.append_nil _).symm, (fun _ h => nomatch h), rfl, hmore, old, ?_, ?_⟩
    · exact (List.append_nil G).symm ▸ h.advance _
    · rw [hpos, Nat.min_eq_left (Nat.le_of_lt hmore)]
  · rw [if_neg hmore]
    -- The batch is used up, so every row received has been delivered.
    have hall : delivered m G = (received env m G).length := by
      rw [hpos, h.total, Nat.min_eq_right (Nat.le_of_not_lt hmore)]
    obtain ⟨events, hlog, hwire, hstarted, hrefilled⟩ :=
      refill_spec (b := { b with input := b.input }) ⟨old, h, hrow.imp (by omega) id⟩
    refine ⟨events, hlog, hwire, hstarted, ?_⟩
    dsimp only
    generalize HostContextBridge.refill env m _ = r at hrefilled
    obtain ⟨e | more, b'⟩ := r
    · obtain ⟨hused, hsame, hfault⟩ := hrefilled
      exact ⟨hused, by rw [hsame, hall], hfault⟩
    · cases more with
      | true =>
        obtain ⟨hloaded, hcursor, hrows⟩ := hrefilled
        exact ⟨by rw [hcursor]; exact hrows, _, hloaded, by rw [hall, hcursor, Nat.add_zero]⟩
      | false =>
        obtain ⟨hused, hsame, hended⟩ := hrefilled
        exact ⟨hused, by rw [hsame, hall], hended⟩

/-! ### Calls -/

/-- What `next` says, in a SET group. -/
def NextSpec (env : Env) (m : UdfMeta) (G : List Event) (w : World) :
    Except UdfError Bool → Prop
  | .ok true => delivered m G < (received env m G).length
  | .ok false => delivered m G = (received env m G).length ∧ InputEnded G
  | .error _ => Fault env m G w

theorem delivered_note (hm : m.inputIter = .multiple) (rowNumber : UInt64)
    (res : Except UdfError Bool) :
    delivered m (G ++ [.call rowNumber .next res])
      = delivered m G + if res matches .ok true then 1 else 0 := by
  unfold delivered
  rw [hm]
  dsimp only
  rw [List.countP_append, List.countP_singleton]
  obtain e | (- | -) := res <;> rfl

/-- A `next` is noted. -/
theorem Reading.noted {b b' : HostContextBridge} (h : Reading env m G b)
    (hwire : ∀ e ∈ events, e.isNote = false) {rowNumber : UInt64} {res : Except UdfError Bool}
    (hpos : At env m (G ++ events ++ [.call rowNumber .next res]) b')
    (hrow : b'.input.currentRow < b'.input.nRows ∨
      b'.input.nRows = 0 ∧ m.inputIter = .multiple ∧ res ≠ .ok true) :
    Reading env m (G ++ events ++ [.call rowNumber .next res]) b' where
  position := hpos
  onRow := by
    refine hrow.imp id fun ⟨hrows, hm, hstop⟩ => ⟨hrows, hm, fun hall => hstop ?_⟩
    have hnote := hall (.call rowNumber .next res)
      (List.mem_append_right _ (List.mem_singleton.mpr rfl)) rfl
    obtain e | (- | -) := res <;> first | rfl | cases hnote
  unfailed := by
    have hidle : ∀ e ∈ events, e.isIdle = true := fun e he => Event.isIdle_of_isNote (hwire e he)
    refine (h.unfailed.append (unfailed_idle hidle)).append fun e he => ?_
    cases List.mem_singleton.mp he
  once hm := by
    rw [List.countP_append, countP_isRunStart_idle fun e he => Event.isIdle_of_isNote (hwire e he),
      h.once hm]
    rfl
  rows := by
    rw [List.append_assoc]
    exact Nat.lt_of_lt_of_le h.rows length_received_le

/-- **`next`** in a SET group. -/
theorem next_spec (hm : m.inputIter = .multiple) {b : HostContextBridge}
    (h : Reading env m G b) :
    ∃ events, (b.next env m).2.world.log = b.world.log ++ events ∧
      (∀ e ∈ events, e.isNote = false) ∧
      Reading env m (G ++ events ++ [.call b.input.currentRowNumber .next (b.next env m).1])
        ((b.next env m).2.push (.call b.input.currentRowNumber .next (b.next env m).1)) ∧
      NextSpec env m (G ++ events) (b.next env m).2.world (b.next env m).1 := by
  cases h.position with
  -- The first `next` delivers the row that the cursor is already on.
  | first _ hfresh hloaded hcursor hrows hzero =>
    have hnext : b.next env m = (.ok true, { b with started := true }) := by
      have hempty : b.input.isEmpty = false := by
        simpa [InputRowSet.isEmpty, Nat.pos_iff_ne_zero] using hrows
      unfold HostContextBridge.next
      rw [hm, hfresh]
      dsimp only
      rw [hempty]
      rfl
    rw [hnext]
    refine ⟨[], (List.append_nil _).symm, List.forall_mem_nil _, ?_, ?_⟩
    · refine h.noted ?_ (@At.row env m _ _ 0 (fun _ => rfl) ?_ ?_) (.inl ?_)
      · exact List.forall_mem_nil _
      · rw [List.append_nil]
        exact hloaded.quiet rfl
      · rw [List.append_nil, delivered_note hm, hzero, Nat.zero_add]
        show 1 = 0 + min (b.input.currentRow + 1) b.input.nRows
        omega
      · show b.input.currentRow < b.input.nRows
        omega
    · show delivered m (G ++ []) < _
      rw [List.append_nil, hzero]
      exact h.rows
  | @row old hdone hloaded hpos =>
    have hnext : b.next env m = b.advanceRow env m := by
      unfold HostContextBridge.next
      rw [hm, hdone hm]
      rfl
    obtain ⟨events, hlog, hwire, hstarted, hadvanced⟩ := advanceRow_spec hloaded
      (h.onRow.imp id And.left) hpos
    have hsame : delivered m (G ++ events) = delivered m G :=
      delivered_idle fun e he => Event.isIdle_of_isNote (hwire e he)
    rw [hnext]
    refine ⟨events, hlog, hwire, ?_⟩
    generalize b.advanceRow env m = r at hstarted hadvanced
    obtain ⟨res, b'⟩ := r
    have hstarted' : m.inputIter = .multiple → b'.started = true := fun hm =>
      hstarted.trans (hdone hm)
    -- Where there is no further row, the cursor stays, and so does the count.
    have hused : ∀ res : Except UdfError Bool, res ≠ .ok true → UsedUp env m (G ++ events) b' →
        (received env m (G ++ events)).length = delivered m G →
        Reading env m (G ++ events ++ [.call b.input.currentRowNumber .next res])
          (b'.push (.call b.input.currentRowNumber .next res)) := by
      rintro res hstop ⟨old', hloaded', hlast⟩ hall
      refine h.noted hwire (@At.row env m _ _ old' hstarted' (hloaded'.quiet rfl) ?_) ?_
      · show _ = old' + min (b'.input.currentRow + 1) b'.input.nRows
        rw [delivered_note hm, hsame, ← hall, hloaded'.total, Nat.min_eq_right (by omega)]
        obtain e | (- | -) := res <;> first | rfl | exact absurd rfl hstop
      · rcases hlast with hlast | hrows
        · exact .inl (show b'.input.currentRow < b'.input.nRows by omega)
        · exact .inr ⟨hrows, hm, hstop⟩
    obtain e | (- | -) := res
    · obtain ⟨hlast, hall, hfault⟩ := hadvanced
      exact ⟨hused _ (by rintro ⟨⟩) hlast hall, hfault⟩
    · obtain ⟨hlast, hall, hended⟩ := hadvanced
      exact ⟨hused _ (by rintro ⟨⟩) hlast hall, hsame.trans hall.symm, hended⟩
    · obtain ⟨hrow, old', hloaded', hpos'⟩ := hadvanced
      refine ⟨h.noted hwire (@At.row env m _ _ old' hstarted' (hloaded'.quiet rfl) ?_) (.inl hrow),
        ?_⟩
      · show _ = old' + min (b'.input.currentRow + 1) b'.input.nRows
        rw [delivered_note hm, hsame, hpos', Nat.min_eq_left hrow]
        rfl
      · show delivered m (G ++ events) < _
        rw [hsame, hpos', hloaded'.total]
        exact Nat.add_lt_add_left hrow old'

/-- **Any other call**, and `next` in a SCALAR group, leaves the cursor where it is. -/
theorem Reading.call {b : HostContextBridge} (h : Reading env m G b) {op : CtxOp}
    (hop : op = .next → m.inputIter = .exactlyOnce) :
    ∃ events, (b.answer env m op).2.world.log = b.world.log ++ events ∧
      (∀ e ∈ events, e.isNote = false) ∧ batchesOf events = [] ∧
      Reading env m (G ++ events ++ [.call b.input.currentRowNumber op (b.answer env m op).1])
        (b.handle env m op).2 := by
  by_cases hnext : op = .next
  · subst hnext
    have hm := hop rfl
    -- A scalar UDF is refused its `next`.
    have hanswer : ∃ e, b.next env m = (.error e, b) := by
      unfold HostContextBridge.next
      rw [hm]
      exact ⟨_, rfl⟩
    obtain ⟨e, hanswer⟩ := hanswer
    have hres : (b.answer env m .next).1 = (.error e : Except UdfError Bool) :=
      congrArg Prod.fst hanswer
    have hsame : (b.answer env m .next).2 = b := congrArg Prod.snd hanswer
    refine ⟨[], by rw [hsame, List.append_nil], (fun _ h => nomatch h), rfl, ?_⟩
    show Reading env m (G ++ [] ++ [.call b.input.currentRowNumber .next (b.answer env m .next).1])
      ((b.answer env m .next).2.push _)
    rw [hres, hsame]
    refine h.noted ?_ ?_ ?_
    · exact fun _ h => nomatch h
    · rw [List.append_nil]
      refine h.position.keep rfl rfl ?_ rfl
      unfold delivered
      rw [hm]
      dsimp only
      rw [List.countP_append]
      rfl
    · exact .inl (h.onRow.resolve_right fun hstop => by rw [hm] at hstop; cases hstop.2.1)
  · obtain ⟨events, hlog, hevents⟩ :=
      HostContextBridge.answer_write m (writeRel_quiet env) op b fun h => absurd h hnext
    obtain ⟨hinput, hstarted⟩ := HostContextBridge.answer_cursor m env hnext b
    have hnone : batchesOf events = [] := batchesOf_of_none fun e he => (hevents e he).2
    refine ⟨events, hlog, fun e he => (hevents e he).1, hnone, ?_⟩
    rw [List.append_assoc]
    refine h.idle hinput hstarted (fun e he => ?_) ?_
    · rcases List.mem_append.mp he with he | he
      · exact Event.isIdle_of_isNote (hevents e he).1
      · obtain rfl := List.mem_singleton.mp he
        cases op <;> first | rfl | exact absurd rfl hnext
    · rw [batchesOf_append, hnone]
      rfl

end ExaUdf
