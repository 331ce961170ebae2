import ExaUdf.Equiv.Cursor

/-!
# Every point of a group

`runGroup_always` is the rule for facts about each event of a group: the UDF is `Ready` when an
invocation starts, `Reading` while it runs, and what it is answered is known.  At the end of the
group, `Ended` compares its invocations with the rows received.
-/

namespace ExaUdf

open History HostContextBridge

variable {env : Env} {m : UdfMeta} {G events : List Event}

/-! ### Points of a group -/

/-- `P` holds at each point of a group, as long as `A` holds of the channel. -/
structure PointRule (env : Env) (m : UdfMeta) (A : World → Prop)
    (P : List Event → Event → Prop) : Prop where
  back : GroupRel env fun fd fd' => A fd'.world → A fd.world
  wire : ∀ {G e}, Unfailed G → e.isNote = false → P G e
  start : ∀ {G b}, Ready env m G b → P G .runStart
  stop : ∀ {G} res, Unfailed G → P G (.runEnd res)
  call : ∀ {G events b op}, (op = .next → m.inputIter = .exactlyOnce) → Reading env m G b →
    (∀ e ∈ events, e.isNote = false) → batchesOf events = [] →
    P (G ++ events) (.call b.input.currentRowNumber op (b.answer env m op).1)
  next : ∀ {G b events}, m.inputIter = .multiple → Reading env m G b →
    (∀ e ∈ events, e.isNote = false) →
    NextSpec env m (G ++ events) (b.next env m).2.world (b.next env m).1 →
    A (b.next env m).2.world →
    P (G ++ events) (.call b.input.currentRowNumber .next (b.next env m).1)

/-- Since `L` the history is `G`, as `I` says, and `P` holds at each of its points. -/
def Points (A : World → Prop) (P : List Event → Event → Prop) (L : List Event)
    (I : List Event → World → Prop) (w : World) : Prop :=
  ∃ G, w.log = L ++ G ∧ I G w ∧ (A w → Always P G)

theorem groupRel_true (env : Env) : GroupRel env fun _ _ => True → True where
  refl _ := id
  trans _ _ := id
  emit _ _ _ := id
  lookup _ _ := id
  next _ := id
  note _ _ _ := id

namespace PointRule

variable {A : World → Prop} {P : List Event → Event → Prop} {L : List Event}

theorem always_wire (h : PointRule env m A P) (hG : Always P G) (hunfailed : Unfailed G)
    (hwire : ∀ e ∈ events, e.isNote = false) : Always P (G ++ events) := by
  induction events using List.reverseRecOn with
  | nil => rwa [List.append_nil]
  | append_singleton events e ih =>
    have hbefore : ∀ e ∈ events, e.isNote = false := fun e he =>
      hwire e (List.mem_append_left _ he)
    rw [← List.append_assoc]
    refine always_concat.mpr ⟨ih hbefore, h.wire (hunfailed.append ?_) ?_⟩
    · exact unfailed_idle fun e he => Event.isIdle_of_isNote (hbefore e he)
    · exact hwire e (List.mem_append_right _ (List.mem_singleton.mpr rfl))

/-- **A call.** -/
theorem handle (h : PointRule env m A P) (op : CtxOp) (b : HostContextBridge)
    (hb : Points A P L (fun G _ => Reading env m G b) b.world) :
    Points A P L (fun G _ => Reading env m G (b.handle env m op).2)
      (b.handle env m op).2.world := by
  obtain ⟨G, hG, hreading, halways⟩ := hb
  have hback : A (b.handle env m op).2.world → A b.world := handle_rel m h.back op b
  by_cases hop : op = .next ∧ m.inputIter = .multiple
  · obtain ⟨rfl, hm⟩ := hop
    obtain ⟨events, hlog, hwire, hafter, hspec⟩ := next_spec hm hreading
    refine ⟨_, ?_, hafter, fun hA => always_concat.mpr ⟨?_, ?_⟩⟩
    · show (b.next env m).2.world.log ++ _ = _
      rw [hlog, hG, List.append_assoc, List.append_assoc, List.append_assoc]
      rfl
    · exact h.always_wire (halways (hback hA)) hreading.unfailed hwire
    · exact h.next hm hreading hwire hspec (h.back.note (b.next env m).2.toFeed _ rfl hA)
  · have hquiet : op = .next → m.inputIter = .exactlyOnce := fun hnext => by
      cases hm : m.inputIter with
      | exactlyOnce => rfl
      | multiple => exact absurd ⟨hnext, hm⟩ hop
    obtain ⟨events, hlog, hwire, hnone, hafter⟩ := hreading.call hquiet
    refine ⟨_, ?_, hafter, fun hA => always_concat.mpr ⟨?_, ?_⟩⟩
    · show (b.answer env m op).2.world.log ++ _ = _
      rw [hlog, hG, List.append_assoc, List.append_assoc, List.append_assoc]
    · exact h.always_wire (halways (hback hA)) hreading.unfailed hwire
    · exact h.call hquiet hreading hwire hnone

end PointRule

/-! ### Invocations -/

/-- An invocation has succeeded. -/
theorem Reading.stop {b : HostContextBridge} (h : Reading env m G b) :
    Reading env m (G ++ [.runEnd (.ok ())]) (b.push (.runEnd (.ok ()))) where
  position := by
    refine h.position.keep rfl rfl ?_ rfl
    unfold delivered
    split <;> exact List.countP_append.trans (Nat.add_zero _)
  onRow := h.onRow.imp id fun ⟨hrows, hm, hstop⟩ =>
    ⟨hrows, hm, fun hall => hstop hall.of_append⟩
  unfailed := h.unfailed.append fun e he => by cases List.mem_singleton.mp he
  once hm := by
    rw [List.countP_append, h.once hm]
    rfl
  rows := Nat.lt_of_lt_of_le h.rows length_received_le

/-- An `MT_NEXT` has been answered by the end of the input. -/
def Finished (events : List Event) : Prop :=
  ∃ f event, Event.answered f (.ok event) ∈ events ∧ f.asksNext = true ∧ event.endsInput = true

/-- How a group ends.  There is one invocation for each row in a SCALAR group, unless one fails, and
one in all in a SET group that has rows; and the input has been read to its end, unless the UDF
stops or fetching fails. -/
def Ended (env : Env) (m : UdfMeta) (G : List Event) (w : World) : Prop :=
  match m.inputIter with
  | .exactlyOnce => G.countP Event.isRunStart ≤ (received env m G).length ∧
    (Unfailed G → G.countP Event.isRunStart = (received env m G).length ∧
      (Fault env m G w ∨ Finished G))
  | .multiple => (G.countP Event.isRunStart = if received env m G = [] then 0 else 1) ∧
    (received env m G = [] → Fault env m G w ∨ Finished G)

theorem InputEnded.finished (h : InputEnded G) : Finished G := by
  obtain ⟨f, event, hlast, hanswer⟩ := h
  exact ⟨f, event, List.mem_of_getLast? hlast, hanswer⟩

theorem Fault.mono {w w' : World} (h : Fault env m G w) (hdead : w.dead = true → w'.dead = true) :
    Fault env m (G ++ events) w' := by
  rcases h with hlost | hstuck | ⟨f, e, hmem, hasks⟩
  · exact .inl fun hall => hlost hall.of_append
  · exact .inr (.inl (hdead hstuck))
  · exact .inr (.inr ⟨f, e, List.mem_append_left _ hmem, hasks⟩)

theorem Ended.idle {w w' : World} (h : Ended env m G w) (hidle : ∀ e ∈ events, e.isIdle = true)
    (hnone : batchesOf events = []) (hdead : w.dead = true → w'.dead = true) :
    Ended env m (G ++ events) w' := by
  have hend : Fault env m G w ∨ Finished G →
      Fault env m (G ++ events) w' ∨ Finished (G ++ events) :=
    Or.imp (Fault.mono · hdead) fun ⟨f, event, hmem, hanswer⟩ =>
      ⟨f, event, List.mem_append_left _ hmem, hanswer⟩
  unfold Ended at h ⊢
  rw [received_idle hnone, countP_isRunStart_idle hidle]
  split at h
  · exact ⟨h.1, fun hall => (h.2 hall.of_append).imp id hend⟩
  · exact ⟨h.1, fun hrows => hend (h.2 hrows)⟩

/-- An invocation has failed. -/
theorem Reading.fail {b : HostContextBridge} (h : Reading env m G b) (e : RuntimeError)
    (w : World) : Ended env m (G ++ [.runEnd (.error e)]) w := by
  have hruns : (G ++ [Event.runEnd (.error e)]).countP Event.isRunStart
      = G.countP Event.isRunStart := List.countP_append.trans (Nat.add_zero _)
  have hrows : received env m (G ++ [.runEnd (.error e)]) = received env m G := received_idle rfl
  have hsome := List.ne_nil_of_length_pos h.rows
  have hle := h.position.delivered_le
  unfold Ended
  unfold delivered at hle
  rw [hruns, hrows]
  cases hm : m.inputIter with
  | exactlyOnce =>
    rw [hm] at hle
    refine ⟨hle, fun hall => absurd (hall e) (not_not_intro ?_)⟩
    exact List.mem_append_right _ (List.mem_singleton.mpr rfl)
  | multiple => exact ⟨by rw [h.once hm, if_neg hsome], fun hnone => absurd hnone hsome⟩

/-- A SET group is over with its invocation. -/
theorem Reading.ended (hm : m.inputIter = .multiple) {b : HostContextBridge}
    (h : Reading env m G b) (w : World) : Ended env m G w := by
  have hsome := List.ne_nil_of_length_pos h.rows
  unfold Ended
  rw [hm]
  exact ⟨by rw [h.once hm, if_neg hsome], fun hnone => absurd hnone hsome⟩

/-- Between two invocations of a SCALAR group. -/
theorem Reading.advance (hm : m.inputIter = .exactlyOnce) {b : HostContextBridge}
    (h : Reading env m G b) :
    ∃ events, (b.advanceRow env m).2.world.log = b.world.log ++ events ∧
      (∀ e ∈ events, e.isNote = false) ∧
      if (b.advanceRow env m).1 matches .ok true then
        Ready env m (G ++ events) (b.advanceRow env m).2
      else Ended env m (G ++ events) (b.advanceRow env m).2.world := by
  cases h.position with
  | first hset => rw [hm] at hset; cases hset
  | @row old _ hloaded hpos =>
    obtain ⟨events, hlog, hwire, -, hadvanced⟩ := advanceRow_spec hloaded
      (h.onRow.imp id And.left) hpos
    have hidle : ∀ e ∈ events, e.isIdle = true := fun e he => Event.isIdle_of_isNote (hwire e he)
    have hended : ∀ w, (received env m (G ++ events)).length = delivered m G →
        Fault env m (G ++ events) w ∨ Finished (G ++ events) → Ended env m (G ++ events) w := by
      intro w hall hend
      unfold delivered at hall
      unfold Ended
      rw [hm] at hall ⊢
      have hsame : (G ++ events).countP Event.isRunStart
          = (received env m (G ++ events)).length := by
        rw [countP_isRunStart_idle hidle, hall]
      exact ⟨Nat.le_of_eq hsame, fun _ => ⟨hsame, hend⟩⟩
    refine ⟨events, hlog, hwire, ?_⟩
    generalize b.advanceRow env m = r at hadvanced
    obtain ⟨e | (- | -), b'⟩ := r
    · exact hended _ hadvanced.2.1 (.inl hadvanced.2.2)
    · exact hended _ hadvanced.2.1 (.inr hadvanced.2.2.finished)
    · obtain ⟨hrow, old', hloaded', hpos'⟩ := hadvanced
      refine ⟨⟨old', hloaded', (delivered_idle hidle).trans hpos'⟩, hrow,
        h.unfailed.append (unfailed_idle hidle), fun hset => ?_⟩
      rw [hm] at hset
      cases hset

/-! ### Groups -/

theorem delivered_wire (hidle : ∀ e ∈ G, e.isIdle = true) : delivered m G = 0 := by
  have hsame : delivered m ([] ++ G) = delivered m [] := delivered_idle hidle
  rw [List.nil_append] at hsame
  rw [hsame]
  unfold delivered
  split <;> rfl

/-- Before the first batch with rows. -/
theorem ended_of_received {w : World} (hwire : ∀ e ∈ G, e.isNote = false)
    (hnone : received env m G = []) (hend : Fault env m G w ∨ Finished G) :
    Unfailed G ∧ Ended env m G w := by
  have hidle : ∀ e ∈ G, e.isIdle = true := fun e he => Event.isIdle_of_isNote (hwire e he)
  have hruns : G.countP Event.isRunStart = 0 := countP_isRunStart_idle (G := []) hidle
  refine ⟨unfailed_idle hidle, ?_⟩
  unfold Ended
  rw [hruns, hnone]
  split
  · exact ⟨Nat.le_refl _, fun _ => ⟨rfl, hend⟩⟩
  · exact ⟨rfl, fun _ => hend⟩

namespace PointRule

variable {A : World → Prop} {P : List Event → Event → Prop} {L : List Event}

/-- **An invocation.** -/
theorem runOnce (h : PointRule env m A P) (udf : LoadedUdf) {b : HostContextBridge}
    (hb : Points A P L (fun G _ => Ready env m G b) b.world) :
    match ExaUdf.runOnce env m udf b with
    | (.ok (), b') => Points A P L (fun G _ => Reading env m G b') b'.world
    | (.error _, b') => Points A P L (Ended env m) b'.world := by
  have hstart : Points A P L
      (fun G _ => Reading env m G ({ b with lastError := none }.push .runStart))
      ({ b with lastError := none }.push .runStart).world := by
    obtain ⟨G, hG, hready, halways⟩ := hb
    refine ⟨G ++ [.runStart], ?_, hready.start, fun hA => always_concat.mpr ⟨halways ?_, ?_⟩⟩
    · show b.world.log ++ _ = _
      rw [hG, List.append_assoc]
    · exact h.back.note b.toFeed .runStart rfl hA
    · exact h.start hready
  -- While the UDF runs it is `Reading`, with every event so far at a point of the rule.
  have hrun := runOnce_rule env m udf
    (I := fun b => Points A P L (fun G _ => Reading env m G b) b.world)
    (Q := fun res b => (res = .ok () → Points A P L (fun G _ => Reading env m G b) b.world) ∧
      ∀ e, res = .error e → Points A P L (Ended env m) b.world)
    (fun op b => h.handle op b) (fun b res hb => ?_) hstart
  · generalize ExaUdf.runOnce env m udf b = r at hrun
    obtain ⟨e | u, b'⟩ := r
    · exact hrun.2 e rfl
    · exact hrun.1 rfl
  obtain ⟨G, hG, hreading, halways⟩ := hb
  have hlog : (b.push (.runEnd res)).world.log = L ++ (G ++ [.runEnd res]) := by
    show b.world.log ++ _ = _
    rw [hG, List.append_assoc]
  have hall : A (b.push (.runEnd res)).world → Always P (G ++ [.runEnd res]) := fun hA =>
    always_concat.mpr ⟨halways (h.back.note b.toFeed _ rfl hA), h.stop res hreading.unfailed⟩
  refine ⟨?_, ?_⟩
  · rintro rfl
    exact ⟨_, hlog, hreading.stop, hall⟩
  · rintro e rfl
    exact ⟨_, hlog, hreading.fail e _, hall⟩

/-- **The rows of a group.** -/
theorem driveGroupRows (h : PointRule env m A P) (udf : LoadedUdf) {b : HostContextBridge}
    (hb : Points A P L (fun G _ => Ready env m G b) b.world) :
    match ExaUdf.driveGroupRows env m udf b with
    | (none, b') => Points A P L (fun G w => Unfailed G ∧ Ended env m G w) b'.world
    | (some _, b') => Points A P L (Ended env m) b'.world := by
  -- Between two invocations of a scalar UDF the host moves the cursor itself.
  have hadvance : m.inputIter = .exactlyOnce → ∀ (b : HostContextBridge) res b',
      Points A P L (fun G _ => Reading env m G b) b.world → b.advanceRow env m = (res, b') →
      Points A P L (fun G w => Unfailed G ∧
        if res matches .ok true then Ready env m G b' else Ended env m G w) b'.world := by
    rintro hm b res b' ⟨G, hG, hreading, halways⟩ ha
    obtain ⟨events, hlog, hwire, hspec⟩ := hreading.advance hm
    have hback : A (b.advanceRow env m).2.world → A b.world :=
      advanceRow_rel m h.back.toRel.toFetchRel b
    rw [ha] at hlog hspec hback
    refine ⟨G ++ events, ?_, ⟨hreading.unfailed.append ?_, hspec⟩, fun hA => ?_⟩
    · rw [hlog, hG, List.append_assoc]
    · exact unfailed_idle fun e he => Event.isIdle_of_isNote (hwire e he)
    · exact h.always_wire (halways (hback hA)) hreading.unfailed hwire
  have hdrive := driveGroupRows_rule env m udf
    (P := fun b => Points A P L (fun G _ => Ready env m G b) b.world)
    (I := fun b => Points A P L (fun G _ => Reading env m G b) b.world)
    (Q := fun b => Points A P L (fun G w => Unfailed G ∧ Ended env m G w) b.world)
    (F := fun _ b => Points A P L (Ended env m) b.world)
    (fun b b' hb hr => ?_) (fun b e b' hb hr => ?_) (fun hm b b' hb ha => ?_)
    (fun hm b b' hb ha => ?_) (fun hm b e b' hb ha => ?_) (fun hm b hb => ?_) hb
  · generalize ExaUdf.driveGroupRows env m udf b = r at hdrive
    obtain ⟨- | e, b'⟩ := r
    · exact hdrive.1 rfl
    · exact hdrive.2 e rfl
  · have hrun := h.runOnce udf hb
    rw [hr] at hrun
    exact hrun
  · have hrun := h.runOnce udf hb
    rw [hr] at hrun
    exact hrun
  · obtain ⟨G, hG, ⟨-, hready⟩, halways⟩ := hadvance hm b _ b' hb ha
    exact ⟨G, hG, hready, halways⟩
  · exact hadvance hm b _ b' hb ha
  · obtain ⟨G, hG, ⟨-, hended⟩, halways⟩ := hadvance hm b _ b' hb ha
    exact ⟨G, hG, hended, halways⟩
  · obtain ⟨G, hG, hreading, halways⟩ := hb
    exact ⟨G, hG, ⟨hreading.unfailed, hreading.ended hm _⟩, halways⟩

/-- What looking for the first batch with rows can find. -/
def Opened (env : Env) (m : UdfMeta) (G : List Event) (fd : Feed) :
    Except RuntimeError (Option InputRowSet) → Prop
  | .ok (some input) => Ready env m G (HostContextBridge.new fd input)
  | _ => received env m G = [] ∧ (Fault env m G fd.world ∨ Finished G)

/-- **The first batch.** -/
theorem firstNonemptyInput (h : PointRule env m A P) (w : World) :
    match (ExaUdf.firstNonemptyInput env m).run ⟨w, none⟩ with
    | (.ok (some input), fd) =>
      Points A P w.log (fun G _ => Ready env m G (HostContextBridge.new fd input)) fd.world
    | (_, fd) => Points A P w.log (fun G w => Unfailed G ∧ Ended env m G w) fd.world := by
  have hpoints : ∀ (I : List Event → World → Prop) (w' : World) (G : List Event),
      w'.log = w.log ++ G → (∀ e ∈ G, e.isNote = false) → I G w' → Points A P w.log I w' := by
    intro I w' G hlog hwire hI
    exact ⟨G, hlog, hI, fun _ => h.always_wire always_nil (fun _ h => nomatch h) hwire⟩
  have hfirst := firstNonemptyInput_rule env m
    (P := fun fd => ∃ G, fd.world.log = w.log ++ G ∧ (∀ e ∈ G, e.isNote = false) ∧
      received env m G = [])
    (Q := fun res fd => ∃ G, fd.world.log = w.log ++ G ∧ (∀ e ∈ G, e.isNote = false) ∧
      Opened env m G fd res) ?_ ?_ ?_ ?_ ?_
    (show ∃ G, (⟨w, none⟩ : Feed).world.log = w.log ++ G ∧ _ from
      ⟨[], (List.append_nil _).symm, (fun _ h => nomatch h), rfl⟩)
  · generalize (ExaUdf.firstNonemptyInput env m).run ⟨w, none⟩ = r at hfirst
    obtain ⟨e | (- | input), fd⟩ := r
    · obtain ⟨G, hG, hwire, hnone, hend⟩ := hfirst
      exact hpoints _ _ G hG hwire (ended_of_received hwire hnone hend)
    · obtain ⟨G, hG, hwire, hnone, hend⟩ := hfirst
      exact hpoints _ _ G hG hwire (ended_of_received hwire hnone hend)
    · obtain ⟨G, hG, hwire, hready⟩ := hfirst
      exact hpoints _ _ G hG hwire hready
  · rintro fd e fd' ⟨G, hG, hwire, hnone⟩ hf
    obtain ⟨events, hlog, hwire', hempty, hfault⟩ := Feed.fetch_grows hf hG hwire
    exact ⟨_, hlog, hwire', (received_idle hempty).trans hnone, .inl (.of_fetch hfault)⟩
  · rintro fd fd' ⟨G, hG, hwire, hnone⟩ hf
    obtain ⟨events, hlog, hwire', hempty, hended⟩ := Feed.fetch_grows hf hG hwire
    exact ⟨_, hlog, hwire', (received_idle hempty).trans hnone,
      .inr (InputEnded.prepend hended).finished⟩
  · rintro fd table fd' e ⟨G, hG, hwire, hnone⟩ hf hdecode
    obtain ⟨events, hlog, hwire', hbatch⟩ := Feed.fetch_grows hf hG hwire
    exact ⟨_, hlog, hwire', (received_undecodable hdecode hbatch).trans hnone,
      .inl (.inl (not_intact hdecode hbatch))⟩
  · rintro fd table fd' input ⟨G, hG, hwire, hnone⟩ hf hdecode hrows
    obtain ⟨events, hlog, hwire', hbatch⟩ := Feed.fetch_grows hf hG hwire
    have hlen := (Loaded.of_decode (G := G) hdecode hbatch).total
    rw [hrows, hnone] at hlen
    exact ⟨_, hlog, hwire', List.eq_nil_of_length_eq_zero hlen⟩
  · rintro fd table fd' input ⟨G, hG, hwire, hnone⟩ hf hdecode hrows
    obtain ⟨events, hlog, hwire', hbatch⟩ := Feed.fetch_grows hf hG hwire
    have hloaded := Loaded.of_decode (G := G) hdecode hbatch
    have hcursor := (InputRowSet.decode_ok hdecode).2
    have hidle : ∀ e ∈ G ++ events, e.isIdle = true := fun e he =>
      Event.isIdle_of_isNote (hwire' e he)
    -- The first batch with rows: nothing has been received or delivered before.
    refine ⟨_, hlog, hwire', ⟨_, hloaded, ?_⟩, ?_, unfailed_idle hidle, fun _ => ⟨rfl, ?_, ?_⟩⟩
    · rw [hnone]
      show delivered m (G ++ events) = 0 + input.currentRow
      rw [hcursor]
      exact delivered_wire hidle
    · show input.currentRow < input.nRows
      omega
    · exact delivered_wire hidle
    · exact countP_isRunStart_idle (G := []) hidle

end PointRule

/-- **Rule for each event of a group.** -/
theorem runGroup_always {A : World → Prop} {P : List Event → Event → Prop}
    (h : PointRule env m A P) (udf : LoadedUdf) (w : World) :
    Points A P w.log (Ended env m) (runGroup env m udf w).2 := by
  have hend : ∀ (fd : Feed) (buf : EmitBuffer),
      Points A P w.log (fun G w => Unfailed G ∧ Ended env m G w) fd.world →
      Points A P w.log (Ended env m) (endGroup env fd buf).2 := by
    rintro fd buf ⟨G, hG, ⟨hunfailed, hended⟩, halways⟩
    obtain ⟨events, hlog, hevents⟩ := endGroup_rel (writeRel_quiet env) fd buf
    have hback : A (endGroup env fd buf).2 → A fd.world :=
      endGroup_rel h.back.toRel.toWriteRel fd buf
    have hdead : fd.world.dead = true → (endGroup env fd buf).2.dead = true :=
      endGroup_rel (sessionRel_dead env).dispatchRel.groupRel.toRel.toWriteRel fd buf
    have hwire : ∀ e ∈ events, e.isNote = false := fun e he => (hevents e he).1
    refine ⟨G ++ events, ?_, ?_, fun hA => h.always_wire (halways (hback hA)) hunfailed hwire⟩
    · rw [show (endGroup env fd buf).2.log = _ from hlog, hG, List.append_assoc]
    · exact hended.idle (fun e he => Event.isIdle_of_isNote (hwire e he))
        (batchesOf_of_none fun e he => (hevents e he).2) hdead
  have hfirst := h.firstNonemptyInput w
  unfold runGroup
  generalize (firstNonemptyInput env m).run ⟨w, none⟩ = r at hfirst
  obtain ⟨e | (- | input), fd⟩ := r
  · obtain ⟨G, hG, ⟨-, hended⟩, halways⟩ := hfirst
    exact ⟨G, hG, hended, halways⟩
  · exact hend fd _ hfirst
  · have hdrive := h.driveGroupRows udf hfirst
    dsimp only
    generalize driveGroupRows env m udf (HostContextBridge.new fd input) = r at hdrive
    obtain ⟨- | e, b⟩ := r
    · exact hend b.toFeed b.emitBuf hdrive
    · exact hdrive

end ExaUdf
