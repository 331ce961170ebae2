import ExaUdf.Equiv.Wire

/-!
# How a session ends

`Runtime.run_ending` is about every session that gets through the handshake.  Once dispatch is over,
the cleanup hook runs, then comes `MT_FINISHED` unless something has failed, then `MT_CLOSE` if
something has.  `runHook_spec` and `finale_spec` say what these two parts add to the history.
-/

namespace ExaUdf

/-! ### Kinds of events -/

/-- A message of some type is sent. -/
def Event.sendsType (mt : MessageType) : Event → Bool
  | .send f => f.messageType == mt.toI32
  | _ => false

/-- The message that ends the session, or the one that says why it failed. -/
def Event.isFinal (e : Event) : Bool :=
  e.sendsType .mtFinished || e.sendsType .mtClose

/-- The cleanup hook starts. -/
def Event.isCleanupStart : Event → Bool
  | .hookStart .cleanup _ => true
  | _ => false

/-- `run` or a single-call hook starts. -/
def Event.isInvocation : Event → Bool
  | .runStart => true
  | .hookStart hook _ => hook != .cleanup
  | _ => false

/-- The cleanup hook has failed. -/
def HookFailed (log : List Event) : Prop :=
  ∃ e, Event.hookEnd .cleanup (.error e) ∈ log

/-- An event before the cleanup hook. -/
def Event.isEarly (e : Event) : Bool :=
  e.isGreeting || e.isDispatch

/-- The text of the last message when dispatch and the cleanup hook have both failed. -/
def bothFailedText (original cleanup : RuntimeError) : String :=
  "UDF error: " ++ (Cleanup.messageOf original ++ " (cleanup also failed: "
    ++ Cleanup.messageOf cleanup ++ ")")

theorem Event.isEarly_spec {e : Event} (h : e.isEarly = true) :
    e.isCleanupStart = false ∧ e.isFinal = false ∧ ∀ res, e ≠ .hookEnd .cleanup res := by
  cases e with
  | send f =>
    refine ⟨rfl, ?_, by rintro _ ⟨⟩⟩
    cases f with
    | emit r => rfl
    | request r =>
      rw [← Bool.not_eq_true]
      intro hfinal
      have htype : r.type = MessageType.mtFinished.toI32 ∨ r.type = MessageType.mtClose.toI32 := by
        simpa only [isFinal, sendsType, Frame.messageType, Bool.or_eq_true, beq_iff_eq] using hfinal
      simp only [isEarly, isGreeting, isDispatch, Frame.isWork, pingType, Frame.messageType] at h
      -- Neither of the two types is sent before the cleanup hook.
      rcases htype with htype | htype <;> rw [htype] at h <;> exact absurd h (by decide)
  | hookStart hook arg =>
    cases hook with
    | cleanup => cases h
    | _ => exact ⟨rfl, rfl, by rintro _ ⟨⟩⟩
  | hookEnd hook res =>
    cases hook with
    | cleanup => cases h
    | _ => exact ⟨rfl, rfl, by rintro _ ⟨⟩⟩
  | _ => exact ⟨rfl, rfl, by rintro _ ⟨⟩⟩

theorem Event.isEarly_of_isDispatchNote {e : Event} (h : e.isDispatchNote = true) :
    e.isEarly = true := by
  refine Bool.or_eq_true_iff.mpr (.inr ?_)
  cases e <;> first | exact h | cases h

theorem Event.isEarly_of_isPassing {e : Event} (h : e.isPassing = true) : e.isEarly = true :=
  Bool.or_eq_true_iff.mpr (.inr (isDispatch_of_isPassing h))

theorem Event.isInvocation_of_isPassing {e : Event} (h : e.isPassing = true) :
    e.isInvocation = false := by
  cases e <;> first | rfl | cases h

theorem countP_final_eq_zero {events : List Event} (h : ∀ e ∈ events, e.isFinal = false) :
    events.countP (Event.sendsType .mtFinished) = 0 ∧
      events.countP (Event.sendsType .mtClose) = 0 := by
  simp only [List.countP_eq_zero, Bool.not_eq_true]
  exact ⟨fun e he => (Bool.or_eq_false_iff.mp (h e he)).1,
    fun e he => (Bool.or_eq_false_iff.mp (h e he)).2⟩

/-! ### The cleanup hook -/

/-- What running the cleanup hook comes to. -/
inductive HookRun (udf : LoadedUdf) (outcome : Except RuntimeError Unit) (w : World) :
    Except RuntimeError Unit × World → Prop where
  | unregistered : udf.cleanup = none → HookRun udf outcome w (outcome, w)
  | ran {calls : List Event} {res : Except RuntimeError Unit} {w' : World} :
    udf.cleanup.isSome = true → (∀ e ∈ calls, e.isDispatchNote = true ∧ e.isInvocation = false) →
    w'.log = w.log ++ .hookStart .cleanup "" ::
      (calls ++ [.hookEnd .cleanup (res.map fun _ => "")]) → w'.dead = w.dead →
    HookRun udf outcome w (match res with
      | .ok () => outcome
      | .error e => Cleanup.fold outcome e, w')

theorem runHook_spec (udf : LoadedUdf) (outcome : Except RuntimeError Unit) (w : World) :
    HookRun udf outcome w (Cleanup.runHook udf outcome w) := by
  unfold Cleanup.runHook
  split
  · rename_i hnone
    exact .unregistered hnone
  · rename_i body hsome
    -- The calls of the hook are notes, and leave the socket alone.
    have hexec := Prog.exec_rel Cleanup.handle
      (R := fun c c' : HookContext => World.Adds (fun e => e.isDispatchNote = true ∧
        e.isInvocation = false) c.world c'.world ∧ c'.world.dead = c.world.dead)
      (fun _ => ⟨.refl _, rfl⟩) (fun hab hbc => ⟨hab.1.trans hbc.1, hbc.2.trans hab.2⟩)
      (fun op ctx => by cases op <;> exact ⟨.push ⟨rfl, rfl⟩ _, rfl⟩) (body w.log)
      ⟨w.push (.hookStart .cleanup ""), none⟩
    generalize (body w.log).exec Cleanup.handle ⟨w.push (.hookStart .cleanup ""), none⟩ = ran
      at hexec
    obtain ⟨⟨calls, hlog, hcalls⟩, hdead⟩ := hexec
    dsimp only
    generalize (lifecycleResult "cleanup" ran.1).mapError (·.withRecordedDetail ran.2.lastError)
      = res
    have hw' : (ran.2.world.push (.hookEnd .cleanup (res.map fun _ => ""))).log = w.log ++
        .hookStart .cleanup "" :: (calls ++ [.hookEnd .cleanup (res.map fun _ => "")]) := by
      simp only [World.push] at hlog ⊢
      rw [hlog]
      simp only [List.append_assoc, List.cons_append, List.nil_append]
    have hran := @HookRun.ran udf outcome _ _ _ _ (by rw [hsome]; rfl) hcalls hw' hdead
    rcases res with e | u <;> exact hran

/-! ### The last messages -/

/-- What is left of a session after the cleanup hook, on a working socket. -/
inductive Finale (w : World) : Except RuntimeError Unit →
    Except RuntimeError Unit × World → Prop where
  | failed (e : RuntimeError) (p : Protocol) {w' : World} :
    w'.log = w.log ++ [.send (.request (p.errorCloseRequest Runtime.udfErrorCloseCode e.display))] →
    Finale w (.error e) (.error e, w')
  | finished {events : List Event} {f : Frame} {event : HostEvent} {w' : World} :
    f.messageType = MessageType.mtFinished.toI32 → (∀ e ∈ events, e.isPassing = true) →
    w'.log = w.log ++ .send f :: (events ++ [.answered f (.ok event)]) →
    Finale w (.ok ()) (.ok (), w')
  | unfinished {events : List Event} {f : Frame} {e : RuntimeError} (p : Protocol) {w' : World} :
    f.messageType = MessageType.mtFinished.toI32 → (∀ e ∈ events, e.isPassing = true) →
    w'.log = w.log ++ .send f :: (events ++ [.answered f (.error e),
      .send (.request (p.errorCloseRequest Runtime.udfErrorCloseCode e.display))]) →
    Finale w (.ok ()) (.error e, w')

theorem closeWith_live {env : Env} {w : World} (hlive : w.dead = false) (code : Nat)
    (e : RuntimeError) : (Runtime.closeWith env code e w).2.log =
      w.log ++ [.send (.request (w.proto.errorCloseRequest code e.display))] := by
  unfold Runtime.closeWith World.send
  rw [hlive]
  rfl

theorem finale_spec (env : Env) (outcome : Except RuntimeError Unit) (w : World)
    (hlive : (Runtime.report env (Runtime.finish env (outcome, w))).2.dead = false) :
    Finale w outcome (Runtime.report env (Runtime.finish env (outcome, w))) := by
  rcases outcome with e | u
  · refine .failed e w.proto (closeWith_live ?_ _ e)
    exact (closeWith_dead env w _ e).symm.trans hlive
  unfold Runtime.finish Runtime.sendFinished at hlive ⊢
  dsimp only at hlive ⊢
  have hspec := World.request_spec env (.request w.proto.finishedReply) w
  rcases hr : w.request env (.request w.proto.finishedReply) with ⟨e | event, w'⟩ <;>
    rw [hr] at hspec hlive
  · have hlive' : w'.dead = false := (closeWith_dead env w' _ e).symm.trans hlive
    cases hspec with
    | stuck _ hdead =>
      rw [hlive'] at hdead
      cases hdead
    | @answered events _ _ _ hwait hlog =>
      have htype : (Frame.request w.proto.finishedReply).messageType
          = MessageType.mtFinished.toI32 := rfl
      refine .unfinished w'.proto htype hwait.isPassing ?_
      refine (closeWith_live hlive' _ e).trans ?_
      rw [hlog]
      simp only [List.append_assoc, List.cons_append, List.nil_append]
  · cases hspec with
    | answered _ hwait hlog => exact .finished rfl hwait.isPassing hlog

/-- The last messages of a history, after an outcome that the cleanup hook has had a say in. -/
structure LastMessages (outcome res : Except RuntimeError Unit) (log : List Event) : Prop where
  finished : outcome = .ok () → log.countP (Event.sendsType .mtFinished) = 1
  notFinished : outcome ≠ .ok () → log.countP (Event.sendsType .mtFinished) = 0
  notClosed : res = .ok () → log.countP (Event.sendsType .mtClose) = 0
  closed : ∀ e, res = .error e → log.countP (Event.sendsType .mtClose) = 1 ∧
    ∃ p : Protocol, log.getLast? =
      some (.send (.request (p.errorCloseRequest Runtime.udfErrorCloseCode e.display)))
  /-- An error is not forgotten. -/
  kept : ∀ e, outcome = .error e → res = .error e

theorem LastMessages.append {outcome res : Except RuntimeError Unit} {front tail : List Event}
    (h : LastMessages outcome res tail) (hfront : ∀ e ∈ front, e.isFinal = false) :
    LastMessages outcome res (front ++ tail) := by
  obtain ⟨hfinished, hclosed⟩ := countP_final_eq_zero hfront
  refine ⟨?_, ?_, ?_, ?_, h.kept⟩
  · rw [List.countP_append, hfinished, Nat.zero_add]
    exact h.finished
  · rw [List.countP_append, hfinished, Nat.zero_add]
    exact h.notFinished
  · rw [List.countP_append, hclosed, Nat.zero_add]
    exact h.notClosed
  · rw [List.countP_append, hclosed, Nat.zero_add]
    intro e he
    obtain ⟨hcount, p, hlast⟩ := h.closed e he
    refine ⟨hcount, p, ?_⟩
    rw [List.getLast?_append, hlast]
    rfl

/-- An event that is about neither the cleanup hook nor an invocation. -/
def Event.IsQuiet (e : Event) : Prop :=
  e.isCleanupStart = false ∧ e.isInvocation = false ∧ ∀ res, e ≠ .hookEnd .cleanup res

theorem Event.isQuiet_of_isPassing {e : Event} (h : e.isPassing = true) : e.IsQuiet :=
  have hearly := isEarly_spec (isEarly_of_isPassing h)
  ⟨hearly.1, isInvocation_of_isPassing h, hearly.2.2⟩

theorem Finale.tail {w : World} {outcome : Except RuntimeError Unit}
    {r : Except RuntimeError Unit × World} (h : Finale w outcome r) :
    ∃ tail, r.2.log = w.log ++ tail ∧ (∀ e ∈ tail, e.IsQuiet) ∧ LastMessages outcome r.1 tail := by
  have hcount : ∀ {events : List Event}, (∀ e ∈ events, e.isPassing = true) →
      events.countP (Event.sendsType .mtFinished) = 0 ∧
        events.countP (Event.sendsType .mtClose) = 0 := fun hevents =>
    countP_final_eq_zero fun e he =>
      (Event.isEarly_spec (Event.isEarly_of_isPassing (hevents e he))).2.1
  have hfinished : ∀ {f : Frame}, f.messageType = MessageType.mtFinished.toI32 →
      (Event.send f).sendsType .mtFinished = true ∧
        ¬ (Event.send f).sendsType .mtClose = true := by
    intro f hf
    show (f.messageType == _) = true ∧ ¬ (f.messageType == _) = true
    rw [hf]
    decide
  cases h with
  -- Dispatch has failed: the close is the only message left.
  | failed e p hlog =>
    refine ⟨_, hlog, ?_, (fun h => nomatch h), fun _ => rfl, (fun h => nomatch h), ?_,
      fun _ h => h⟩
    · intro e' he'
      obtain rfl := List.mem_singleton.mp he'
      exact ⟨rfl, rfl, fun _ h => nomatch h⟩
    · rintro e' ⟨⟩
      exact ⟨rfl, p, rfl⟩
  -- `MT_FINISHED` was answered, and no close follows.
  | @finished events f event w' hf hevents hlog =>
    refine ⟨_, hlog, ?_, fun _ => ?_, fun h => absurd rfl h, fun _ => ?_, (fun _ h => nomatch h),
      (fun _ h => nomatch h)⟩
    · intro e he
      simp only [List.mem_cons, List.mem_append, List.not_mem_nil, or_false] at he
      rcases he with rfl | he | rfl
      · exact ⟨rfl, rfl, fun _ h => nomatch h⟩
      · exact Event.isQuiet_of_isPassing (hevents e he)
      · exact ⟨rfl, rfl, fun _ h => nomatch h⟩
    · rw [List.countP_cons_of_pos (hfinished hf).1, List.countP_append, (hcount hevents).1]
      rfl
    · rw [List.countP_cons_of_neg (hfinished hf).2, List.countP_append, (hcount hevents).2]
      rfl
  -- `MT_FINISHED` was not answered in order, so a close follows it.
  | @unfinished events f e p w' hf hevents hlog =>
    refine ⟨_, hlog, ?_, fun _ => ?_, fun h => absurd rfl h, (fun h => nomatch h), ?_,
      (fun _ h => nomatch h)⟩
    · intro e he
      simp only [List.mem_cons, List.mem_append, List.not_mem_nil, or_false] at he
      rcases he with rfl | he | rfl | rfl
      · exact ⟨rfl, rfl, fun _ h => nomatch h⟩
      · exact Event.isQuiet_of_isPassing (hevents e he)
      · exact ⟨rfl, rfl, fun _ h => nomatch h⟩
      · exact ⟨rfl, rfl, fun _ h => nomatch h⟩
    · rw [List.countP_cons_of_pos (hfinished hf).1, List.countP_append, (hcount hevents).1]
      rfl
    · rintro e' ⟨⟩
      constructor
      · rw [List.countP_cons_of_neg (hfinished hf).2, List.countP_append, (hcount hevents).2]
        rfl
      · refine ⟨p, ?_⟩
        rw [← List.cons_append, List.getLast?_append]
        rfl

/-! ### Sessions -/

/-- How a session with a loaded UDF ends. -/
structure Ending (udf : LoadedUdf) (dispatched res : Except RuntimeError Unit)
    (log : List Event) : Prop where
  unregistered : udf.cleanup = none → log.countP Event.isCleanupStart = 0
  /-- The hook starts once, after every invocation and before the last messages. -/
  registered : udf.cleanup.isSome = true → ∃ before after,
    log = before ++ .hookStart .cleanup "" :: after ∧
    (∀ e ∈ before, e.isCleanupStart = false ∧ e.isFinal = false) ∧
    ∀ e ∈ after, e.isCleanupStart = false ∧ e.isInvocation = false
  finished : dispatched = .ok () → ¬ HookFailed log → log.countP (Event.sendsType .mtFinished) = 1
  notFinished : dispatched ≠ .ok () ∨ HookFailed log →
    log.countP (Event.sendsType .mtFinished) = 0
  notClosed : res = .ok () → log.countP (Event.sendsType .mtClose) = 0
  closed : ∀ e, res = .error e → log.countP (Event.sendsType .mtClose) = 1 ∧
    ∃ p : Protocol, log.getLast? =
      some (.send (.request (p.errorCloseRequest Runtime.udfErrorCloseCode e.display)))
  bothFailed : ∀ e e', dispatched = .error e → .hookEnd .cleanup (.error e') ∈ log →
    ∃ p : Protocol, log.getLast? = some (.send (.request
      (p.errorCloseRequest Runtime.udfErrorCloseCode (bothFailedText e e'))))

/-- How a session ends whose UDF is refused. -/
structure Refused (res : Except RuntimeError Unit) (log : List Event) : Prop where
  failed : ∃ e, res = .error e
  notInvoked : ∀ e ∈ log, e.isCleanupStart = false ∧ e.isInvocation = false
  notFinished : log.countP (Event.sendsType .mtFinished) = 0
  closed : log.countP (Event.sendsType .mtClose) = 1

/-- Without a hook the last messages come right after dispatch. -/
theorem Ending.of_unregistered {udf : LoadedUdf} {dispatched res : Except RuntimeError Unit}
    {early tail : List Event} (hnone : udf.cleanup = none)
    (hearly : ∀ e ∈ early, e.isEarly = true) (hquiet : ∀ e ∈ tail, e.IsQuiet)
    (hlast : LastMessages dispatched res tail) : Ending udf dispatched res (early ++ tail) := by
  have hspec := fun e he => Event.isEarly_spec (hearly e he)
  have hmessages := hlast.append fun e he => (hspec e he).2.1
  have hno : ∀ r, .hookEnd .cleanup r ∉ early ++ tail := by
    intro r hmem
    exact (List.mem_append.mp hmem).elim (fun h => (hspec _ h).2.2 r rfl)
      fun h => (hquiet _ h).2.2 r rfl
  refine ⟨fun _ => ?_, ?_, fun h _ => hmessages.finished h, ?_, hmessages.notClosed,
    hmessages.closed, fun e e' _ hmem => absurd hmem (hno _)⟩
  · rw [List.countP_eq_zero]
    intro e he
    rw [Bool.not_eq_true]
    exact (List.mem_append.mp he).elim (fun h => (hspec e h).1) fun h => (hquiet e h).1
  · intro hsome
    rw [hnone] at hsome
    cases hsome
  · rintro (h | ⟨e, hmem⟩)
    · exact hmessages.notFinished h
    · exact absurd hmem (hno _)

/-- The history of a session with a cleanup hook: what comes before the hook, its calls, its result
and the last messages. -/
def hookLog (early calls : List Event) (hook : Except RuntimeError Unit) (tail : List Event) :
    List Event :=
  early ++ .hookStart .cleanup "" :: (calls ++ .hookEnd .cleanup (hook.map fun _ => "") :: tail)

section

variable {early calls tail : List Event} (hook : Except RuntimeError Unit)

/-- The hook ends once, with its own result: no other part of the history has its end. -/
theorem hookEnd_mem_hookLog (hearly : ∀ e ∈ early, e.isEarly = true)
    (hcalls : ∀ e ∈ calls, e.IsQuiet) (hquiet : ∀ e ∈ tail, e.IsQuiet)
    (r : Except RuntimeError String) :
    .hookEnd .cleanup r ∈ hookLog early calls hook tail ↔ r = hook.map fun _ => "" := by
  simp only [hookLog, List.mem_cons, List.mem_append]
  constructor
  · rintro (h | h | h | h | h)
    · exact absurd rfl ((Event.isEarly_spec (hearly _ h)).2.2 r)
    · cases h
    · exact absurd rfl ((hcalls _ h).2.2 r)
    · injection h
    · exact absurd rfl ((hquiet _ h).2.2 r)
  · rintro rfl
    exact .inr (.inr (.inr (.inl rfl)))

theorem LastMessages.hookLog {outcome res : Except RuntimeError Unit}
    (hlast : LastMessages outcome res tail) (hearly : ∀ e ∈ early, e.isEarly = true)
    (hcalls : ∀ e ∈ calls, e.isFinal = false) :
    LastMessages outcome res (hookLog early calls hook tail) := by
  have hfront : ∀ e ∈ early ++ .hookStart .cleanup "" ::
      (calls ++ [.hookEnd .cleanup (hook.map fun _ => "")]), e.isFinal = false := by
    intro e he
    simp only [List.mem_cons, List.mem_append, List.not_mem_nil, or_false] at he
    rcases he with he | rfl | he | rfl
    · exact (Event.isEarly_spec (hearly e he)).2.1
    · rfl
    · exact hcalls e he
    · rfl
  have hmessages := hlast.append hfront
  rwa [List.append_assoc, List.cons_append, List.append_assoc] at hmessages

/-- A hook that has run stands between dispatch and the last messages. -/
theorem Ending.of_ran {udf : LoadedUdf} {dispatched outcome res : Except RuntimeError Unit}
    (hsome : udf.cleanup.isSome = true) (hearly : ∀ e ∈ early, e.isEarly = true)
    (hcalls : ∀ e ∈ calls, e.IsQuiet ∧ e.isFinal = false) (hquiet : ∀ e ∈ tail, e.IsQuiet)
    (hlast : LastMessages outcome res tail) (hok : ∀ u, hook = .ok u → outcome = dispatched)
    (hfold : ∀ e, hook = .error e → outcome = Cleanup.fold dispatched e) :
    Ending udf dispatched res (hookLog early calls hook tail) := by
  have hmessages := hlast.hookLog hook hearly fun e he => (hcalls e he).2
  have hend := hookEnd_mem_hookLog hook hearly (fun e he => (hcalls e he).1) hquiet
  refine ⟨?_, fun _ => ⟨early, _, rfl, fun e he => ?_, ?_⟩, ?_, ?_, hmessages.notClosed,
    hmessages.closed, ?_⟩
  · intro hnone
    rw [hnone] at hsome
    cases hsome
  · exact ⟨(Event.isEarly_spec (hearly e he)).1, (Event.isEarly_spec (hearly e he)).2.1⟩
  · intro e he
    simp only [List.mem_cons, List.mem_append] at he
    rcases he with he | rfl | he
    · exact ⟨(hcalls e he).1.1, (hcalls e he).1.2.1⟩
    · exact ⟨rfl, rfl⟩
    · exact ⟨(hquiet e he).1, (hquiet e he).2.1⟩
  · intro hdispatched hhook
    apply hmessages.finished
    rcases hook with e | u
    · exact absurd ⟨e, (hend _).mpr rfl⟩ hhook
    · exact (hok u rfl).trans hdispatched
  · intro hfailed
    apply hmessages.notFinished
    rcases hook with e | u
    · rw [hfold e rfl]
      cases dispatched <;> exact fun h => nomatch h
    · rw [hok u rfl]
      refine hfailed.elim id ?_
      rintro ⟨e, he⟩
      cases (hend _).mp he
  · rintro e e' rfl hmem
    have hres := (hend _).mp hmem
    rcases hook with e'' | u
    · cases hres
      exact (hmessages.closed _ (hmessages.kept _ (hfold e' rfl))).2
    · cases hres

end

theorem serve_ending {env : Env} {m : UdfMeta} {udf : LoadedUdf} {w : World}
    (hearly : ∀ e ∈ (Runtime.dispatch env m udf w).2.log, e.isEarly = true)
    (hlive : (Runtime.serve env m udf w).2.dead = false) :
    Ending udf (Runtime.dispatch env m udf w).1 (Runtime.serve env m udf w).1
      (Runtime.serve env m udf w).2.log := by
  unfold Runtime.serve at hlive ⊢
  dsimp only at hlive ⊢
  generalize Runtime.dispatch env m udf w = dispatched at hearly hlive ⊢
  have hhook := runHook_spec udf dispatched.1 dispatched.2
  generalize Cleanup.runHook udf dispatched.1 dispatched.2 = cleaned at hhook hlive ⊢
  obtain ⟨outcome, w₂⟩ := cleaned
  obtain ⟨tail, hlog, hquiet, hlast⟩ := (finale_spec env outcome w₂ hlive).tail
  rw [hlog]
  cases hhook with
  | unregistered hnone => exact .of_unregistered hnone hearly hquiet hlast
  | @ran calls hook _ hsome hcalls hlog₂ hdead =>
    have hcall : ∀ e ∈ calls, e.IsQuiet ∧ e.isFinal = false := by
      intro e he
      have hnote := Event.isEarly_spec (Event.isEarly_of_isDispatchNote (hcalls e he).1)
      exact ⟨⟨hnote.1, (hcalls e he).2, hnote.2.2⟩, hnote.2.1⟩
    have hending := Ending.of_ran hook hsome hearly hcall hquiet hlast
      (fun u hu => by rw [hu]) (fun e he => by rw [he])
    rwa [hlog₂, List.append_assoc, List.cons_append, List.append_assoc]

namespace Runtime

/-- **The end of a session.**  Once the handshake is over, either the UDF is refused and one
`MT_CLOSE` says so, or dispatch is followed by the cleanup hook and by the last messages. -/
theorem run_ending (rt : Runtime) (env : Env) (inbox : List ExascriptResponse) {m : UdfMeta}
    {w : World} (hshake : (handshake env).run (rt.greet inbox) = (.ok m, w))
    (hlive : (rt.run env inbox).2.dead = false) :
    (∀ udf, loadUdf env m = .ok udf → Ending udf (dispatch env m udf w).1
      (rt.run env inbox).1 (rt.run env inbox).2.log) ∧
    ∀ code e, loadUdf env m = .error (code, e) →
      Refused (rt.run env inbox).1 (rt.run env inbox).2.log := by
  have hgreeting := handshake_isGreeting rt env inbox
  rw [run_eq] at hlive ⊢
  rw [hshake] at hlive hgreeting ⊢
  dsimp only at hlive hgreeting ⊢
  unfold runLoaded at hlive ⊢
  constructor
  · intro udf hload
    rw [hload] at hlive ⊢
    refine serve_ending ?_ hlive
    have hrel := dispatchRel_adds env
    obtain ⟨events, hlog, hevents⟩ := hrel.trans (hrel.work _ w (by rfl))
      (hrel.dispatch m udf w)
    rw [hlog]
    intro e he
    rcases List.mem_append.mp he with he | he
    · exact Bool.or_eq_true_iff.mpr (.inl (hgreeting e he))
    · exact Bool.or_eq_true_iff.mpr (.inr (hevents e he))
  · intro code e hload
    rw [hload] at hlive ⊢
    dsimp only at hlive ⊢
    have hlog := @closeWith_live env _ ((closeWith_dead env w code e).symm.trans hlive) code e
    have hspec := fun e he => Event.isEarly_spec (Bool.or_eq_true_iff.mpr (.inl (hgreeting e he)))
    obtain ⟨hfinished, hclosed⟩ := countP_final_eq_zero fun e he => (hspec e he).2.1
    rw [hlog]
    refine ⟨⟨e, rfl⟩, ?_, ?_, ?_⟩
    · intro e' he'
      rcases List.mem_append.mp he' with he' | he'
      · refine ⟨(hspec e' he').1, ?_⟩
        have hgreet := hgreeting e' he'
        cases e' <;> first | rfl | cases hgreet
      · obtain rfl := List.mem_singleton.mp he'
        exact ⟨rfl, rfl⟩
    · rw [List.countP_append, hfinished]
      rfl
    · rw [List.countP_append, hclosed]
      rfl

/-- The only invocation fails, and the cleanup hook fails too. -/
theorem run_ending_sample :
    let udf := { LoadedUdf.emitting fun _ => .done ⟨1, "no room"⟩ with
      cleanup := some fun _ => .done ⟨1, "no lock"⟩ }
    let env := Env.reference udf
    let rt := Runtime.mk "rust"
    let inbox := openingResponses 2 2 ++ [.ofType .mtRun, batchResponse [1, 2]]
    ∃ m w, (handshake env).run (rt.greet inbox) = (.ok m, w) ∧
      (∀ udf, loadUdf env m = .ok udf → Ending udf (dispatch env m udf w).1
        (rt.run env inbox).1 (rt.run env inbox).2.log) ∧
      ∀ code e, loadUdf env m = .error (code, e) →
        Refused (rt.run env inbox).1 (rt.run env inbox).2.log := by
  intro udf env rt inbox
  have hok : ((handshake env).run (rt.greet inbox)).1.toOption.isSome = true := by decide +kernel
  have hlive : (rt.run env inbox).2.dead = false := by decide +kernel
  rcases hshake : (handshake env).run (rt.greet inbox) with ⟨e | m, w⟩
  · rw [hshake] at hok
    cases hok
  · exact ⟨m, w, rfl, run_ending rt env inbox hshake hlive⟩

end Runtime

end ExaUdf
