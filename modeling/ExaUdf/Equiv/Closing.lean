import ExaUdf.Equiv.Dispatch
import ExaUdf.Equiv.Ending

/-!
# A close of the database

When the database answers with an `MT_CLOSE` that carries a reason, the session is to fail with a
text that contains it, and to start no further group.  `Runtime.run_close` says when it does.

`closing` reads a history and says where the reasons are kept: in the result of dispatch, or in the
text of a failing invocation.  They are `lost` where the answer goes to an exchange that does not
look at it, and where a later one takes their place.
-/

namespace ExaUdf

/-! ### Reasons -/

def HostEvent.reason? : HostEvent → Option String
  | .close message => message
  | _ => none

/-- The reason that an exchange was answered with. -/
def Event.reason? : Event → Option String
  | .answered _ (.ok event) => event.reason?
  | _ => none

/-- The text of an error contains the reason. -/
def Mentions (e : RuntimeError) (reason : String) : Prop :=
  reason.toList <:+: e.display.toList

instance (e : RuntimeError) (reason : String) : Decidable (Mentions e reason) :=
  inferInstanceAs (Decidable (_ <:+: _))

theorem mentions_udf (reason : String) : Mentions (.udf reason) reason := by
  refine ⟨"UDF error: ".toList, [], ?_⟩
  rw [List.append_nil]
  exact (String.toList_append ..).symm

/-- Every close with a reason ends dispatch, and the session fails with a text that contains it. -/
def CloseKept (res : Except RuntimeError Unit) (log : List Event) : Prop :=
  ∀ before e reason after, log = before ++ e :: after → e.reason? = some reason →
    (∀ e' ∈ after, e'.sendsType .mtRun = false) ∧ ∃ err, res = .error err ∧ Mentions err reason

/-! ### Where reasons are kept -/

inductive Closing where
  /-- There has been none; whether an invocation is running. -/
  | open (inside : Bool)
  /-- The reasons that a running invocation has met, and the one noted for the end of the group. -/
  | told (reasons : List String) (noted : Option String)
  /-- The reasons that the result of the session is to contain. -/
  | closed (reasons : List String)
  | lost
  deriving DecidableEq, Repr

namespace Closing

/-- A close with a reason answers a request of some type. -/
def hear (inside : Bool) (reason : String) : MessageType → Closing
  | .mtRun | .mtDone => .closed [reason]
  | .mtNext => if inside then .told [reason] (some reason) else .closed [reason]
  -- The answer to `MT_EMIT` is dropped; a failed lookup is for the UDF to act on.
  | .mtEmit | .mtImport => if inside then .told [reason] none else .lost
  | _ => .lost

/-- What is noted for the end of the group after another exchange. -/
def note (noted : Option String) (kind : MessageType) (event : HostEvent) : Option String :=
  match kind, event with
  | .mtNext, .close message => message
  | .mtNext, .cleanup => none
  | _, _ => noted

def step : Closing → Event → Closing
  | .open inside, .answered f (.ok event) =>
    match event.reason? with
    | none => .open inside
    | some reason => hear inside reason f.kind
  | .open _, .runStart => .open true
  | .open _, .runEnd _ => .open false
  | .told reasons noted, .answered f (.ok event) =>
    .told (event.reason?.toList ++ reasons) (note noted f.kind event)
  -- An invocation that succeeds keeps what was noted; one that fails, what its text contains.
  | .told reasons noted, .runEnd (.ok _) =>
    if ∀ reason ∈ reasons, noted = some reason then .closed reasons else .lost
  | .told reasons _, .runEnd (.error e) =>
    if ∀ reason ∈ reasons, Mentions e reason then .closed reasons else .lost
  | .closed reasons, .answered _ (.ok event) =>
    if event.reason?.isSome then .lost else .closed reasons
  | c, _ => c

end Closing

def closing (log : List Event) : Closing :=
  log.foldl Closing.step (.open false)

@[simp] theorem closing_append (log events : List Event) :
    closing (log ++ events) = events.foldl Closing.step (closing log) :=
  List.foldl_append

namespace Closing

theorem step_lost (e : Event) : step .lost e = .lost := by
  cases e <;> rfl

theorem foldl_lost (events : List Event) : events.foldl step .lost = .lost := by
  induction events with
  | nil => rfl
  | cons e events ih =>
    rw [List.foldl_cons, step_lost]
    exact ih

theorem step_passing {e : Event} (h : e.isPassing = true) (c : Closing) : step c e = c := by
  cases e <;> first | (cases c <;> rfl) | cases h

theorem foldl_passing {events : List Event} (h : ∀ e ∈ events, e.isPassing = true) (c : Closing) :
    events.foldl step c = c := by
  induction events with
  | nil => rfl
  | cons e events ih =>
    rw [List.foldl_cons, step_passing (h e List.mem_cons_self)]
    exact ih fun e he => h e (List.mem_cons_of_mem _ he)

theorem foldl_greeting {events : List Event} (h : ∀ e ∈ events, e.isGreeting = true) :
    events.foldl step (.open false) = .open false := by
  induction events with
  | nil => rfl
  | cons e events ih =>
    have hstep : step (.open false) e = .open false := by
      have hgreet := h e List.mem_cons_self
      cases e <;> first | rfl | cases hgreet
    rw [List.foldl_cons, hstep]
    exact ih fun e he => h e (List.mem_cons_of_mem _ he)

/-- The reasons that are kept track of. -/
def reasons : Closing → List String
  | .told rs _ | .closed rs => rs
  | _ => []

theorem hear_reasons {inside : Bool} {reason : String} {kind : MessageType}
    (h : hear inside reason kind ≠ .lost) : (hear inside reason kind).reasons = [reason] := by
  cases kind <;> cases inside <;> first | rfl | exact absurd rfl h

theorem step_reasons {c : Closing} {e : Event} (h : step c e ≠ .lost) :
    (∀ reason ∈ c.reasons, reason ∈ (step c e).reasons) ∧
      ∀ reason, e.reason? = some reason → reason ∈ (step c e).reasons := by
  have hnothing : ∀ {c' : Closing}, c.reasons = c'.reasons → e.reason? = none →
      (∀ reason ∈ c.reasons, reason ∈ c'.reasons) ∧
        ∀ reason, e.reason? = some reason → reason ∈ c'.reasons := by
    intro c' hsame hno
    rw [hsame, hno]
    exact ⟨fun _ h => h, fun _ h => nomatch h⟩
  cases e with
  | answered f res =>
    rcases res with err | event
    · cases c <;> exact hnothing rfl rfl
    cases c with
    | lost => exact absurd rfl h
    | «open» inside =>
      rcases hreason : event.reason? with - | reason
      · simp only [step, hreason] at h ⊢
        exact hnothing rfl hreason
      · simp only [step, hreason] at h ⊢
        refine ⟨fun _ hr => absurd hr List.not_mem_nil, fun reason' hr => ?_⟩
        obtain rfl := Option.some.inj (hreason.symm.trans hr)
        rw [hear_reasons h]
        exact List.mem_singleton_self reason
    -- A second reason joins those that the invocation has met before.
    | told rs noted =>
      refine ⟨fun reason hr => List.mem_append_right _ hr, fun reason hr => ?_⟩
      have hreason : event.reason? = some reason := hr
      show reason ∈ event.reason?.toList ++ rs
      rw [hreason]
      exact List.mem_cons_self
    | closed rs =>
      rcases hreason : event.reason? with - | reason
      · simp only [step, hreason, Option.isSome_none, Bool.false_eq_true, if_false]
        exact hnothing rfl hreason
      · simp only [step, hreason, Option.isSome_some, if_true] at h
        exact absurd rfl h
  | runEnd res =>
    cases c with
    | told rs noted =>
      rcases res with err | u <;> simp only [step] at h ⊢ <;> split_ifs at h ⊢ <;>
        first | exact hnothing rfl rfl | exact absurd rfl h
    | _ => exact hnothing rfl rfl
  | runStart => cases c <;> exact hnothing rfl rfl
  | _ => cases c <;> exact hnothing rfl rfl

end Closing

/-- No reason has been overlooked. -/
theorem closing_reasons {log : List Event} (h : closing log ≠ .lost) :
    ∀ e ∈ log, ∀ reason, e.reason? = some reason → reason ∈ (closing log).reasons := by
  induction log using List.reverseRecOn with
  | nil => exact fun _ he => absurd he List.not_mem_nil
  | append_singleton log e ih =>
    have hstep : closing (log ++ [e]) = (closing log).step e := closing_append log [e]
    rw [hstep] at h ⊢
    -- Lost once, lost for good: so nothing was lost before the last event.
    have hbefore : closing log ≠ .lost := by
      intro hlost
      rw [hlost, Closing.step_lost] at h
      exact h rfl
    intro e' he' reason hreason
    obtain ⟨hkeep, hnew⟩ := Closing.step_reasons h
    rcases List.mem_append.mp he' with he' | he'
    · exact hkeep reason (ih hbefore e' he' reason hreason)
    · obtain rfl := List.mem_singleton.mp he'
      exact hnew reason hreason

/-! ### Exchanges -/

/-- No group is opened after a reason. -/
def Barred (log : List Event) : Prop :=
  log.Pairwise fun e e' => e.reason?.isSome = true → e'.sendsType .mtRun = false

theorem Barred.of_quiet {events : List Event}
    (h : ∀ e ∈ events, e.sendsType .mtRun = false) : Barred events :=
  List.Pairwise.imp_of_mem (fun _ he' _ _ => h _ he')
    (List.pairwise_of_forall (R := fun _ _ : Event => True) fun _ _ => trivial)

theorem Barred.push {log : List Event} (h : Barred log) {e : Event}
    (he : e.sendsType .mtRun = false) : Barred (log ++ [e]) :=
  List.pairwise_append.mpr ⟨h, List.pairwise_singleton _ _, fun _ _ _ he' _ =>
    List.mem_singleton.mp he' ▸ he⟩

theorem barred_of_reasons {log : List Event} (hlost : closing log ≠ .lost)
    (h : (closing log).reasons = []) : ∀ e ∈ log, e.reason?.isSome = false := by
  intro e he
  rcases hreason : e.reason? with - | reason
  · rfl
  · have hmem := closing_reasons hlost e he reason hreason
    rw [h] at hmem
    cases hmem

theorem sendsType_of_isPassing {e : Event} (h : e.isPassing = true) :
    e.sendsType .mtRun = false := by
  cases e with
  | send f =>
    have hping : f.messageType = pingType := beq_iff_eq.mp h
    show (f.messageType == _) = false
    rw [hping]
    decide
  | _ => rfl

/-- An exchange that opens no group after a reason. -/
theorem request_closing {w : World} (env : Env) {f : Frame} (hlost : closing w.log ≠ .lost)
    (hbarred : Barred w.log)
    (hf : (closing w.log).reasons = [] ∨ (Event.send f).sendsType .mtRun = false) :
    closing (w.request env f).2.log =
        (closing w.log).step (.answered f (w.request env f).1) ∧
      Barred (w.request env f).2.log := by
  have hspec := World.request_spec env f w
  generalize w.request env f = r at hspec
  cases hspec with
  | stuck e =>
    refine ⟨?_, hbarred⟩
    show _ = (closing w.log).step (.answered f (.error e))
    cases closing w.log <;> rfl
  | @answered events res w' _ hwait hlog =>
    have hpassing := hwait.isPassing
    constructor
    · rw [hlog, closing_append, List.foldl_cons, List.foldl_append]
      have hsend : (closing w.log).step (.send f) = closing w.log := by
        cases closing w.log <;> rfl
      rw [hsend, Closing.foldl_passing hpassing]
      rfl
    · rw [hlog]
      have hquiet : ∀ e ∈ events ++ [.answered f res], e.sendsType .mtRun = false := by
        intro e he
        rcases List.mem_append.mp he with he | he
        · exact sendsType_of_isPassing (hpassing e he)
        · obtain rfl := List.mem_singleton.mp he
          rfl
      -- Only the request itself can open a group, and then there has been no reason.
      refine List.pairwise_append.mpr ⟨hbarred, List.pairwise_cons.mpr
        ⟨(fun _ _ h => nomatch h), Barred.of_quiet hquiet⟩, fun e he e' he' hreason => ?_⟩
      rcases List.mem_cons.mp he' with rfl | he'
      · refine hf.resolve_left fun hnone => ?_
        rw [barred_of_reasons hlost hnone e he] at hreason
        cases hreason
      · exact hquiet e' he'

/-- Outside invocations, before any reason. -/
def Free (inside : Bool) (w : World) : Prop :=
  closing w.log = .lost ∨ closing w.log = .open inside

theorem Free.push {inside inside' : Bool} {w : World} {e : Event} (h : Free inside w)
    (he : Closing.step (.open inside) e = .open inside') : Free inside' (w.push e) := by
  have hstep : closing (w.push e).log = (closing w.log).step e := closing_append _ _
  unfold Free
  rw [hstep]
  rcases h with h | h <;> rw [h]
  · exact .inl (Closing.step_lost e)
  · exact .inr he

theorem lost_mono {log log' : List Event} (h : closing log = .lost) (hle : log <+: log') :
    closing log' = .lost := by
  obtain ⟨later, rfl⟩ := hle
  rw [closing_append, h]
  exact Closing.foldl_lost later

/-- What an exchange before any reason comes to. -/
inductive Reply (inside : Bool) (f : Frame) : Except RuntimeError HostEvent × World → Prop where
  | lost {r : Except RuntimeError HostEvent × World} : closing r.2.log = .lost → Reply inside f r
  | failed {e : RuntimeError} {w : World} : closing w.log = .open inside →
    Reply inside f (.error e, w)
  | plain {event : HostEvent} {w : World} : event.reason? = none →
    closing w.log = .open inside → Reply inside f (.ok event, w)
  | reason {event : HostEvent} {reason : String} {w : World} : event.reason? = some reason →
    closing w.log = Closing.hear inside reason f.kind → Barred w.log →
    Reply inside f (.ok event, w)

theorem Free.request {inside : Bool} {w : World} (h : Free inside w) (env : Env) (f : Frame) :
    Reply inside f (w.request env f) := by
  rcases h with h | h
  · exact .lost (lost_mono h ((sessionRel_log env).request f w))
  have hlost : closing w.log ≠ .lost := by
    rw [h]
    exact fun h => nomatch h
  have hnone : (closing w.log).reasons = [] := by rw [h]; rfl
  have hbarred : Barred w.log := List.Pairwise.imp_of_mem
    (fun he _ _ hreason => absurd hreason
      (by rw [barred_of_reasons hlost hnone _ he]; exact Bool.false_ne_true))
    (List.pairwise_of_forall (R := fun _ _ : Event => True) fun _ _ => trivial)
  obtain ⟨hclosing, hafter⟩ := request_closing env hlost hbarred (f := f) (.inl hnone)
  rw [h] at hclosing
  generalize w.request env f = r at hclosing hafter
  obtain ⟨e | event, w'⟩ := r
  · exact .failed hclosing
  · rcases hreason : event.reason? with - | reason <;>
      simp only [Closing.step, hreason] at hclosing
    · exact .plain hreason hclosing
    · exact .reason hreason hclosing hafter

/-! ### Invocations -/

/-- Where an invocation may stand: what is noted for the end of the group is in the exit. -/
inductive Met (multiple : Prop) (fd : Feed) : Prop where
  | free : Free true fd.world → Met multiple fd
  | told {rs : List String} {noted : Option String} : closing fd.world.log = .told rs noted →
    rs ≠ [] → Barred fd.world.log →
    (∀ reason, noted = some reason → multiple ∧ fd.exit = some (.closed (some reason))) →
    Met multiple fd

theorem told_ne_lost {log : List Event} {rs : List String} {noted : Option String}
    (h : closing log = .told rs noted) : closing log ≠ .lost := by
  rw [h]
  exact fun h => nomatch h

theorem Met.write {multiple : Prop} {fd : Feed} (h : Met multiple fd) (env : Env) {f : Frame}
    (hkind : f.kind = .mtEmit ∨ f.kind = .mtImport)
    (hrun : (Event.send f).sendsType .mtRun = false) : Met multiple (fd.exchange env f) := by
  cases h with
  | free hw =>
    have hreply := hw.request env f
    unfold Feed.exchange
    generalize fd.world.request env f = r at hreply
    cases hreply with
    | lost hlost => exact .free (.inl hlost)
    | failed hopen | plain _ hopen => exact .free (.inr hopen)
    | @reason event reason w' _ hclosing hbarred =>
      have htold : Closing.hear true reason f.kind = .told [reason] none := by
        rcases hkind with hkind | hkind <;> rw [hkind] <;> rfl
      exact .told (hclosing.trans htold) (List.cons_ne_nil _ _) hbarred fun _ h => nomatch h
  | @told rs noted hw hne hbarred hexit =>
    -- The reasons met earlier stay, and a write notes nothing for the end of the group.
    obtain ⟨hclosing, hafter⟩ := request_closing env (told_ne_lost hw) hbarred (.inr hrun)
    rw [hw] at hclosing
    unfold Feed.exchange
    generalize fd.world.request env f = r at hclosing hafter
    obtain ⟨e | event, w'⟩ := r
    · exact .told hclosing hne hafter hexit
    · refine .told hclosing (List.append_ne_nil_of_right_ne_nil _ hne) hafter fun reason h => ?_
      refine hexit reason ?_
      rw [← h]
      rcases hkind with hkind | hkind <;> rw [hkind] <;> cases event <;> rfl

theorem writeRel_met (multiple : Prop) (env : Env) :
    Feed.WriteRel env fun fd fd' => Met multiple fd → Met multiple fd' where
  refl _ := id
  trans hab hbc := hbc ∘ hab
  emit _ _ _ h := h.write env (.inl (by rfl)) (by rfl)
  lookup _ _ h := h.write env (.inr (by rfl)) (by rfl)

theorem Met.next {multiple : Prop} (hm : multiple) (env : Env) (fd : Feed)
    (h : Met multiple fd) : Met multiple ((fd.fetchStep env).elim Prod.snd id) := by
  have hworld := Feed.fetchStep_world env fd
  have hexit := Feed.fetchStep_exit env fd
  generalize (fd.fetchStep env).elim Prod.snd id = fd' at hworld hexit
  obtain ⟨w', exit'⟩ := fd'
  dsimp only at hworld hexit
  subst hworld
  cases h with
  | free hw =>
    have hreply := hw.request env (.request fd.world.proto.nextRequest)
    generalize fd.world.request env (.request fd.world.proto.nextRequest) = r at hreply hexit ⊢
    cases hreply with
    | lost hlost => exact .free (.inl hlost)
    | failed hopen | plain _ hopen => exact .free (.inr hopen)
    | @reason event reason w' hreason hclosing hbarred =>
      have htold : closing w'.log = .told [reason] (some reason) := hclosing
      -- The first reason: the exit of the group is now a close with this very text.
      refine .told htold (List.cons_ne_nil _ _) hbarred fun r h => ?_
      cases h
      refine ⟨hm, ?_⟩
      cases event with
      | close message => exact hexit.trans (congrArg _ (congrArg _ hreason))
      | _ => cases hreason
  | @told rs noted hw hne hbarred hnoted =>
    obtain ⟨hclosing, hafter⟩ := request_closing env (told_ne_lost hw) hbarred
      (f := .request fd.world.proto.nextRequest) (.inr (by rfl))
    rw [hw] at hclosing
    generalize fd.world.request env (.request fd.world.proto.nextRequest) = r
      at hclosing hafter hexit ⊢
    obtain ⟨e | event, w'⟩ := r
    · exact .told hclosing hne hafter (hexit ▸ hnoted)
    · refine .told hclosing (List.append_ne_nil_of_right_ne_nil _ hne) hafter fun reason h => ?_
      refine ⟨hm, ?_⟩
      cases event with
      | close message =>
        obtain rfl : message = some reason := h
        exact hexit
      -- A cleanup takes the place of what was noted before it.
      | cleanup => cases h
      | _ => exact hexit.trans (hnoted reason h).2

theorem Met.push_call {multiple : Prop} (fd : Feed) (rowNumber : UInt64) (op : CtxOp)
    (ans : CtxAns op) (h : Met multiple fd) : Met multiple (fd.push (.call rowNumber op ans)) := by
  cases h with
  | free hw => exact .free (hw.push rfl)
  | told hw hne hbarred hnoted =>
    refine .told ((closing_append _ _).trans ?_) hne (hbarred.push rfl) hnoted
    rw [hw]
    rfl

/-! ### Groups -/

/-- The reason that ended the group is in its exit. -/
def Noted (fd : Feed) : Prop :=
  ∃ rs reason, closing fd.world.log = .closed rs ∧ Barred fd.world.log ∧
    fd.exit = some (.closed (some reason)) ∧ ∀ r ∈ rs, r = reason

/-- Every reason is in the result. -/
def Kept (res : Except RuntimeError Unit) (w : World) : Prop :=
  Free false w ∨ ∃ rs err, closing w.log = .closed rs ∧ Barred w.log ∧ res = .error err ∧
    ∀ r ∈ rs, Mentions err r

section

variable (env : Env) (m : UdfMeta)

theorem runOnce_met (udf : LoadedUdf) {b : HostContextBridge} (h : Free false b.world) :
    let r := runOnce env m udf b
    (r.1 = .ok () → Free false r.2.world ∨ m.inputIter = .multiple ∧ Noted r.2.toFeed) ∧
      ∀ e, r.1 = .error e → Kept (.error e) r.2.world := by
  refine runOnce_rule env m udf (I := fun b => Met (m.inputIter = .multiple) b.toFeed)
    (Q := fun res b => (res = .ok () → Free false b.world ∨ m.inputIter = .multiple ∧
      Noted b.toFeed) ∧ ∀ e, res = .error e → Kept (.error e) b.world)
    (handle_rule env m (writeRel_met _ env) (fun hm => Met.next hm env) Met.push_call) ?_
    (.free (h.push rfl))
  intro b res hb
  have hstep : closing (b.push (.runEnd res)).world.log
      = (closing b.world.log).step (.runEnd res) := closing_append _ _
  cases hb with
  | free hw =>
    have hafter : Free false (b.push (.runEnd res)).world := hw.push rfl
    exact ⟨fun _ => .inl hafter, fun _ _ => .inl hafter⟩
  | @told rs noted hw hne hbarred hnoted =>
    rw [hw] at hstep
    have hbarred' : Barred (b.push (.runEnd res)).world.log := hbarred.push rfl
    -- The failure of the UDF is kept as it is; its success leaves the group with the exit.
    rcases res with e | u
    · refine ⟨(fun h => nomatch h), ?_⟩
      rintro e' ⟨⟩
      simp only [Closing.step] at hstep
      split_ifs at hstep with hmentions
      · exact .inr ⟨rs, e, hstep, hbarred', rfl, hmentions⟩
      · exact .inl (.inl hstep)
    · refine ⟨fun _ => ?_, fun _ h => nomatch h⟩
      simp only [Closing.step] at hstep
      split_ifs at hstep with hall
      · obtain ⟨reason, hreason⟩ := List.exists_mem_of_ne_nil rs hne
        obtain ⟨hm, hexit⟩ := hnoted reason (hall reason hreason)
        refine .inr ⟨hm, rs, reason, hstep, hbarred', hexit, fun r hr => ?_⟩
        exact Option.some.inj ((hall r hr).symm.trans (hall reason hreason))
      · exact .inl (.inl hstep)

/-- Outside an invocation, only the end of a group can bring a reason. -/
theorem fetch_noted {fd : Feed} (h : Free false fd.world) :
    Free false (fd.fetch env).2.world ∨ (fd.fetch env).1 = .ok none ∧ Noted (fd.fetch env).2 := by
  refine (Feed.fetchLoop env).run_elim (P := fun fd => Free false fd.world)
    (Q := fun r => Free false r.2.world ∨ r.1 = .ok none ∧ Noted r.2) (fun fd hfd => ?_) h
  have hreply := hfd.request env (.request fd.world.proto.nextRequest)
  show (fd.fetchStep env).elim _ _
  unfold Feed.fetchStep
  generalize fd.world.request env (.request fd.world.proto.nextRequest) = r at hreply
  obtain ⟨e | event, w⟩ := r
  · cases hreply with
    | lost hlost => exact .inl (.inl hlost)
    | failed hopen => exact .inl (.inr hopen)
  · cases hreply with
    | lost hlost => cases event <;> first | exact .inl hlost | exact .inl (.inl hlost)
    | plain _ hopen => cases event <;> first | exact .inr hopen | exact .inl (.inr hopen)
    | @reason _ reason _ hreason hclosing hbarred =>
      -- Of the answers that carry a reason, `next` takes a close for the end of the group.
      cases event with
      | close message =>
        obtain rfl : message = some reason := hreason
        refine .inr ⟨rfl, [reason], reason, hclosing, hbarred, rfl, fun r hr => ?_⟩
        exact List.mem_singleton.mp hr
      | _ => cases hreason

theorem Free.of_fetch {fd fd' : Feed} {res : Except UdfError (Option ExascriptTableData)}
    (h : Free false fd.world) (hf : fd.fetch env = (res, fd')) (hres : res ≠ .ok none) :
    Free false fd'.world := by
  have hfetch := fetch_noted env h
  rw [hf] at hfetch
  exact hfetch.resolve_right fun h => hres h.1

theorem advanceRow_noted {b : HostContextBridge} (h : Free false b.world) :
    let r := b.advanceRow env m
    Free false r.2.world ∨ r.1 = .ok false ∧ Noted r.2.toFeed := by
  unfold HostContextBridge.advanceRow
  split
  · exact .inl h
  rename_i input _
  refine HostContextBridge.refill_rule env m (P := fun b => Free false b.world)
    (Q := fun res b => Free false b.world ∨ res = .ok false ∧ Noted b.toFeed)
    ?_ ?_ ?_ ?_ ?_ (b := { b with input := input }) h
  · exact fun b e feed hb hf => .inl (hb.of_fetch env hf fun h => nomatch h)
  · intro b feed hb hf
    have hfetch := @fetch_noted env b.toFeed hb
    rw [hf] at hfetch
    exact hfetch.imp_right fun h => ⟨rfl, h.2⟩
  · exact fun b table feed e hb hf _ => .inl (hb.of_fetch env hf fun h => nomatch h)
  · exact fun b table feed input hb hf _ _ => hb.of_fetch env hf fun h => nomatch h
  · exact fun b table feed input hb hf _ _ => .inl (hb.of_fetch env hf fun h => nomatch h)

theorem firstNonemptyInput_noted {w : World} (h : Free false w) :
    let r := (firstNonemptyInput env m).run ⟨w, none⟩
    Free false r.2.world ∨ r.1 = .ok none ∧ Noted r.2 := by
  refine firstNonemptyInput_rule env m (P := fun fd => Free false fd.world)
    (Q := fun res fd => Free false fd.world ∨ res = .ok none ∧ Noted fd) ?_ ?_ ?_ ?_ ?_ h
  · exact fun fd e fd' hfd hf => .inl (hfd.of_fetch env hf fun h => nomatch h)
  · intro fd fd' hfd hf
    have hfetch := fetch_noted env hfd
    rw [hf] at hfetch
    exact hfetch.imp_right fun h => ⟨rfl, h.2⟩
  · exact fun fd table fd' e hfd hf _ => .inl (hfd.of_fetch env hf fun h => nomatch h)
  · exact fun fd table fd' input hfd hf _ _ => hfd.of_fetch env hf fun h => nomatch h
  · exact fun fd table fd' input hfd hf _ _ => .inl (hfd.of_fetch env hf fun h => nomatch h)

theorem driveGroupRows_noted (udf : LoadedUdf) {b : HostContextBridge} (h : Free false b.world) :
    let r := driveGroupRows env m udf b
    (r.1 = none → Free false r.2.world ∨ Noted r.2.toFeed) ∧
      ∀ e, r.1 = some e → Kept (.error e) r.2.world := by
  refine driveGroupRows_rule env m udf (P := fun b => Free false b.world)
    (I := fun b => Free false b.world ∨ m.inputIter = .multiple ∧ Noted b.toFeed)
    (Q := fun b => Free false b.world ∨ Noted b.toFeed)
    (F := fun e b => Kept (.error e) b.world) ?_ ?_ ?_ ?_ ?_ ?_ h
  · intro b b' hb hr
    have hrun := runOnce_met env m udf hb
    rw [hr] at hrun
    exact hrun.1 rfl
  · intro b e b' hb hr
    have hrun := runOnce_met env m udf hb
    rw [hr] at hrun
    exact hrun.2 e rfl
  · intro hm b b' hb ha
    -- A scalar UDF has no `next`, so its success leaves no reason behind.
    have hcalm : Free false b.world := hb.resolve_right fun h => by
      rw [hm] at h
      cases h.1
    have hadv := advanceRow_noted env m hcalm
    rw [ha] at hadv
    exact hadv.resolve_right fun h => nomatch h.1
  · intro hm b b' hb ha
    have hcalm : Free false b.world := hb.resolve_right fun h => by
      rw [hm] at h
      cases h.1
    have hadv := advanceRow_noted env m hcalm
    rw [ha] at hadv
    exact hadv.imp_right And.right
  · intro hm b e b' hb ha
    have hcalm : Free false b.world := hb.resolve_right fun h => by
      rw [hm] at h
      cases h.1
    have hadv := advanceRow_noted env m hcalm
    rw [ha] at hadv
    exact .inl (hadv.resolve_right fun h => nomatch h.1)
  · exact fun _ b hb => hb.imp_right And.right

/-- What a step of dispatch makes of the reasons: `none` when the session goes on. -/
def Verdict (r : Except RuntimeError (Option (Except RuntimeError Unit)) × World) : Prop :=
  match r with
  | (.error e, w) => Kept (.error e) w
  | (.ok (some res), w) => Kept res w
  | (.ok none, w) => Free false w

theorem tailFlush_free (buf : EmitBuffer) {w : World} (h : Free false w) :
    Free false (tailFlush env buf w).2 := by
  unfold tailFlush EmitBuffer.flush
  split_ifs
  · exact h
  have hreply := h.request env (.emit (w.proto.emitRequest buf.table))
  dsimp only
  generalize w.request env (.emit (w.proto.emitRequest buf.table)) = r at hreply
  cases hreply with
  | @lost r hlost =>
    obtain ⟨e | event, w'⟩ := r <;> exact .inl hlost
  | failed hopen | plain _ hopen => exact .inr hopen
  -- The answer to the flush is not looked at: the reason is lost.
  | reason _ hclosing => exact .inl hclosing

theorem endGroup_verdict (buf : EmitBuffer) {fd : Feed}
    (h : Free false fd.world ∨ Noted fd) : Verdict (endGroup env fd buf) := by
  rcases h with h | ⟨rs, reason, hclosing, hbarred, hexit, hall⟩
  · unfold endGroup
    split
    · exact .inl h
    · exact .inl h
    · have hflush := tailFlush_free env buf h
      split <;> rename_i hr <;> rw [hr] at hflush
      · exact .inl hflush
      · exact hflush
  · unfold endGroup
    rw [hexit]
    -- The exit of the group becomes the error of the session.
    refine .inr ⟨rs, .udf reason, hclosing, hbarred, rfl, fun r hr => ?_⟩
    obtain rfl := hall r hr
    exact mentions_udf r

theorem runGroup_verdict (udf : LoadedUdf) {w : World} (h : Free false w) :
    Verdict (runGroup env m udf w) := by
  have hfirst := firstNonemptyInput_noted env m h
  unfold runGroup
  split <;> rename_i hf <;> rw [hf] at hfirst
  · exact .inl (hfirst.resolve_right fun h => nomatch h.1)
  · exact endGroup_verdict env _ (hfirst.imp_right And.right)
  · rename_i input fd
    have hdrive := driveGroupRows_noted env m udf (b := HostContextBridge.new fd input)
      (hfirst.resolve_right fun h => nomatch h.1)
    split <;> rename_i hd <;> rw [hd] at hdrive
    · exact hdrive.2 _ rfl
    · exact endGroup_verdict env _ (hdrive.1 rfl)

/-! ### Sessions -/

/-- The exchanges that open and close a group. -/
theorem closeError_kept {f : Frame} {w : World} (hkind : f.kind = .mtRun ∨ f.kind = .mtDone)
    {message : Option String} (h : Reply false f (.ok (.close message), w)) :
    Kept (closeError message) w := by
  have hhear : ∀ reason, Closing.hear false reason f.kind = .closed [reason] := fun reason => by
    rcases hkind with hkind | hkind <;> rw [hkind] <;> rfl
  cases h with
  | lost hlost => exact .inl (.inl hlost)
  | plain _ hopen => exact .inl (.inr hopen)
  | @reason _ reason _ hreason hclosing hbarred =>
    obtain rfl : message = some reason := hreason
    refine .inr ⟨[reason], .udf reason, hclosing.trans (hhear reason), hbarred, rfl, ?_⟩
    rintro r hr
    obtain rfl := List.mem_singleton.mp hr
    exact mentions_udf r

theorem Reply.free {inside : Bool} {f : Frame} {r : Except RuntimeError HostEvent × World}
    (h : Reply inside f r) (hclose : ∀ message, r.1 ≠ .ok (.close message)) : Free inside r.2 := by
  cases h with
  | lost hlost => exact .inl hlost
  | failed hopen | plain _ hopen => exact .inr hopen
  | @reason event reason w hreason =>
    cases event with
    | close message => exact absurd rfl (hclose message)
    | _ => cases hreason

theorem runUdfStep_kept (udf : LoadedUdf) {w : World} (h : Free false w) :
    (runUdfStep env m udf w).elim (fun r => Kept r.1 r.2) (Free false) := by
  have hopen := h.request env (.request w.proto.runRequest)
  unfold runUdfStep
  split <;> rename_i hr <;> rw [hr] at hopen
  · exact .inl (hopen.free fun _ h => nomatch h)
  · exact .inl (hopen.free fun _ h => nomatch h)
  · exact closeError_kept (.inl (by rfl)) hopen
  rename_i event w₁ _ hclose
  have hgroup := runGroup_verdict env m udf
    (hopen.free fun message h => hclose message (Except.ok.inj h))
  split <;> rename_i hg <;> rw [hg] at hgroup
  · exact hgroup
  · exact hgroup
  rename_i w₂
  have hgroup : Free false w₂ := hgroup
  have hclosed := hgroup.request env (.request w₂.proto.doneRequest)
  split <;> rename_i hd <;> rw [hd] at hclosed
  · exact .inl (hclosed.free fun _ h => nomatch h)
  · exact .inl (hclosed.free fun _ h => nomatch h)
  · exact closeError_kept (.inr (by rfl)) hclosed
  rename_i event' w₃ _ hclose'
  exact hclosed.free fun message h => hclose' message (Except.ok.inj h)

/-- The cleanup hook adds to the text of an error. -/
theorem mentions_fold {e : RuntimeError} {reason : String} (h : Mentions e reason)
    (cleanup : RuntimeError) :
    ∃ err, Cleanup.fold (.error e) cleanup = .error err ∧ Mentions err reason := by
  refine ⟨_, rfl, h.trans ?_⟩
  -- The display of a UDF error is its message with the prefix that `fold` puts back.
  have hdisplay : ∃ front, ("UDF error: " ++ Cleanup.messageOf e).toList
      = front ++ e.display.toList := by
    cases e with
    | udf text => exact ⟨[], rfl⟩
    | unexplained text => exact ⟨[], rfl⟩
    | _ => exact ⟨"UDF error: ".toList, String.toList_append ..⟩
  obtain ⟨front, hfront⟩ := hdisplay
  refine ⟨front, (" (cleanup also failed: " ++ Cleanup.messageOf cleanup ++ ")").toList, ?_⟩
  rw [← hfront, ← String.toList_append]
  show _ = ("UDF error: " ++ (Cleanup.messageOf e ++ " (cleanup also failed: "
    ++ Cleanup.messageOf cleanup ++ ")")).toList
  simp only [String.append_assoc]

theorem Kept.settled {outcome : Except RuntimeError Unit} {w : World} (h : Kept outcome w) :
    closing w.log = .lost ∨ closing w.log = .open false ∨ ∃ rs, closing w.log = .closed rs := by
  rcases h with (h | h) | ⟨rs, err, h, -⟩
  · exact .inl h
  · exact .inr (.inl h)
  · exact .inr (.inr ⟨rs, h⟩)

/-- Once dispatch is over, a note changes nothing. -/
theorem foldl_settled {c : Closing} (hc : c = .lost ∨ c = .open false ∨ ∃ rs, c = .closed rs)
    {events : List Event} (h : ∀ e ∈ events, e.isNote = true ∧ e.isInvocation = false) :
    events.foldl Closing.step c = c := by
  induction events with
  | nil => rfl
  | cons e events ih =>
    have hstep : c.step e = c := by
      obtain ⟨hnote, hinvocation⟩ := h e List.mem_cons_self
      cases e with
      | runStart => cases hinvocation
      | answered => cases hnote
      | _ => rcases hc with rfl | rfl | ⟨rs, rfl⟩ <;> rfl
    rw [List.foldl_cons, hstep]
    exact ih fun e he => h e (List.mem_cons_of_mem _ he)

theorem runHook_kept (udf : LoadedUdf) {outcome : Except RuntimeError Unit} {w : World}
    (h : Kept outcome w) :
    Kept (Cleanup.runHook udf outcome w).1 (Cleanup.runHook udf outcome w).2 := by
  have hhook := runHook_spec udf outcome w
  generalize Cleanup.runHook udf outcome w = cleaned at hhook
  cases hhook with
  | unregistered => exact h
  | @ran calls res w' _ hcalls hlog =>
    have hnotes : ∀ e ∈ .hookStart .cleanup "" ::
        (calls ++ [.hookEnd .cleanup (res.map fun _ => "")]),
        e.isNote = true ∧ e.isInvocation = false := by
      intro e he
      simp only [List.mem_cons, List.mem_append, List.not_mem_nil, or_false] at he
      rcases he with rfl | he | rfl
      · exact ⟨rfl, rfl⟩
      · exact ⟨Event.isNote_of_isDispatchNote (hcalls e he).1, (hcalls e he).2⟩
      · exact ⟨rfl, rfl⟩
    have hsame : closing w'.log = closing w.log := by
      rw [hlog, closing_append]
      exact foldl_settled h.settled hnotes
    -- The hook leaves only notes, so the reasons are where they were.
    rcases h with h | ⟨rs, err, hclosing, hbarred, rfl, hall⟩
    · exact .inl (by rw [Free, hsame]; exact h)
    have hbarred' : Barred w'.log := by
      rw [hlog]
      refine List.pairwise_append.mpr ⟨hbarred, Barred.of_quiet fun e he => ?_,
        fun _ _ e he _ => ?_⟩ <;>
        (have hnote := (hnotes e he).1; cases e <;> first | rfl | cases hnote)
    -- A failing hook adds its text to that of dispatch.
    rcases res with e | u
    · refine .inr ⟨rs, _, hsame.trans hclosing, hbarred', rfl, fun reason hreason => ?_⟩
      obtain ⟨err', hfold, hmentions⟩ := mentions_fold (hall reason hreason) e
      obtain rfl := Except.error.inj hfold
      exact hmentions
    · exact .inr ⟨rs, err, hsame.trans hclosing, hbarred', rfl, hall⟩

/-- The last messages keep what there is. -/
theorem finale_kept {outcome : Except RuntimeError Unit} {w : World} (h : Kept outcome w) :
    let r := Runtime.report env (Runtime.finish env (outcome, w))
    Kept r.1 r.2 := by
  have hclose : ∀ {e : RuntimeError} {w : World}, Kept (.error e) w →
      Kept (.error e) (Runtime.closeWith env Runtime.udfErrorCloseCode e w).2 := by
    intro e w h
    unfold Runtime.closeWith World.send
    split_ifs
    · exact h
    · rcases h with h | ⟨rs, err, hclosing, hbarred, herr, hall⟩
      · exact .inl (h.push rfl)
      · refine .inr ⟨rs, err, (closing_append _ _).trans ?_, hbarred.push (by rfl), herr, hall⟩
        rw [hclosing]
        rfl
  rcases outcome with e | u
  · exact hclose h
  -- Nothing has been met so far.
  have hfree : Free false w := h.resolve_right fun ⟨_, _, _, _, herr, _⟩ => nomatch herr
  have hreply := hfree.request env (.request w.proto.finishedReply)
  unfold Runtime.finish Runtime.sendFinished
  dsimp only
  generalize w.request env (.request w.proto.finishedReply) = r at hreply
  obtain ⟨e | event, w'⟩ := r
  · cases hreply with
    | lost hlost => exact hclose (.inl (.inl hlost))
    | failed hopen => exact hclose (.inl (.inr hopen))
  · cases hreply with
    | lost hlost => exact .inl (.inl hlost)
    | plain _ hopen => exact .inl (.inr hopen)
    -- The answer to `MT_FINISHED` is not looked at either.
    | reason _ hclosing => exact .inl (.inl hclosing)

end

theorem Kept.closeKept {res : Except RuntimeError Unit} {w : World} (h : Kept res w)
    (hlost : closing w.log ≠ .lost) : CloseKept res w.log := by
  intro before e reason after hlog hreason
  have hmem : reason ∈ (closing w.log).reasons :=
    closing_reasons hlost e (by rw [hlog]; simp) reason hreason
  rcases h with (h | h) | ⟨rs, err, hclosing, hbarred, herr, hall⟩
  · exact absurd h hlost
  · rw [h] at hmem
    cases hmem
  · rw [hclosing] at hmem
    refine ⟨fun e' he' => ?_, err, herr, hall reason hmem⟩
    rw [hlog] at hbarred
    refine (List.pairwise_cons.mp (List.pairwise_append.mp hbarred).2.1).1 e' he' ?_
    rw [hreason]
    rfl

namespace Runtime

/-- **Closes.**  In a streaming session that keeps every reason, a close of the database ends
dispatch, and the session fails with a text that contains the reason. -/
theorem run_close (rt : Runtime) (env : Env) (inbox : List ExascriptResponse)
    (hmode : ∀ m, ((handshake env).run (rt.greet inbox)).1 = .ok m → m.singleCallMode = false)
    (h : closing (rt.run env inbox).2.log ≠ .lost) :
    CloseKept (rt.run env inbox).1 (rt.run env inbox).2.log := by
  have hgreeting := handshake_isGreeting rt env inbox
  rw [run_eq] at h ⊢
  generalize (handshake env).run (rt.greet inbox) = shaken at h hmode hgreeting ⊢
  obtain ⟨res, w⟩ := shaken
  have hfree : Free false w := by
    exact .inr (Closing.foldl_greeting hgreeting)
  rcases res with e | m
  · exact Kept.closeKept (.inl hfree) h
  dsimp only at h ⊢
  unfold runLoaded at h ⊢
  split at h
  · refine Kept.closeKept ?_ h
    unfold closeWith World.send
    split_ifs
    · exact .inl hfree
    · exact .inl (hfree.push rfl)
  · rename_i udf _
    have hdispatch : Kept (dispatch env m udf w).1 (dispatch env m udf w).2 := by
      unfold dispatch
      rw [hmode m rfl]
      exact (runUdfLoop env m udf).run_elim (fun w hw => runUdfStep_kept env m udf hw) hfree
    exact (finale_kept env (runHook_kept udf hdispatch)).closeKept h

/-- The database closes the session in the middle of a group, and the UDF stops. -/
theorem run_close_sample :
    let udf := LoadedUdf.emitting fun _ => .call .next fun _ => .call .next fun _ => .done ⟨0, ""⟩
    let env := Env.reference udf
    let inbox := openingResponses 2 2 ++ [.ofType .mtRun, batchResponse [1],
      closeResponse "query cancelled"]
    CloseKept ((Runtime.mk "rust").run env inbox).1 ((Runtime.mk "rust").run env inbox).2.log := by
  intro udf env inbox
  have hmode : (((handshake env).run ((Runtime.mk "rust").greet inbox)).1.map
      UdfMeta.singleCallMode).toOption = some false := by decide +kernel
  refine run_close (Runtime.mk "rust") env inbox (fun m hm => ?_) (by decide +kernel)
  rw [hm] at hmode
  exact Option.some.inj hmode

/-- The tail of a group is flushed, and the close that answers it is not looked at. -/
theorem run_not_close :
    ¬ ∀ (rt : Runtime) (env : Env) (inbox : List ExascriptResponse),
      (∀ m, ((handshake env).run (rt.greet inbox)).1 = .ok m → m.singleCallMode = false) →
      CloseKept (rt.run env inbox).1 (rt.run env inbox).2.log := by
  intro hclaim
  let udf := LoadedUdf.emitting fun _ => .call (.emit [.int32 7]) fun _ => .done ⟨0, ""⟩
  let env := Env.reference udf
  let inbox := openingResponses 2 2 ++ [.ofType .mtRun, batchResponse [1],
    closeResponse "query cancelled", .ofType .mtCleanup, .ofType .mtFinished]
  have hmode : (((handshake env).run ((Runtime.mk "rust").greet inbox)).1.map
      UdfMeta.singleCallMode).toOption = some false := by decide +kernel
  have hkept := hclaim (Runtime.mk "rust") env inbox fun m hm => by
    rw [hm] at hmode
    exact Option.some.inj hmode
  have hok : ((Runtime.mk "rust").run env inbox).1 = .ok () := by decide +kernel
  have hmet : ((Runtime.mk "rust").run env inbox).2.log.any
      (fun e => e.reason? == some "query cancelled") = true := by decide +kernel
  obtain ⟨e, he, hreason⟩ := List.any_eq_true.mp hmet
  obtain ⟨before, after, hlog⟩ := List.append_of_mem he
  obtain ⟨-, err, herr, -⟩ := hkept before e _ after hlog (beq_iff_eq.mp hreason)
  rw [hok] at herr
  cases herr

end Runtime

end ExaUdf
