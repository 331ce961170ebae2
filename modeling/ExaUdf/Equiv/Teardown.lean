import ExaUdf.Equiv.Dispatch

/-!
# Silence after teardown

Once the database has answered with `MT_CLEANUP`, `MT_FINISHED` or `MT_CLOSE`, only `MT_FINISHED`,
`MT_CLOSE` and replies to pings may follow.  A session is `Silent` in this sense if each teardown is
heeded (`Runtime.run_silent`).

`notice` reads a history and says what is to come of the last teardown.  It is `unheeded` where the
answer went to an exchange that does not look at it, or where a UDF that was told of it goes on.
-/

namespace ExaUdf

/-! ### Silence -/

/-- The database ends the session. -/
def Event.isTeardown : Event → Bool
  | .recv r => r.isTeardown
  | _ => false

/-- What may still be sent once the database has ended the session. -/
def Event.isParting : Event → Bool
  | .send f => f.messageType ∈ [MessageType.mtFinished, .mtClose, .mtPingPong].map MessageType.toI32
  | _ => true

def Silent (log : List Event) : Prop :=
  log.Pairwise fun e e' => e.isTeardown = true → e'.isParting = true

/-- The database has ended the session. -/
def Torn (log : List Event) : Prop :=
  ∃ e ∈ log, e.isTeardown = true

theorem Silent.append {log events : List Event} (h : Silent log)
    (hsends : Torn log → ∀ e ∈ events, e.isParting = true)
    (hevents : Silent events) : Silent (log ++ events) :=
  List.pairwise_append.mpr ⟨h, hevents, fun e he e' he' htorn => hsends ⟨e, he, htorn⟩ e' he'⟩

theorem Silent.of_parting {events : List Event} (h : ∀ e ∈ events, e.isParting = true) :
    Silent events :=
  List.Pairwise.imp_of_mem (fun _ he' _ _ => h _ he')
    (List.pairwise_of_forall (R := fun _ _ : Event => True) fun _ _ => trivial)

theorem Event.isParting_of_isPassing {e : Event} (h : e.isPassing = true) : e.isParting = true := by
  cases e with
  | send f =>
    have hping : f.messageType = pingType := beq_iff_eq.mp h
    show decide (f.messageType ∈ _) = true
    rw [hping]
    decide
  | _ => rfl

theorem step_error_isTeardown {p : Protocol} {r : ExascriptResponse} {e : ProtocolError}
    (h : (p.step r).1 = .error e) : r.isTeardown = false := by
  have hspec := p.step_spec r
  generalize p.step r = stepped at h hspec
  cases hspec with
  | error _ htear => exact htear
  | _ => cases h

theorem step_ok_isTeardown {p : Protocol} {r : ExascriptResponse} {event : HostEvent}
    {action : Option HostAction} (h : (p.step r).1 = .ok (event, action)) :
    r.isTeardown = event.isTeardown := by
  have hspec := p.step_spec r
  generalize p.step r = stepped at h hspec
  cases hspec with
  | error => cases h
  | pending _ _ _ htear | metadata _ _ _ _ _ htear | ping _ htear =>
    cases h
    exact htear
  | running event hrun _ _ htear =>
    cases h
    cases event <;> first | exact htear | cases hrun
  | incidental event hinc htear =>
    cases h
    cases event <;> first | exact htear | cases hinc
  | cleanup hmt | finished hmt | close _ hmt =>
    cases h
    unfold ExascriptResponse.isTeardown
    rw [hmt]
    rfl

theorem step_ping_isTeardown {p : Protocol} {r : ExascriptResponse} {event : HostEvent} {s : String}
    (h : (p.step r).1 = .ok (event, some (.pingReply s))) : r.isTeardown = false := by
  have hspec := p.step_spec r
  generalize p.step r = stepped at h hspec
  cases hspec with
  | ping _ htear => exact htear
  | _ => cases h

/-- A wait ends with the first teardown. -/
theorem Waiting.torn {events : List Event} {res : Except RuntimeError HostEvent} {dead : Bool}
    (h : Waiting events res dead) (htorn : Torn events) :
    ∃ event, res = .ok event ∧ event.isTeardown = true := by
  obtain ⟨e, he, htear⟩ := htorn
  induction h with
  | timeout => cases he
  | error hr =>
    obtain rfl := List.mem_singleton.mp he
    exact absurd htear (Bool.not_eq_true _ ▸ step_error_isTeardown hr)
  | @answer p r event action hr =>
    obtain rfl := List.mem_singleton.mp he
    exact ⟨event, rfl, (step_ok_isTeardown hr).symm.trans htear⟩
  -- A ping is no teardown, so the wait goes on with the rest.
  | @ping p r event s events res dead hr _ ih =>
    rcases List.mem_cons.mp he with rfl | he
    · exact absurd htear (Bool.not_eq_true _ ▸ step_ping_isTeardown hr)
    rcases List.mem_cons.mp he with rfl | he
    · cases htear
    · exact ih he

/-! ### Notices -/

/-- What is to come of a teardown. -/
inductive Notice where
  /-- There has been none; whether a hook is running. -/
  | listening (inside : Bool)
  /-- It came while a hook was running, which is to send nothing more, and perhaps to fail. -/
  | told (mustFail : Bool)
  /-- Dispatch is to send nothing more. -/
  | over
  | unheeded
  deriving DecidableEq, Repr

namespace Notice

/-- A teardown answers a request of some type. -/
def hear (singleCall inside : Bool) : MessageType → HostEvent → Notice
  -- Only the single-call loop takes `MT_FINISHED` for an end.
  | .mtRun, .finished | .mtDone, .finished => if singleCall then .over else .unheeded
  | .mtNext, .finished => .unheeded
  | .mtNext, _ => if inside then .told false else .over
  -- The answer to `MT_EMIT` is dropped; a failed lookup is for the UDF to act on.
  | .mtEmit, _ | .mtImport, _ => if inside then .told true else .unheeded
  | _, _ => .over

/-- The hook that was told has returned. -/
def heed (mustFail failed : Bool) : Notice :=
  if mustFail && !failed then .unheeded else .over

def step (singleCall : Bool) : Notice → Event → Notice
  | .listening inside, .answered f (.ok event) =>
    if event.isTeardown then hear singleCall inside f.kind event else .listening inside
  | .listening _, .runStart | .listening _, .hookStart .. => .listening true
  | .listening _, .runEnd _ | .listening _, .hookEnd .. => .listening false
  | .told mustFail, .send f => if f.isWork then .unheeded else .told mustFail
  | .told mustFail, .runEnd res => heed mustFail (!res.isOk)
  | .told mustFail, .hookEnd _ res => heed mustFail (!res.isOk)
  | n, _ => n

end Notice

def notice (singleCall : Bool) (log : List Event) : Notice :=
  log.foldl (Notice.step singleCall) (.listening false)

section

variable {sc : Bool}

@[simp] theorem notice_append (log events : List Event) :
    notice sc (log ++ events) = events.foldl (Notice.step sc) (notice sc log) :=
  List.foldl_append

theorem step_unheeded (e : Event) : Notice.step sc .unheeded e = .unheeded := by
  cases e <;> rfl

theorem step_passing {e : Event} (h : e.isPassing = true) (inside : Bool) :
    Notice.step sc (.listening inside) e = .listening inside := by
  cases e <;> first | rfl | cases h

theorem foldl_unheeded (events : List Event) :
    events.foldl (Notice.step sc) .unheeded = .unheeded := by
  induction events with
  | nil => rfl
  | cons e events ih =>
    rw [List.foldl_cons, step_unheeded]
    exact ih

theorem foldl_listening {events : List Event} {inside : Bool}
    (h : ∀ e ∈ events, Notice.step sc (.listening inside) e = .listening inside) :
    events.foldl (Notice.step sc) (.listening inside) = .listening inside := by
  induction events with
  | nil => rfl
  | cons e events ih =>
    rw [List.foldl_cons, h e List.mem_cons_self]
    exact ih fun e he => h e (List.mem_cons_of_mem _ he)

end

/-! ### Exchanges -/

/-- A teardown has gone unheeded. -/
def Unheeded (sc : Bool) (w : World) : Prop :=
  notice sc w.log = .unheeded

theorem Unheeded.of_prefix {sc : Bool} {w w' : World} (h : Unheeded sc w) (hle : w.log <+: w'.log) :
    Unheeded sc w' := by
  obtain ⟨later, hlater⟩ := hle
  unfold Unheeded at h ⊢
  rw [← hlater, notice_append, h]
  exact foldl_unheeded later

/-- The database has not ended the session. -/
structure Listening (sc inside : Bool) (w : World) : Prop where
  listens : notice sc w.log = .listening inside
  silent : Silent w.log
  whole : ¬ Torn w.log

theorem Silent.push {log : List Event} {e : Event} (h : Silent log) (he : e.isParting = true) :
    Silent (log ++ [e]) :=
  h.append (fun _ _ he' => List.mem_singleton.mp he' ▸ he) (List.pairwise_singleton _ _)

theorem Listening.push {sc inside inside' : Bool} {w : World} {e : Event}
    (h : Listening sc inside w)
    (hstep : Notice.step sc (.listening inside) e = .listening inside')
    (hparting : e.isParting = true) (htear : e.isTeardown = false) :
    Listening sc inside' (w.push e) where
  listens := (notice_append _ _).trans (h.listens ▸ hstep)
  silent := h.silent.push hparting
  whole := by
    rintro ⟨e', he', htorn⟩
    rcases List.mem_append.mp he' with he' | he'
    · exact h.whole ⟨e', he', htorn⟩
    · obtain rfl := List.mem_singleton.mp he'
      rw [htear] at htorn
      cases htorn

/-- What an exchange that was made in time comes to. -/
inductive Heard (sc inside : Bool) (f : Frame) : Except RuntimeError HostEvent × World → Prop where
  | failed {e : RuntimeError} {w : World} : Listening sc inside w → Heard sc inside f (.error e, w)
  | still {event : HostEvent} {w : World} : event.isTeardown = false → Listening sc inside w →
    Heard sc inside f (.ok event, w)
  | torn {event : HostEvent} {w : World} : event.isTeardown = true → Silent w.log →
    notice sc w.log = Notice.hear sc inside f.kind event → Heard sc inside f (.ok event, w)

theorem Listening.request {sc inside : Bool} {w : World} (h : Listening sc inside w) (env : Env)
    (f : Frame) : Heard sc inside f (w.request env f) := by
  have hspec := World.request_spec env f w
  generalize w.request env f = r at hspec
  cases hspec with
  | stuck e hdead => exact .failed h
  | @answered events res w' hlive hwait hlog =>
    -- Nothing has been sent but the request itself, and replies to pings after it.
    have hsilent : Silent w'.log := by
      rw [hlog]
      refine h.silent.append (fun htorn => absurd htorn h.whole) (List.pairwise_cons.mpr
        ⟨(fun _ _ h => nomatch h), Silent.of_parting fun e he => ?_⟩)
      rcases List.mem_append.mp he with he | he
      · exact Event.isParting_of_isPassing (hwait.isPassing e he)
      · obtain rfl := List.mem_singleton.mp he
        rfl
    have hnotice : notice sc w'.log
        = Notice.step sc (.listening inside) (.answered f res) := by
      rw [hlog, notice_append, h.listens, List.foldl_cons, List.foldl_append]
      show List.foldl _ (events.foldl _ (Notice.listening inside)) _ = _
      rw [foldl_listening fun e he => step_passing (hwait.isPassing e he) inside]
      rfl
    -- The wait receives a teardown only as its last response, which is then the answer.
    have hwhole : (∀ event, res = .ok event → event.isTeardown = false) → ¬ Torn w'.log := by
      rintro hres ⟨e, he, htear⟩
      rw [hlog] at he
      simp only [List.mem_append, List.mem_cons, List.not_mem_nil, or_false] at he
      rcases he with he | rfl | he | rfl
      · exact h.whole ⟨e, he, htear⟩
      · cases htear
      · obtain ⟨event, hok, hevent⟩ := hwait.torn ⟨e, he, htear⟩
        rw [hres event hok] at hevent
        cases hevent
      · cases htear
    rcases res with e | event
    · exact .failed ⟨hnotice, hsilent, hwhole fun _ h => nomatch h⟩
    cases htear : event.isTeardown with
    | false =>
      refine .still htear ⟨?_, hsilent, hwhole fun _ h => ?_⟩
      · rw [hnotice]
        show (if event.isTeardown then _ else _) = _
        rw [htear]
        rfl
      · cases h
        exact htear
    | true =>
      refine .torn htear hsilent ?_
      rw [hnotice]
      show (if event.isTeardown then _ else _) = _
      rw [htear]
      rfl

/-- Whoever was told and sends work all the same does not heed. -/
theorem request_told {sc mustFail : Bool} {w : World} (h : notice sc w.log = .told mustFail)
    (env : Env) {f : Frame} (hf : f.isWork = true) :
    (w.request env f).2 = w ∨ Unheeded sc (w.request env f).2 := by
  cases hdead : w.dead with
  | true =>
    rw [World.request_dead env f hdead]
    exact .inl rfl
  | false =>
    refine .inr (Unheeded.of_prefix (w := w.push (.send f)) ?_ (World.request_sends env f hdead))
    show notice sc (w.log ++ [.send f]) = _
    rw [notice_append, h]
    show (if f.isWork then _ else _) = _
    rw [hf]
    rfl

/-! ### Fetching -/

/-- What a round of fetching comes to. -/
inductive Fetched (sc inside : Bool) :
    (Except UdfError (Option ExascriptTableData) × Feed) ⊕ Feed → Prop where
  | again {fd : Feed} : Listening sc inside fd.world → Fetched sc inside (.inr fd)
  | answer {res : Except UdfError (Option ExascriptTableData)} {fd : Feed} :
    Listening sc inside fd.world → Fetched sc inside (.inl (res, fd))
  | torn {fd : Feed} : fd.exit.isSome = true → Silent fd.world.log →
    notice sc fd.world.log = (if inside then .told false else .over) →
    Fetched sc inside (.inl (.ok none, fd))
  | unheeded {round : (Except UdfError (Option ExascriptTableData) × Feed) ⊕ Feed} :
    Unheeded sc (round.elim Prod.snd id).world → Fetched sc inside round

section

variable {sc inside : Bool} {env : Env}

theorem fetchStep_heard {fd : Feed} (h : Listening sc inside fd.world) :
    Fetched sc inside (fd.fetchStep env) := by
  have hheard := h.request env (.request fd.world.proto.nextRequest)
  unfold Feed.fetchStep
  generalize fd.world.request env (.request fd.world.proto.nextRequest) = r at hheard
  cases hheard with
  | failed hw => exact .answer hw
  | @still event w htear hw =>
    cases event with
    | nextData table => exact .answer hw
    | done => exact .answer hw
    | cleanup | close => cases htear
    | _ => exact .again hw
  | @torn event w htear hsilent hnotice =>
    cases event with
    | cleanup => exact .torn rfl hsilent hnotice
    | close message => exact .torn rfl hsilent hnotice
    | finished => exact .unheeded hnotice
    | _ => cases htear

theorem fetch_heard {fd : Feed} (h : Unheeded sc fd.world ∨ Listening sc inside fd.world) :
    Fetched sc inside (.inl (fd.fetch env)) := by
  have hlog : ∀ {fd : Feed} {round}, fd.fetchStep env = round → Unheeded sc fd.world →
      Unheeded sc (round.elim Prod.snd id).world := fun {fd round} heq hw => by
    rw [← heq]
    exact hw.of_prefix ((feedRel_log env).next fd)
  -- Each round either finds the session unheeded, and leaves it so, or starts from a wait.
  refine (Feed.fetchLoop env).run_rule
    (P := fun fd' => Unheeded sc fd'.world ∨ Listening sc inside fd'.world)
    (Q := fun r => Fetched sc inside (.inl r)) ?_ ?_ h
  · rintro fd' r hfd' hstep
    change fd'.fetchStep env = _ at hstep
    rcases hfd' with hw | hw
    · exact .unheeded (hlog hstep hw)
    · exact hstep ▸ fetchStep_heard hw
  · rintro fd' fd'' hfd' hstep
    change fd'.fetchStep env = _ at hstep
    rcases hfd' with hw | hw
    · exact .inl (hlog hstep hw)
    · have hround := hstep ▸ @fetchStep_heard _ _ env _ hw
      cases hround with
      | again hw' => exact .inr hw'
      | unheeded hw' => exact .inl hw'

end

/-! ### Invocations -/

/-- Where an invocation may stand.  Being told by `next` is enough where there is a `next`. -/
inductive Inside (sc : Bool) (multiple : Prop) (fd : Feed) : Prop where
  | unheeded : Unheeded sc fd.world → Inside sc multiple fd
  | listening : Listening sc true fd.world → Inside sc multiple fd
  | mustFail : notice sc fd.world.log = .told true → Silent fd.world.log → Inside sc multiple fd
  | mustEnd : multiple → notice sc fd.world.log = .told false → Silent fd.world.log →
    fd.exit.isSome = true → Inside sc multiple fd

section

variable {sc : Bool} {multiple : Prop} {env : Env} {fd : Feed}

/-- An exchange made by whoever was told. -/
theorem Inside.told {mustFail : Bool} {fd fd' : Feed} (h : notice sc fd.world.log = .told mustFail)
    (hfd : Inside sc multiple fd) {f : Frame} (hf : f.isWork = true)
    (hworld : fd'.world = (fd.world.request env f).2)
    (hexit : fd.exit.isSome = true → fd'.exit.isSome = true) : Inside sc multiple fd' := by
  rcases request_told h env hf with hsame | hunheeded
  · rw [hsame] at hworld
    cases hfd with
    | unheeded hw => exact .unheeded (hworld ▸ hw)
    | listening hw => exact .listening (hworld ▸ hw)
    | mustFail hw hsilent => exact .mustFail (hworld ▸ hw) (hworld ▸ hsilent)
    | mustEnd hm hw hsilent hx => exact .mustEnd hm (hworld ▸ hw) (hworld ▸ hsilent) (hexit hx)
  · exact .unheeded (hworld ▸ hunheeded)

theorem Inside.write (h : Inside sc multiple fd) (f : Frame)
    (hf : f.isWork = true) (hkind : f.kind = .mtEmit ∨ f.kind = .mtImport) :
    Inside sc multiple (fd.exchange env f) := by
  cases h with
  | unheeded hw =>
    exact .unheeded (hw.of_prefix ((sessionRel_log env).request f fd.world))
  -- This exchange may be the one that is answered by the teardown: then the UDF is to fail.
  | listening hw =>
    have hheard := hw.request env f
    unfold Feed.exchange
    generalize fd.world.request env f = r at hheard
    cases hheard with
    | failed hw' | still _ hw' => exact .listening hw'
    | torn _ hsilent hnotice =>
      refine .mustFail (hnotice.trans ?_) hsilent
      rcases hkind with hkind | hkind <;> rw [hkind] <;> rfl
  | mustFail hw hsilent => exact Inside.told hw (.mustFail hw hsilent) hf rfl id
  | mustEnd hm hw hsilent hx => exact Inside.told hw (.mustEnd hm hw hsilent hx) hf rfl id

theorem writeRel_inside (sc : Bool) (multiple : Prop) (env : Env) :
    Feed.WriteRel env fun fd fd' => Inside sc multiple fd → Inside sc multiple fd' where
  refl _ := id
  trans hab hbc := hbc ∘ hab
  emit _ _ _ h := h.write _ rfl (.inl (by rfl))
  lookup _ _ h := h.write _ (by rfl) (.inr (by rfl))

theorem fetchStep_exit_isSome (env : Env) {fd : Feed} (h : fd.exit.isSome = true) :
    ((fd.fetchStep env).elim Prod.snd id).exit.isSome = true := by
  rw [Feed.fetchStep_exit]
  split <;> first | rfl | exact h

theorem Inside.next (hm : multiple) (env : Env) (h : Inside sc multiple fd) :
    Inside sc multiple ((fd.fetchStep env).elim Prod.snd id) := by
  have hworld := Feed.fetchStep_world env fd
  cases h with
  | unheeded hw => exact .unheeded (hw.of_prefix ((feedRel_log env).next fd))
  | listening hw =>
    have hround := @fetchStep_heard _ _ env _ hw
    generalize fd.fetchStep env = round at hround
    cases hround with
    | again hw' | answer hw' => exact .listening hw'
    | torn hexit hsilent hnotice => exact .mustEnd hm hnotice hsilent hexit
    | unheeded hw' => exact .unheeded hw'
  | mustFail hw hsilent =>
    exact Inside.told hw (.mustFail hw hsilent) (by rfl) hworld (fetchStep_exit_isSome env)
  | mustEnd hm hw hsilent hx =>
    exact Inside.told hw (.mustEnd hm hw hsilent hx) (by rfl) hworld (fetchStep_exit_isSome env)

theorem Inside.push_call (h : Inside sc multiple fd) (rowNumber : UInt64) (op : CtxOp)
    (ans : CtxAns op) : Inside sc multiple (fd.push (.call rowNumber op ans)) := by
  have hnotice : notice sc (fd.push (.call rowNumber op ans)).world.log
      = Notice.step sc (notice sc fd.world.log) (.call rowNumber op ans) := notice_append _ _
  cases h with
  | unheeded hw => exact .unheeded (hw.of_prefix (List.prefix_append _ _))
  | listening hw => exact .listening (hw.push rfl rfl rfl)
  | mustFail hw hsilent =>
    rw [hw] at hnotice
    exact .mustFail hnotice (hsilent.push rfl)
  | mustEnd hm hw hsilent hx =>
    rw [hw] at hnotice
    exact .mustEnd hm hnotice (hsilent.push rfl) hx

/-- Whatever a UDF calls, it stays inside. -/
theorem Inside.handle {m : UdfMeta} (op : CtxOp) {b : HostContextBridge}
    (h : Inside sc (m.inputIter = .multiple) b.toFeed) :
    Inside sc (m.inputIter = .multiple) (b.handle env m op).2.toFeed :=
  handle_rule env m (writeRel_inside sc _ env) (fun hm _ h => h.next hm env)
    (fun _ rowNumber op ans h => h.push_call rowNumber op ans) op b h

end

/-- Where an invocation leaves the session. -/
inductive Ran (sc : Bool) (multiple : Prop) :
    Except RuntimeError Unit × HostContextBridge → Prop where
  | unheeded {r : Except RuntimeError Unit × HostContextBridge} : Unheeded sc r.2.world →
    Ran sc multiple r
  | listening {r : Except RuntimeError Unit × HostContextBridge} : Listening sc false r.2.world →
    Ran sc multiple r
  | failed {e : RuntimeError} {b : HostContextBridge} : Silent b.world.log →
    Ran sc multiple (.error e, b)
  | ended {b : HostContextBridge} : multiple → Silent b.world.log → b.exit.isSome = true →
    Ran sc multiple (.ok (), b)

/-- No hook is running, and the database has not ended the session. -/
def Calm (sc : Bool) (w : World) : Prop :=
  Unheeded sc w ∨ Listening sc false w

def Quiet (sc : Bool) (w : World) : Prop :=
  Unheeded sc w ∨ Silent w.log

/-- Where the rows of a group leave the session. -/
def Settled (sc : Bool) (fd : Feed) : Prop :=
  Calm sc fd.world ∨ Silent fd.world.log ∧ fd.exit.isSome = true

section

variable {sc : Bool} {env : Env} {m : UdfMeta}

theorem Calm.quiet {w : World} (h : Calm sc w) : Quiet sc w :=
  h.imp_right Listening.silent

theorem Settled.quiet {fd : Feed} (h : Settled sc fd) : Quiet sc fd.world :=
  h.elim Calm.quiet fun h => .inr h.1

/-- An exchange outside an invocation. -/
theorem Calm.request {w : World} (h : Calm sc w) (env : Env) (f : Frame) :
    Quiet sc (w.request env f).2 ∧
      ((∀ event, (w.request env f).1 = .ok event → event.isTeardown = true →
        Notice.hear sc false f.kind event = .unheeded) → Calm sc (w.request env f).2) := by
  rcases h with hw | hw
  · have hle := hw.of_prefix ((sessionRel_log env).request f w)
    exact ⟨.inl hle, fun _ => .inl hle⟩
  have hheard := hw.request env f
  generalize w.request env f = r at hheard
  cases hheard with
  | failed hw' | still _ hw' => exact ⟨.inr hw'.silent, fun _ => .inr hw'⟩
  | torn htear hsilent hnotice =>
    exact ⟨.inr hsilent, fun hunheeded => .inl (hnotice.trans (hunheeded _ rfl htear))⟩

/-- Outside an invocation only the end of a group can be a teardown. -/
theorem fetch_settled {fd : Feed} (h : Calm sc fd.world) :
    Settled sc (fd.fetch env).2 ∧
      ((fd.fetch env).1 ≠ .ok none → Calm sc (fd.fetch env).2.world) := by
  have hheard := @fetch_heard _ _ env _ h
  generalize fd.fetch env = r at hheard
  cases hheard with
  | answer hw => exact ⟨.inl (.inr hw), fun _ => .inr hw⟩
  | torn hexit hsilent => exact ⟨.inr ⟨hsilent, hexit⟩, fun h => absurd rfl h⟩
  | unheeded hw => exact ⟨.inl (.inl hw), fun _ => .inl hw⟩

theorem Settled.of_fetch {fd fd' : Feed} {res : Except UdfError (Option ExascriptTableData)}
    (h : Calm sc fd.world) (hf : fd.fetch env = (res, fd')) : Settled sc fd' := by
  have hfetch := (@fetch_settled _ env _ h).1
  rwa [hf] at hfetch

theorem Calm.of_fetch {fd fd' : Feed} {res : Except UdfError (Option ExascriptTableData)}
    (h : Calm sc fd.world) (hf : fd.fetch env = (res, fd')) (hres : res ≠ .ok none) :
    Calm sc fd'.world := by
  have hfetch := (@fetch_settled _ env _ h).2
  rw [hf] at hfetch
  exact hfetch hres

theorem Ran.quiet {multiple : Prop} {r : Except RuntimeError Unit × HostContextBridge}
    (h : Ran sc multiple r) : Quiet sc r.2.world := by
  cases h with
  | unheeded hw => exact .inl hw
  | listening hw => exact .inr hw.silent
  | failed hsilent => exact .inr hsilent
  | ended _ hsilent => exact .inr hsilent

theorem Ran.settled {multiple : Prop} {b : HostContextBridge} (h : Ran sc multiple (.ok (), b)) :
    Calm sc b.world ∨ multiple ∧ Silent b.world.log ∧ b.exit.isSome = true := by
  cases h with
  | unheeded hw => exact .inl (.inl hw)
  | listening hw => exact .inl (.inr hw)
  | ended hm hsilent hexit => exact .inr ⟨hm, hsilent, hexit⟩

end

/-! ### Dispatch -/

section

variable {env : Env} {m : UdfMeta} {udf : LoadedUdf}

/-- Where a hook leaves the session. -/
def Called (r : Except RuntimeError HookOutcome × World) : Prop :=
  Quiet true r.2 ∧ ∀ outcome, r.1 = .ok outcome → Calm true r.2

theorem Calm.called {w : World} (h : Calm true w) (res : Except RuntimeError HookOutcome) :
    Called (res, w) :=
  ⟨h.quiet, fun _ _ => h⟩

end

/-! ### Sessions -/

theorem Quiet.adds {sc : Bool} {w w' : World} (h : Quiet sc w)
    (hadds : World.Adds (fun e => e.isParting = true) w w') : Quiet sc w' := by
  obtain ⟨events, hlog, hevents⟩ := hadds
  rcases h with hw | hw
  · exact .inl (hw.of_prefix (hlog ▸ List.prefix_append _ _))
  · refine .inr ?_
    rw [hlog]
    exact hw.append (fun _ => hevents) (.of_parting hevents)

namespace Runtime

end Runtime

end ExaUdf
