import ExaUdf.Protocol

/-!
# What a response can mean

`Protocol.step_spec` says what one response can do in each phase, which is all that the session
level needs to know of `Protocol.step`.
-/

namespace ExaUdf

/-- The event says that the session is over for the database. -/
def HostEvent.isTeardown : HostEvent → Bool
  | .cleanup | .finished | .close _ => true
  | _ => false

/-- An event of the run phase that only a single-call session has. -/
def HostEvent.isSingleCall : HostEvent → Bool
  | .singleCall .. | .singleCallAck | .undefinedCallAck => true
  | _ => false

/-- An event of the run phase. -/
def HostEvent.isRunning : HostEvent → Bool
  | .run | .emitAck | .nextData _ | .done | .reset => true
  | event => event.isSingleCall

/-- An event that may come in any phase and does not end it. -/
def HostEvent.isIncidental : HostEvent → Bool
  | .tryAgain | .connInfo _ | .importRefused _ => true
  | _ => false

/-- The type of the response that an event stands for. -/
def HostEvent.messageType : HostEvent → MessageType
  | .pending => .mtInfo
  | .udfMeta _ => .mtMeta
  | .run => .mtRun
  | .emitAck => .mtEmit
  | .nextData _ => .mtNext
  | .done => .mtDone
  | .cleanup => .mtCleanup
  | .singleCallAck => .mtReturn
  | .undefinedCallAck => .mtUndefinedCall
  | .finished => .mtFinished
  | .close _ => .mtClose
  | .ping _ => .mtPingPong
  | .tryAgain => .mtTryAgain
  | .reset => .mtReset
  | .singleCall .. => .mtCall
  | .connInfo _ | .importRefused _ => .mtImport

/-- A response that ends the session for the database. -/
def ExascriptResponse.isTeardown (r : ExascriptResponse) : Bool :=
  match r.messageType with
  | .mtCleanup | .mtFinished | .mtClose => true
  | _ => false

/-- A response that the handshake passes over: it is no error, and nothing is sent for it. -/
def ExascriptResponse.isPassedOver (r : ExascriptResponse) : Bool :=
  match r.messageType with
  | .mtTryAgain | .mtCleanup | .mtFinished => true
  | .mtImport => (Protocol.importEvent r).toOption.isSome
  | _ => false

/-- A response of some type without a payload. -/
def ExascriptResponse.ofType (mt : MessageType) : ExascriptResponse where
  type := mt.toI32
  connectionId := 7
  info := none
  metadata := none
  close := none
  importRep := none
  next := none
  ping := none
  call := none

/-- The session information that an `MT_INFO` carries. -/
def ExascriptResponse.info? (r : ExascriptResponse) : Option ExascriptInfo :=
  if r.messageType = .mtInfo then r.info else none

section

variable {r : ExascriptResponse}

theorem isPassedOver_cleanup (h : r.messageType = .mtCleanup) : r.isPassedOver = true := by
  unfold ExascriptResponse.isPassedOver
  rw [h]

theorem isPassedOver_finished (h : r.messageType = .mtFinished) : r.isPassedOver = true := by
  unfold ExascriptResponse.isPassedOver
  rw [h]

theorem isPassedOver_close (h : r.messageType = .mtClose) : r.isPassedOver = false := by
  unfold ExascriptResponse.isPassedOver
  rw [h]

end

namespace Protocol

/-- The state after a response that changes nothing but the connection id. -/
def heard (p : Protocol) (r : ExascriptResponse) : Protocol :=
  { p with connectionId := r.connectionId }

/-- What a response does. -/
inductive StepResult (p : Protocol) (r : ExascriptResponse) :
    Except ProtocolError (HostEvent × Option HostAction) × Protocol → Prop where
  | error (e : ProtocolError) : r.isTeardown = false → r.isPassedOver = false →
    (p.phase = .handshake → r.info? = none) → StepResult p r (.error e, p.heard r)
  | pending (info : ExascriptInfo) : p.phase = .handshake → r.info? = some info →
    r.isTeardown = false → r.isPassedOver = false →
    StepResult p r (.ok (.pending, some .metaRequest), { p.heard r with pendingInfo := some info })
  | metadata (metadata : ExascriptMetadata) (info : ExascriptInfo) : p.phase = .handshake →
    r.metadata = some metadata → p.pendingInfo = some info → r.isTeardown = false →
    r.isPassedOver = false → StepResult p r (.ok (.udfMeta (.fromPb metadata info), none),
      { p.heard r with
        pendingInfo := none
        singleCallMode := metadata.singleCallMode
        phase := .run })
  | running (event : HostEvent) : event.isRunning = true → p.phase = .run →
    (event.isSingleCall = true → p.singleCallMode = true) → r.isTeardown = false →
    StepResult p r (.ok (event, none), p.heard r)
  | ping (s : String) : r.isTeardown = false → r.isPassedOver = false → r.info? = none →
    StepResult p r (.ok (.ping s, some (.pingReply s)), p.heard r)
  | incidental (event : HostEvent) : event.isIncidental = true → r.isTeardown = false →
    r.isPassedOver = true → r.info? = none → StepResult p r (.ok (event, none), p.heard r)
  | cleanup : r.messageType = .mtCleanup →
    StepResult p r (.ok (.cleanup, none), { p.heard r with phase := .cleanup })
  | finished : r.messageType = .mtFinished →
    StepResult p r (.ok (.finished, none), { p.heard r with phase := .done })
  | close (message : Option String) : r.messageType = .mtClose →
    message = r.close.bind ExascriptClose.exceptionMessage →
    StepResult p r (.ok (.close message, none), { p.heard r with phase := .done })

theorem importEvent_ok {r : ExascriptResponse} {event : HostEvent}
    (h : importEvent r = .ok event) : event.isIncidental = true := by
  unfold importEvent at h
  split at h
  · cases h
  · split at h <;> cases h <;> rfl

/-- **Responses.**  The phase moves on by metadata and by the end of the session only. -/
theorem step_spec (p : Protocol) (r : ExascriptResponse) : StepResult p r (p.step r) := by
  unfold step
  dsimp only
  have htear : ∀ {mt}, r.messageType = mt → r.isTeardown = match mt with
      | .mtCleanup | .mtFinished | .mtClose => true
      | _ => false := fun h => h ▸ rfl
  have hover : ∀ {mt}, r.messageType = mt → r.isPassedOver = match mt with
      | .mtTryAgain | .mtCleanup | .mtFinished => true
      | .mtImport => (importEvent r).toOption.isSome
      | _ => false := fun h => h ▸ rfl
  have hinfo : r.messageType ≠ .mtInfo → r.info? = none := fun h => if_neg h
  split
  case h_1 hmt hphase =>
    have hinfo' : r.info? = r.info := if_pos hmt
    split
    case h_1 hnone => exact .error _ (htear hmt) (hover hmt) fun _ => hinfo'.trans hnone
    case h_2 info hsome => exact .pending info hphase (hinfo'.trans hsome) (htear hmt) (hover hmt)
  case h_2 hmt hphase =>
    have hno := hinfo (by rw [hmt]; decide)
    split
    case h_1 => exact .error _ (htear hmt) (hover hmt) fun _ => hno
    case h_2 => exact .error _ (htear hmt) (hover hmt) fun _ => hno
    case h_3 metadata info hmeta hpending =>
      exact .metadata metadata info hphase hmeta hpending (htear hmt) (hover hmt)
  case h_5 hmt hphase =>
    split
    · exact .error _ (htear hmt) (hover hmt) fun _ => hinfo (by rw [hmt]; decide)
    · exact .running _ rfl hphase (fun h => nomatch h) (htear hmt)
  case h_8 hmt hphase | h_9 hmt hphase =>
    split_ifs with hmode
    · exact .running _ rfl hphase (fun _ => hmode) (htear hmt)
    · exact .error _ (htear hmt) (hover hmt) fun _ => hinfo (by rw [hmt]; decide)
  case h_10 hmt hphase =>
    have hno := hinfo (by rw [hmt]; decide)
    split_ifs with hmode
    · unfold callEvent
      split
      · exact .error _ (htear hmt) (hover hmt) fun _ => hno
      · exact .running _ rfl hphase (fun _ => hmode) (htear hmt)
    · exact .error _ (htear hmt) (hover hmt) fun _ => hno
  case h_11 hmt =>
    have hno := hinfo (by rw [hmt]; decide)
    have hpassed : r.isPassedOver = (importEvent r).toOption.isSome := hover hmt
    rcases himport : importEvent r with e | event <;> rw [himport] at hpassed
    · exact .error _ (htear hmt) hpassed fun _ => hno
    · exact .incidental _ (importEvent_ok himport) (htear hmt) hpassed hno
  case h_12 hmt => exact .cleanup hmt
  case h_13 hmt => exact .finished hmt
  case h_14 hmt => exact .close _ hmt rfl
  case h_15 hmt => exact .ping _ (htear hmt) (hover hmt) (hinfo (by rw [hmt]; decide))
  case h_16 hmt => exact .incidental _ rfl (htear hmt) (hover hmt) (hinfo (by rw [hmt]; decide))
  -- Whatever is left is no response that the phase expects.
  case h_17 himport hcleanup hfinished hclose _ hagain hinfo' _ _ _ _ _ _ _ _ _ =>
    refine .error _ ?_ ?_ fun hphase => hinfo fun h => hinfo' h hphase
    · unfold ExascriptResponse.isTeardown
      split <;> first | rfl | contradiction
    · unfold ExascriptResponse.isPassedOver
      split <;> first | rfl | contradiction
  all_goals
    rename_i hmt hphase
    exact .running _ rfl hphase (fun h => nomatch h) (htear hmt)

/-- **Answers.**  An event stands for a response of its own type, and a call carries the payload of
its `MT_CALL`. -/
theorem step_messageType {p : Protocol} {r : ExascriptResponse} {event : HostEvent}
    {action : Option HostAction} (h : (p.step r).1 = .ok (event, action)) :
    r.messageType = event.messageType ∧ (event.messageType = .mtCall →
      callEvent r = .ok event) := by
  unfold step at h
  dsimp only at h
  split at h
  case h_1 hmt _ =>
    split at h <;> cases h
    exact ⟨hmt, fun h => nomatch h⟩
  case h_2 hmt _ =>
    split at h <;> cases h
    exact ⟨hmt, fun h => nomatch h⟩
  case h_5 hmt _ =>
    split at h <;> cases h
    exact ⟨hmt, fun h => nomatch h⟩
  case h_8 hmt _ | h_9 hmt _ =>
    split_ifs at h
    cases h
    exact ⟨hmt, fun h => nomatch h⟩
  -- A call is the one event whose payload matters.
  case h_10 hmt _ =>
    split_ifs at h
    rcases hcall : callEvent r with e | event' <;> rw [hcall] at h <;> cases h
    unfold callEvent at hcall
    split at hcall <;> cases hcall
    exact ⟨hmt, fun _ => rfl⟩
  case h_11 hmt =>
    rcases himport : importEvent r with e | event' <;> rw [himport] at h <;> cases h
    unfold importEvent at himport
    split at himport
    · cases himport
    · split at himport <;> cases himport <;> exact ⟨hmt, fun h => nomatch h⟩
  case h_17 => cases h
  all_goals
    cases h
    exact ⟨by assumption, fun h => nomatch h⟩

end Protocol

end ExaUdf
