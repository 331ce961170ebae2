import ExaUdf.Lib.Loop
import ExaUdf.Protocol
import ExaUdf.ProtoResponse

/-!
# The mock database

A `Session` is the database's end of the control channel: it takes the frames of a client one by
one, answers each, and drives the client through a handshake and run cycles.  Whatever the client
emits in a cycle is acknowledged at once, and shown to an `EmitSink` when the cycle is over.

The frames that a client sends are given as a list; a receive that finds none fails like the socket.
Timing, and what happens on the socket below the frames, is left out.
-/

namespace ExaUdf

/-- What goes over the wire. -/
def Frame.bytes : Frame → List UInt8
  | .request r => r.encodeToVec
  | .emit r => r.encodeFrame

namespace MockDb

def mockConnId : UInt64 := 7

inductive MockError where
  | zmq
  | decode
  | unexpected (expected : String) (got : Int32)
  | closed (message : Option String)
  deriving DecidableEq, Repr

def reply (mt : MessageType) : ExascriptResponse :=
  { ExascriptResponse.empty with type := mt.toI32, connectionId := mockConnId }

/-! ### Requests -/

/-- Read a varint on from bit `shift`, and convert it. -/
def peekVarint (value : UInt64) (shift : Nat) : List UInt8 → Option Int32
  | [] => none
  | b :: bs =>
    let value := value ||| (b &&& 0x7f).toUInt64 <<< UInt64.ofNat shift
    if b &&& 0x80 = 0 then
      if value.toNat ≤ 2147483647 then some (Int32.ofNat value.toNat) else none
    else if 63 < shift + 7 then none
    else peekVarint value (shift + 7) bs

/-- The leading `type` of an encoded request. -/
def peekType : List UInt8 → Option Int32
  | [] => none
  | b :: bs => if b = 0x08 then peekVarint 0 0 bs else none

def decode (bytes : List UInt8) : Except MockError ExascriptRequest :=
  match ExascriptRequest.decode bytes with
  | none => .error .decode
  | some req =>
    if req.type = MessageType.mtClose.toI32 then
      .error (.closed (req.close.bind ExascriptClose.exceptionMessage))
    else .ok req

def expect (req : ExascriptRequest) (mt : MessageType) (name : String) : Except MockError Unit :=
  if req.type = mt.toI32 then .ok () else .error (.unexpected name req.type)

/-! ### Sinks -/

/-- The wire limit of an `MT_EMIT`. -/
def emitLimitBytes : Nat := 4000000

/-- What is done with each `MT_EMIT`, given the length of its frame. -/
abbrev EmitSink (σ : Type) := Nat → ExascriptTableData → σ → σ

structure EmitCounters where
  messages : Nat
  rows : Nat
  bytes : Nat
  maxBytes : Nat
  overLimit : Nat
  withRowNumber : Nat
  deriving DecidableEq, Repr

namespace EmitCounters

def default : EmitCounters := ⟨0, 0, 0, 0, 0, 0⟩

def observe : EmitSink EmitCounters := fun frameLen table c =>
  { messages := c.messages + 1
    rows := c.rows + table.rows
    bytes := c.bytes + frameLen
    maxBytes := max c.maxBytes frameLen
    overLimit := if emitLimitBytes < frameLen then c.overLimit + 1 else c.overLimit
    withRowNumber :=
      if table.rowNumber.length = table.rows ∧ 0 < table.rows then c.withRowNumber + 1
      else c.withRowNumber }

end EmitCounters

/-! ### Input -/

/-- The `MT_NEXT` frames of a cycle, and how many have been given out. -/
structure FrameCursor where
  frames : List (List UInt8)
  pos : Nat

namespace FrameCursor

def new (frames : List (List UInt8)) : FrameCursor := ⟨frames, 0⟩

def nextFrame (c : FrameCursor) : Option (List UInt8) × FrameCursor :=
  match c.frames[c.pos]? with
  | none => (none, c)
  | some frame => (some frame, { c with pos := c.pos + 1 })

end FrameCursor

/-! ### Sessions -/

/-- The frames to come from the client, and what it has been sent. -/
structure Session where
  inbox : List (List UInt8)
  outbox : List (List UInt8)
  deriving DecidableEq, Repr

namespace Session

/-- A socket on which a client is going to send these frames. -/
def bind (inbox : List (List UInt8)) : Session := ⟨inbox, []⟩

def send (bytes : List UInt8) (s : Session) : Session :=
  { s with outbox := s.outbox ++ [bytes] }

@[simp] theorem send_mk (inbox outbox : List (List UInt8)) (bytes : List UInt8) :
    send bytes ⟨inbox, outbox⟩ = ⟨inbox, outbox ++ [bytes]⟩ := rfl

def recv (mt : MessageType) (name : String) (s : Session) :
    Except MockError ExascriptRequest × Session :=
  match s.inbox with
  | [] => (.error .zmq, s)
  | bytes :: inbox =>
    let req := (decode bytes).bind fun req => (expect req mt name).map fun () => req
    (req, { s with inbox := inbox })

/-- What the client is told of the script. -/
def mockInfo (udfObject scriptName : String) : ExascriptInfo :=
  { ExascriptInfo.empty with
    databaseName := "mock"
    databaseVersion := "0"
    scriptName := scriptName
    sourceCode := "%udf_object " ++ udfObject
    scriptSchema := "BENCH"
    nodeCount := 1 }

def infoReply (info : ExascriptInfo) : ExascriptResponse :=
  { reply .mtInfo with info := some info }

def metaReply (metadata : ExascriptMetadata) : ExascriptResponse :=
  { reply .mtMeta with metadata := some metadata }

def handshake (udfObject scriptName : String) (metadata : ExascriptMetadata) (s : Session) :
    Except MockError Unit × Session :=
  match s.recv .mtClient "MT_CLIENT" with
  | (.error e, s) => (.error e, s)
  | (.ok _, s) =>
    let s := s.send (infoReply (mockInfo udfObject scriptName)).encodeToVec
    match s.recv .mtMeta "MT_META" with
    | (.error e, s) => (.error e, s)
    | (.ok _, s) => (.ok (), s.send (metaReply metadata).encodeToVec)

/-- A run cycle in its window: the input, and the frames of the `MT_EMIT`s so far. -/
structure Window where
  session : Session
  input : FrameCursor
  emits : List (List UInt8)

/-- Answer one frame within a run cycle. -/
def windowStep (w : Window) : (Except MockError Unit × Window) ⊕ Window :=
  match w.session.inbox with
  | [] => .inl (.error .zmq, w)
  | bytes :: inbox =>
    let session := { w.session with inbox := inbox }
    match (peekType bytes).bind MessageType.tryFrom with
    | some .mtNext =>
      match w.input.nextFrame with
      | (some frame, input) => .inr { w with session := session.send frame, input := input }
      | (none, input) =>
        .inr { w with session := session.send (reply .mtDone).encodeToVec, input := input }
    | some .mtEmit =>
      .inr { w with
        session := session.send (reply .mtEmit).encodeToVec, emits := w.emits ++ [bytes] }
    | some .mtDone => .inl (.ok (), { w with session := session })
    | _ =>
      match decode bytes with
      | .error e => .inl (.error e, { w with session := session })
      | .ok req => .inl (.error (.unexpected "MT_NEXT, MT_EMIT or MT_DONE" req.type),
          { w with session := session })

theorem windowStep_decreases (w w' : Window) (h : windowStep w = .inr w') :
    w'.session.inbox.length < w.session.inbox.length := by
  unfold windowStep at h
  rcases hinbox : w.session.inbox with - | ⟨bytes, inbox⟩ <;> rw [hinbox] at h
  · cases h
  -- A frame that is answered is taken off the inbox.
  · dsimp only at h
    repeat' split at h
    all_goals cases h
    all_goals exact Nat.lt_succ_self _

def window : Loop Window (Except MockError Unit × Window) where
  step := windowStep
  variant := fun w => w.session.inbox.length
  decreases := windowStep_decreases

/-- Show the `MT_EMIT`s to the sink. -/
def observeAll {σ : Type} (sink : EmitSink σ) : List (List UInt8) → σ → Except MockError Unit × σ
  | [], st => (.ok (), st)
  | frame :: emits, st =>
    match ExascriptRequest.decode frame with
    | none => (.error .decode, st)
    | some req =>
      match req.emit with
      | some table => observeAll sink emits (sink frame.length table st)
      | none => observeAll sink emits st

/-- Emits are acked at once and handed to `sink` after the window closes. -/
def runCycle {σ : Type} (sink : EmitSink σ) (frames : List (List UInt8)) (st : σ) (s : Session) :
    Except MockError Unit × σ × Session :=
  match s.recv .mtRun "MT_RUN" with
  | (.error e, s) => (.error e, st, s)
  | (.ok _, s) =>
    let w := window.run ⟨s.send (reply .mtRun).encodeToVec, .new frames, []⟩
    match w.1 with
    | .error e => (.error e, st, w.2.session)
    | .ok () =>
      match observeAll sink w.2.emits st with
      | (.error e, st) => (.error e, st, w.2.session)
      | (.ok (), st) => (.ok (), st, w.2.session.send (reply .mtDone).encodeToVec)

def finish (s : Session) : Except MockError Unit × Session :=
  match s.recv .mtRun "MT_RUN" with
  | (.error e, s) => (.error e, s)
  | (.ok _, s) =>
    match (s.send (reply .mtCleanup).encodeToVec).recv .mtFinished "MT_FINISHED" with
    | (.error e, s) => (.error e, s)
    | (.ok _, s) => (.ok (), s.send (reply .mtFinished).encodeToVec)

/-! ### A whole session -/

/-- One run cycle after the other, with one sink for all of them. -/
def runCycles {σ : Type} (sink : EmitSink σ) :
    List (List (List UInt8)) → σ → Session → Except MockError Unit × σ × Session
  | [], st, s => (.ok (), st, s)
  | frames :: cycles, st, s =>
    match s.runCycle sink frames st with
    | (.error e, st, s) => (.error e, st, s)
    | (.ok (), st, s) => runCycles sink cycles st s

/-- Drive a client from the handshake to the end, as the fixtures do. -/
def drive {σ : Type} (sink : EmitSink σ) (udfObject scriptName : String)
    (metadata : ExascriptMetadata) (cycles : List (List (List UInt8))) (st : σ) (s : Session) :
    Except MockError Unit × σ × Session :=
  match s.handshake udfObject scriptName metadata with
  | (.error e, s) => (.error e, st, s)
  | (.ok (), s) =>
    match s.runCycles sink cycles st with
    | (.error e, st, s) => (.error e, st, s)
    | (.ok (), st, s) => (s.finish.1, st, s.finish.2)

end Session

end MockDb

end ExaUdf
