import ExaUdf.Frame
import ExaUdf.Text

/-!
# The protocol state machine

`Protocol.step` classifies one response of the database as a `HostEvent`, by the phase of the
session, and the request builders stamp every request with the connection id of the last response.
`UdfMeta.fromPb` reads the handshake's metadata.
-/

namespace ExaUdf

/-! ### Metadata -/

/-- How many rows one invocation takes or gives: one (SCALAR, RETURNS) or many (SET, EMITS). -/
inductive IterType where
  | exactlyOnce | multiple
  deriving DecidableEq, Repr

/-- An absent or unknown number counts as the first variant. -/
def iterFromPb (n : Int32) : IterType :=
  if n = 2 then .multiple else .exactlyOnce

structure UdfMeta where
  inputIter : IterType
  outputIter : IterType
  inputColumns : List ColumnInfo
  outputColumns : List ColumnInfo
  singleCallMode : Bool
  sourceCode : String
  scriptName : String
  scriptSchema : String
  databaseName : String
  databaseVersion : String
  sessionId : UInt64
  statementId : UInt32
  nodeId : UInt32
  nodeCount : UInt32
  vmId : UInt64
  currentUser : Option String
  currentSchema : Option String
  scopeUser : Option String
  maximalMemoryLimit : UInt64
  deriving DecidableEq, Repr

/-- Credentials of a CONNECTION. -/
structure ConnInfo where
  kind : String
  address : String
  user : String
  password : String
  deriving DecidableEq, Repr

def ConnInfo.fromPb (pb : ConnectionInformationRep) : ConnInfo :=
  ⟨pb.kind, pb.address, pb.user, pb.password⟩

/-- `CHAR` at the start of a type name. -/
def charPrefix : List UInt8 := [67, 72, 65, 82]

def refineString (typeName : String) (size : Option UInt32) : ExaType :=
  if charPrefix.isPrefixOf (Utf8.bytes typeName) then .char (size.getD 1)
  else .string (size.getD 2000000)

/-- `str::parse::<u32>`; a minus sign is no digit. -/
def parseU32 (bs : List UInt8) : Option UInt32 :=
  if bs.head? = some 45 then none
  else (Digits.parseInt 0 (2 ^ 32 - 1) bs).toOption.map fun n => UInt32.ofNat n.toNat

/-- The number between the first `(` and the next `)`. -/
def parseTimestampPrecision (typeName : String) : Option UInt32 :=
  let bs := Utf8.bytes typeName
  (bs.findIdx? (· == 40)).bind fun openAt =>
    ((bs.drop openAt).findIdx? (· == 41)).bind fun len =>
      parseU32 (slice bs (openAt + 1) (openAt + len))

def refineTimestamp (typeName : String) (precision : Option UInt32) : ExaType :=
  .timestamp (((parseTimestampPrecision typeName).or precision).getD 3)

/-- Map one protobuf column definition to the SDK's. -/
def columnFromPb (col : ColumnDefinition) : ColumnInfo where
  name := col.name
  typ :=
    match (col.type.bind ColumnType.tryFrom).getD .pbUnsupported with
    | .pbDouble => .double
    | .pbInt32 => .int32
    | .pbInt64 => .int64
    | .pbNumeric => .numeric (col.precision.getD 18) (col.scale.getD 0)
    | .pbDate => .date
    | .pbBoolean => .boolean
    | .pbUnsupported => .unsupported
    | .pbTimestamp => refineTimestamp col.typeName col.precision
    | .pbString => refineString col.typeName col.size
  typeName := col.typeName
  size := col.size
  precision := col.precision
  scale := col.scale

def UdfMeta.fromPb (metadata : ExascriptMetadata) (info : ExascriptInfo) : UdfMeta where
  inputIter := iterFromPb metadata.inputIterType
  outputIter := iterFromPb metadata.outputIterType
  inputColumns := metadata.inputColumns.map columnFromPb
  outputColumns := metadata.outputColumns.map columnFromPb
  singleCallMode := metadata.singleCallMode
  sourceCode := info.sourceCode
  scriptName := info.scriptName
  scriptSchema := info.scriptSchema
  databaseName := info.databaseName
  databaseVersion := info.databaseVersion
  sessionId := info.sessionId
  statementId := info.statementId
  nodeId := info.nodeId
  nodeCount := info.nodeCount
  vmId := info.vmId
  currentUser := info.currentUser
  currentSchema := info.currentSchema
  scopeUser := info.scopeUser
  maximalMemoryLimit := info.maximalMemoryLimit

/-! ### Events -/

inductive ProtocolError where
  /-- A failure of the socket, by its text. -/
  | zmq (text : String)
  | unexpectedMessage (type : Int32) (phase : String)
  | protocol (message : String)
  deriving DecidableEq, Repr

def ProtocolError.display : ProtocolError → String
  | .zmq text => "ZMQ error: " ++ text
  | .unexpectedMessage type phase =>
    "Unexpected message type " ++ toString type.toInt ++ " in state " ++ phase
  | .protocol message => "Protocol error: " ++ message

/-- What a response means to the runtime. -/
inductive HostEvent where
  | pending
  | udfMeta (m : UdfMeta)
  | run
  | emitAck
  | nextData (table : ExascriptTableData)
  | done
  | cleanup
  | singleCallAck
  | undefinedCallAck
  | finished
  | close (message : Option String)
  | ping (metaInfo : String)
  | tryAgain
  | reset
  | singleCall (fnId : SingleCallFunctionId) (jsonArg : Option String)
    (importSpec : Option ImportSpecificationRep) (exportSpec : Option ExportSpecificationRep)
  | connInfo (ci : ConnInfo)
  | importRefused (reason : String)
  deriving DecidableEq, Repr

/-- What the runtime has to send back at once. -/
inductive HostAction where
  | metaRequest
  | pingReply (metaInfo : String)
  deriving DecidableEq, Repr

/-- The rows that an event brings. -/
def HostEvent.rows : HostEvent → Nat
  | .nextData table => table.rows
  | _ => 0

inductive Phase where
  | handshake | run | cleanup | done
  deriving DecidableEq, Repr

def Phase.name : Phase → String
  | .handshake => "Handshake"
  | .run => "Run"
  | .cleanup => "Cleanup"
  | .done => "Done"

/-- The type of a response; an unknown number is `MT_UNKNOWN`. -/
def ExascriptResponse.messageType (resp : ExascriptResponse) : MessageType :=
  (MessageType.tryFrom resp.type).getD .mtUnknown

structure Protocol where
  connectionId : UInt64
  phase : Phase
  pendingInfo : Option ExascriptInfo
  singleCallMode : Bool
  deriving DecidableEq, Repr

namespace Protocol

def new : Protocol where
  connectionId := 0
  phase := .handshake
  pendingInfo := none
  singleCallMode := false

/-! ### Steps -/

/-- The `MT_IMPORT` arm: credentials, or the reason of a refusal. -/
def importEvent (resp : ExascriptResponse) : Except ProtocolError HostEvent :=
  match resp.importRep with
  | none => .error (.protocol "MT_IMPORT missing import field")
  | some rep =>
    match rep.exceptionMessage, rep.connectionInformation with
    | some reason, _ => .ok (.importRefused reason)
    | none, some conn => .ok (.connInfo (.fromPb conn))
    | none, none =>
      .error (.protocol "MT_IMPORT response missing connection_information")

/-- The `MT_CALL` arm in single-call mode. -/
def callEvent (resp : ExascriptResponse) : Except ProtocolError HostEvent :=
  match resp.call with
  | none => .error (.protocol "MT_CALL missing call field")
  | some call => .ok (.singleCall ((SingleCallFunctionId.tryFrom call.fn).getD .scFnNil)
      call.jsonArg call.importSpecification call.exportSpecification)

def unexpected (p : Protocol) (resp : ExascriptResponse) : ProtocolError :=
  .unexpectedMessage resp.type p.phase.name

/-- Feed one response: the event to handle, and perhaps something to send back. -/
def step (p : Protocol) (resp : ExascriptResponse) :
    Except ProtocolError (HostEvent × Option HostAction) × Protocol :=
  -- The id is taken over from every response, also from one that is refused below.
  let p := { p with connectionId := resp.connectionId }
  match resp.messageType, p.phase with
  | .mtInfo, .handshake =>
    match resp.info with
    | none => (.error (.protocol "MT_INFO missing info field"), p)
    | some info => (.ok (.pending, some .metaRequest), { p with pendingInfo := some info })
  | .mtMeta, .handshake =>
    match resp.metadata, p.pendingInfo with
    | none, _ => (.error (.protocol "MT_META missing meta field"), p)
    | some _, none => (.error (.protocol "MT_META before MT_INFO"), p)
    | some metadata, some info =>
      (.ok (.udfMeta (.fromPb metadata info), none),
        { p with
          pendingInfo := none
          singleCallMode := metadata.singleCallMode
          phase := .run })
  | .mtRun, .run => (.ok (.run, none), p)
  | .mtEmit, .run => (.ok (.emitAck, none), p)
  | .mtNext, .run =>
    match resp.next with
    | none => (.error (.protocol "MT_NEXT missing table"), p)
    | some table => (.ok (.nextData table, none), p)
  | .mtDone, .run => (.ok (.done, none), p)
  | .mtReset, .run => (.ok (.reset, none), p)
  -- Answers to single calls, and calls themselves, are out of place in a streaming session.
  | .mtReturn, .run =>
    if p.singleCallMode then (.ok (.singleCallAck, none), p)
    else (.error (p.unexpected resp), p)
  | .mtUndefinedCall, .run =>
    if p.singleCallMode then (.ok (.undefinedCallAck, none), p)
    else (.error (p.unexpected resp), p)
  | .mtCall, .run =>
    if p.singleCallMode then ((callEvent resp).map (·, none), p)
    else (.error (p.unexpected resp), p)
  -- These are accepted in every phase.
  | .mtImport, _ => ((importEvent resp).map (·, none), p)
  | .mtCleanup, _ => (.ok (.cleanup, none), { p with phase := .cleanup })
  | .mtFinished, _ => (.ok (.finished, none), { p with phase := .done })
  | .mtClose, _ =>
    (.ok (.close (resp.close.bind ExascriptClose.exceptionMessage), none),
      { p with phase := .done })
  | .mtPingPong, _ =>
    let metaInfo := resp.ping.getD ""
    (.ok (.ping metaInfo, some (.pingReply metaInfo)), p)
  | .mtTryAgain, _ => (.ok (.tryAgain, none), p)
  | _, _ => (.error (p.unexpected resp), p)

/-- An input batch comes out of the response as it is. -/
theorem step_nextData {p p' : Protocol} {resp : ExascriptResponse} {table : ExascriptTableData}
    {action : Option HostAction} (h : p.step resp = (.ok (.nextData table, action), p')) :
    resp.next = some table := by
  unfold step at h
  dsimp only at h
  split at h
  -- Only the `MT_NEXT` arm brings a batch.
  case h_5 =>
    cases hnext : resp.next with
    | none => rw [hnext] at h; cases h
    | some t => rw [hnext] at h; cases h; rfl
  case h_10 =>
    split_ifs at h
    · unfold callEvent at h
      cases hcall : resp.call <;> rw [hcall] at h <;> cases h
    · cases h
  case h_11 =>
    unfold importEvent at h
    repeat' split at h
    all_goals cases h
  all_goals first
    | cases h
    | (split at h <;> cases h)

theorem step_rows {p p' : Protocol} {resp : ExascriptResponse} {event : HostEvent}
    {action : Option HostAction} (h : p.step resp = (.ok (event, action), p')) :
    event.rows ≤ (resp.next.map ExascriptTableData.rows).getD 0 := by
  cases event with
  | nextData table =>
    rw [step_nextData h]
    exact Nat.le_refl _
  | _ => exact Nat.zero_le _

/-! ### Requests -/

def baseRequest (p : Protocol) (mt : MessageType) : ExascriptRequest :=
  { ExascriptRequest.empty with type := mt.toI32, connectionId := p.connectionId }

def clientRequest (p : Protocol) (clientName : String) : ExascriptRequest :=
  { p.baseRequest .mtClient with client := some ⟨clientName, none⟩ }

def metaRequest (p : Protocol) : ExascriptRequest := p.baseRequest .mtMeta

def runRequest (p : Protocol) : ExascriptRequest := p.baseRequest .mtRun

def nextRequest (p : Protocol) : ExascriptRequest := p.baseRequest .mtNext

def emitRequest (p : Protocol) (table : EmitTable) : EmitRequest := ⟨p.connectionId, table⟩

def doneRequest (p : Protocol) : ExascriptRequest := p.baseRequest .mtDone

def finishedReply (p : Protocol) : ExascriptRequest := p.baseRequest .mtFinished

def closeRequest (p : Protocol) (exceptionMessage : Option String) : ExascriptRequest :=
  { p.baseRequest .mtClose with close := some ⟨exceptionMessage⟩ }

def pingReply (p : Protocol) (metaInfo : String) : ExascriptRequest :=
  { p.baseRequest .mtPingPong with ping := some metaInfo }

/-- A number padded with zeros to four digits. -/
def fourDigits (n : Nat) : String :=
  "".pushn '0' (4 - (toString n).length) ++ toString n

def errorCloseRequest (p : Protocol) (code : Nat) (message : String) : ExascriptRequest :=
  p.closeRequest (some ("F-UDF-CL-RUST-" ++ fourDigits code ++ ": " ++ message))

def returnRequest (p : Protocol) (result : String) : ExascriptRequest :=
  { p.baseRequest .mtReturn with callResult := some result }

def undefinedCallRequest (p : Protocol) (remoteFn : String) : ExascriptRequest :=
  { p.baseRequest .mtUndefinedCall with undefinedCall := some remoteFn }

/-- `PB_IMPORT_CONNECTION_INFORMATION` is 2. -/
def importConnectionRequest (p : Protocol) (scriptName : String) : ExascriptRequest :=
  { p.baseRequest .mtImport with importReq := some ⟨scriptName, some 2⟩ }

end Protocol

/-- What can be sent: an ordinary request, or an `MT_EMIT` written by hand. -/
inductive Frame where
  | request (r : ExascriptRequest)
  | emit (r : EmitRequest)
  deriving DecidableEq, Repr

def Frame.messageType : Frame → Int32
  | .request r => r.type
  | .emit r => r.messageType

end ExaUdf
