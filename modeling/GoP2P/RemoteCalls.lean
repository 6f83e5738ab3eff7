import GoP2P.WorkerRequests

/-!
# Requests of the controller

Five calls of the controller send a request and wait for the reply.  Each names
the type of reply that it expects; any other type is an error, except that a
message of type `error` is turned into the error that it carries.  What
`sendRequest` returns is given: the reply that was delivered, or its error.
-/

namespace GoP2P.Node

/-! ### Errors -/

/-- An error of a call: one of this node, or a `ProtocolError`, which came from
the peer. -/
inductive CallError where
  | core (error : CoreError)
  | protocol (code : ℤ) (message : Bytes)
  deriving DecidableEq, Repr

def CallError.ofCore {α : Type} : Outcome CoreError α → Outcome CallError α
  | .returned value => .returned value
  | .failed error => .failed (.core error)
  | .panicked => .panicked
  | .unfinished => .unfinished

/-! ### Responses -/

def unexpectedType (expectedType got : MessageType) : CoreError :=
  .op "ResponseHandler.ValidateResponse"
    (text "unexpected response type: expected " ++ expectedType.name ++
      text ", got " ++ got.name)

section

variable (codec : RequestCodec)

def validateResponse (resp : Option Message) (expectedType : MessageType) :
    Outcome CallError Unit :=
  match resp with
  | none =>
      .failed (.core (.op "ResponseHandler.ValidateResponse" (text "nil response")))
  | some resp =>
      if resp.type = .error then
        match resp.parsePayload {} codec.unmarshalError with
        | .returned errPayload =>
            .failed (.protocol errPayload.code errPayload.message)
        | _ =>
            .failed (.protocol errCodeUnknown
              (text "unable to parse error response"))
      else if resp.type ≠ expectedType then
        .failed (.core (unexpectedType expectedType resp.type))
      else
        .returned ()

def parseResponse {α : Type} (resp : Message) (expectedType : MessageType)
    (zero : α) (unmarshal : Bytes → Except CoreError α) :
    Outcome CallError α := do
  validateResponse codec (some resp) expectedType
  CallError.ofCore ((resp.parsePayload zero unmarshal).mapError
    (.wrap "ResponseHandler.ParseResponse"
      (text "failed to parse " ++ expectedType.name ++ text " payload")))

end

/-! ### Requests -/

/-- The requests that the controller sends, with the arguments of the call. -/
inductive RemoteRequest where
  | ping (sentAt : Time)
  | getStats
  | startMiner (minerType profileID : Bytes) (configOverride : Option Bytes)
  | stopMiner (minerName : Bytes)
  | getLogs (minerName : Bytes) (lines : ℤ) (since : Time)
  deriving DecidableEq, Repr

namespace RemoteRequest

def type : RemoteRequest → MessageType
  | .ping _ => .ping
  | .getStats => .getStats
  | .startMiner _ _ _ => .startMiner
  | .stopMiner _ => .stopMiner
  | .getLogs _ _ _ => .getLogs

/-- The type that the call passes to `ParseResponse` or `ValidateResponse`. -/
def expectedType : RemoteRequest → MessageType
  | .ping _ => .pong
  | .getStats => .stats
  | .startMiner _ _ _ | .stopMiner _ => .minerAck
  | .getLogs _ _ _ => .logs

def operation : RemoteRequest → String
  | .ping _ => "Controller.PingPeer"
  | .getStats => "Controller.GetRemoteStats"
  | .startMiner _ _ _ => "Controller.StartRemoteMiner"
  | .stopMiner _ => "Controller.StopRemoteMiner"
  | .getLogs _ _ _ => "Controller.GetRemoteLogsSince"

/-- What the call checks first. -/
def check : RemoteRequest → Outcome CoreError Unit
  | .startMiner minerType _ _ =>
      if minerType = [] then
        .failed (.op "Controller.StartRemoteMiner" (text "miner type is required"))
      else
        .returned ()
  | _ => .returned ()

/-- The encoded payload; `none` for a nil payload. -/
def payload (codec : RequestCodec) : RemoteRequest → Option (Except CoreError Bytes)
  | .ping sentAt => some (codec.marshalPing { sentAt := unixMilli sentAt })
  | .getStats => none
  | .startMiner minerType profileID configOverride =>
      some (codec.marshalStartMiner
        { minerType := minerType, profileID := profileID
          config := configOverride })
  | .stopMiner minerName => some (codec.marshalStopMiner { minerName := minerName })
  | .getLogs minerName lines since =>
      some (codec.marshalGetLogs
        { minerName := minerName, lines := lines
          since := if since = 0 then 0 else unixMilli since })

/-- `NewMessage` with the payload of the request. -/
def message (codec : RequestCodec) (request : RemoteRequest) (id : Bytes)
    (now : Time) (fromNode toNode : Bytes) : Outcome CoreError Message :=
  match request.payload codec with
  | none =>
      .returned
        { id := id, type := request.type, fromNode := fromNode, toNode := toNode
          timestamp := now }
  | some payload => newMessage id now request.type fromNode toNode payload

end RemoteRequest

/-- The controller's node and, for one call, what `uuid.New`, the clock and
`sendRequest` give. -/
structure CallInput where
  node : NodeManager
  messageID : Bytes
  now : Time
  received : Time
  sendRequest : Message → Outcome CoreError Message

section

variable (codec : RequestCodec) (input : CallInput) (peerID : Bytes)

/-- What every call does before `sendRequest`. -/
def RemoteRequest.issue (request : RemoteRequest) : Outcome CallError Message :=
  match input.node.identity with
  | none => .failed (.core errIdentityNotInitialized)
  | some identity => CallError.ofCore do
      request.check
      (request.message codec input.messageID input.now identity.id
        peerID).mapError
          (.wrap request.operation (text "failed to create message"))

/-- A call that sends the request and goes on with the response. -/
def remoteCall {α : Type} (request : RemoteRequest)
    (finish : Message → Outcome CallError α) : Outcome CallError α := do
  let msg ← request.issue codec input peerID
  let resp ← CallError.ofCore (input.sendRequest msg)
  finish resp

def getRemoteStats : Outcome CallError StatsPayload :=
  remoteCall codec input peerID .getStats fun resp =>
    parseResponse codec resp .stats {} codec.unmarshalStats

/-- What becomes of an acknowledgement. -/
def acknowledged (operation : String) (failure : Bytes) (resp : Message) :
    Outcome CallError Unit := do
  let ack ← parseResponse codec resp .minerAck {} codec.unmarshalMinerAck
  if ack.success then
    .returned ()
  else
    .failed (.core (.op operation (failure ++ ack.error)))

def startRemoteMiner (minerType profileID : Bytes)
    (configOverride : Option Bytes) : Outcome CallError Unit :=
  remoteCall codec input peerID (.startMiner minerType profileID configOverride)
    (acknowledged codec "Controller.StartRemoteMiner"
      (text "miner start failed: "))

def stopRemoteMiner (minerName : Bytes) : Outcome CallError Unit :=
  remoteCall codec input peerID (.stopMiner minerName)
    (acknowledged codec "Controller.StopRemoteMiner"
      (text "miner stop failed: "))

def getRemoteLogsSince (minerName : Bytes) (lines : ℤ) (since : Time) :
    Outcome CallError (List Bytes) :=
  remoteCall codec input peerID (.getLogs minerName lines since) fun resp => do
    let logs ← parseResponse codec resp .logs {} codec.unmarshalLogs
    .returned logs.lines

def getRemoteLogs (minerName : Bytes) (lines : ℤ) :
    Outcome CallError (List Bytes) :=
  getRemoteLogsSince codec input peerID minerName lines 0

/-- The round trip in milliseconds.  That the registry then records it is left
to the model of the registry's updates. -/
def pingPeer (sentAt : Time) : Outcome CallError ℚ :=
  remoteCall codec input peerID (.ping sentAt) fun resp => do
    validateResponse codec (some resp) .pong
    .returned (((input.received - sentAt : ℤ) : ℚ) / nanosecondsPerMillisecond)

/-- What the caller gets. -/
inductive RemoteReply where
  | rtt (milliseconds : ℚ)
  | stats (stats : StatsPayload)
  | done
  | logs (lines : List Bytes)
  deriving DecidableEq

/-- The call of the controller that sends the request. -/
def RemoteRequest.call : RemoteRequest → Outcome CallError RemoteReply
  | .ping sentAt => .rtt <$> pingPeer codec input peerID sentAt
  | .getStats => .stats <$> getRemoteStats codec input peerID
  | .startMiner minerType profileID configOverride =>
      (fun _ => .done) <$>
        startRemoteMiner codec input peerID minerType profileID configOverride
  | .stopMiner minerName =>
      (fun _ => .done) <$> stopRemoteMiner codec input peerID minerName
  | .getLogs minerName lines since =>
      .logs <$> getRemoteLogsSince codec input peerID minerName lines since

end

/-! ### What the caller is told -/

section

variable {codec : RequestCodec} {input : CallInput} {peerID : Bytes}
  {α β : Type} {type : MessageType}

/-- The type of the response is not what a call fails for, and a response of
type `error` is reported as a `ProtocolError`. -/
structure Reports (type : MessageType) (outcome : Outcome CallError α) :
    Prop where
  expected : ∀ expectedType got,
    outcome ≠ .failed (.core (unexpectedType expectedType got))
  error : type = .error → ∃ code message,
    outcome = .failed (.protocol code message)

theorem Reports.bind {first : Outcome CallError α}
    {next : α → Outcome CallError β} (hfirst : Reports type first)
    (hnext : ∀ value expectedType got,
      next value ≠ .failed (.core (unexpectedType expectedType got))) :
    Reports type (first >>= next) := by
  cases first with
  | returned value =>
      refine ⟨hnext value, ?_⟩
      intro htype
      rcases hfirst.error htype with ⟨code, message, hfailed⟩
      cases hfailed
  | failed error =>
      constructor
      · intro expectedType got hfailed
        cases hfailed
        exact hfirst.expected expectedType got rfl
      · intro htype
        rcases hfirst.error htype with ⟨code, message, hfailed⟩
        cases hfailed
        exact ⟨code, message, rfl⟩
  | panicked | unfinished =>
      constructor
      · intro _ _ hfailed
        cases hfailed
      · intro htype
        rcases hfirst.error htype with ⟨code, message, hfailed⟩
        cases hfailed

theorem Reports.map {outcome : Outcome CallError α}
    (hreports : Reports type outcome) (f : α → β) :
    Reports type (f <$> outcome) := by
  apply hreports.bind
  intro value expectedType got hfailed
  cases hfailed

/-- A response is of the expected type or an error. -/
theorem reports_validateResponse {resp : Message} {expectedType : MessageType}
    (htype : resp.type = expectedType ∨ resp.type = .error) :
    Reports resp.type (validateResponse codec (some resp) expectedType) := by
  unfold validateResponse
  dsimp only
  split_ifs with herror hother
  · split
    · refine ⟨?_, fun _ => ⟨_, _, rfl⟩⟩
      intro _ _ hfailed
      cases hfailed
    · refine ⟨?_, fun _ => ⟨_, _, rfl⟩⟩
      intro _ _ hfailed
      cases hfailed
  · exact absurd htype (by simp [herror, hother])
  · refine ⟨?_, fun htype => absurd htype herror⟩
    intro _ _ hfailed
    cases hfailed

theorem reports_parseResponse {resp : Message} {expectedType : MessageType}
    (htype : resp.type = expectedType ∨ resp.type = .error) (zero : α)
    (unmarshal : Bytes → Except CoreError α) :
    Reports resp.type
      (parseResponse codec resp expectedType zero unmarshal) := by
  apply (reports_validateResponse htype).bind
  intro _ expectedType got hfailed
  cases hparsed : resp.parsePayload zero unmarshal with
  | returned | panicked | unfinished =>
      rw [hparsed] at hfailed
      cases hfailed
  | failed error =>
      rw [hparsed] at hfailed
      cases hfailed

theorem remoteCall_eq {request : RemoteRequest} {msg delivered : Message}
    (hissued : request.issue codec input peerID = .returned msg)
    (hdelivered : input.sendRequest msg = .returned delivered)
    (finish : Message → Outcome CallError α) :
    remoteCall codec input peerID request finish = finish delivered := by
  unfold remoteCall
  rw [hissued, Outcome.returned_bind, hdelivered]
  rfl

theorem reports_acknowledged {resp : Message}
    (htype : resp.type = .minerAck ∨ resp.type = .error) {operation : String}
    (hoperation : operation ≠ "ResponseHandler.ValidateResponse")
    (failure : Bytes) :
    Reports resp.type (acknowledged codec operation failure resp) := by
  apply (reports_parseResponse htype _ _).bind
  intro ack expectedType got hfailed
  split_ifs at hfailed
  injection hfailed with hfailed
  injection hfailed with hfailed
  injection hfailed with hsame
  exact hoperation hsame

/-- The call of the controller, when a reply is delivered. -/
theorem reports_call {request : RemoteRequest} {msg delivered : Message}
    (hissued : request.issue codec input peerID = .returned msg)
    (hdelivered : input.sendRequest msg = .returned delivered)
    (htype : delivered.type = request.expectedType ∨ delivered.type = .error) :
    Reports delivered.type (request.call codec input peerID) := by
  cases request with
  | ping sentAt =>
      apply Reports.map
      rw [pingPeer, remoteCall_eq hissued hdelivered]
      apply (reports_validateResponse htype).bind
      intro _ _ _ hfailed
      cases hfailed
  | getStats =>
      apply Reports.map
      rw [getRemoteStats, remoteCall_eq hissued hdelivered]
      exact reports_parseResponse htype _ _
  | startMiner =>
      apply Reports.map
      rw [startRemoteMiner, remoteCall_eq hissued hdelivered]
      exact reports_acknowledged htype (by decide) _
  | stopMiner =>
      apply Reports.map
      rw [stopRemoteMiner, remoteCall_eq hissued hdelivered]
      exact reports_acknowledged htype (by decide) _
  | getLogs =>
      apply Reports.map
      rw [getRemoteLogsSince, remoteCall_eq hissued hdelivered]
      apply (reports_parseResponse htype _ _).bind
      intro _ _ _ hfailed
      cases hfailed

/-! ### The exchange -/

theorem message_type {request : RemoteRequest} {id fromNode toNode : Bytes}
    {now : Time} {msg : Message}
    (hmessage : request.message codec id now fromNode toNode = .returned msg) :
    msg.type = request.type := by
  unfold RemoteRequest.message at hmessage
  split at hmessage
  · cases hmessage
    rfl
  · rcases Outcome.bind_eq_returned_iff.mp hmessage with ⟨data, -, hmsg⟩
    cases hmsg
    rfl

theorem issue_type {request : RemoteRequest} {msg : Message}
    (hissued : request.issue codec input peerID = .returned msg) :
    msg.type = request.type := by
  unfold RemoteRequest.issue at hissued
  split at hissued
  · cases hissued
  next identity _ =>
    generalize hcreated : (do
      request.check
      (request.message codec input.messageID input.now identity.id
        peerID).mapError
          (.wrap request.operation (text "failed to create message"))) =
        created at hissued
    cases created with
    | returned created =>
        cases hissued
        rcases Outcome.bind_eq_returned_iff.mp hcreated with ⟨-, -, hmessage⟩
        rw [Outcome.mapError_eq_returned_iff] at hmessage
        exact message_type hmessage
    | failed | panicked | unfinished => cases hissued

/-- The two dispatch tables agree: the handler for a request answers with the
type that its call expects. -/
theorem handle_answers_request {w : RequestWorker}
    (hinstances : w.ReturnsInstances) (handling : HandleInput)
    (conn : PeerConnection) {request : RemoteRequest} {received : Message}
    (htype : received.type = request.type) :
    ∃ outcome, w.handle codec handling conn received = some outcome ∧
      RequestWorker.Answers received request.expectedType outcome := by
  unfold RequestWorker.handle
  rw [htype]
  cases request with
  | ping => exact ⟨_, rfl, RequestWorker.answers_handlePing⟩
  | getStats => exact ⟨_, rfl, RequestWorker.answers_handleGetStats hinstances⟩
  | startMiner => exact ⟨_, rfl, RequestWorker.answers_handleStartMiner hinstances⟩
  | stopMiner => exact ⟨_, rfl, RequestWorker.answers_handleStopMiner⟩
  | getLogs => exact ⟨_, rfl, RequestWorker.answers_handleGetLogs hinstances⟩

end

/-- Whatever request the controller issues, a worker with an identity whose
miner manager returns no nil instances sends exactly one message back, to the
ID of the request and of the type that the call expects or an error.  The
payload may have been encoded anew on the way.  When a reply of that type is
delivered, the call does not fail for its type, and if the handler has failed,
it fails with a `ProtocolError`. -/
theorem requests_are_answered (codec : RequestCodec) (input : CallInput)
    (peerID : Bytes) {request : RemoteRequest} {msg received : Message}
    (hissued : request.issue codec input peerID = .returned msg)
    (hid : received.id = msg.id) (htype : received.type = msg.type)
    {w : RequestWorker} (hidentity : w.node.identity.isSome)
    (hinstances : w.ReturnsInstances) (handling : HandleInput)
    (conn : PeerConnection) :
    ∃ reply, w.handleMessage codec handling conn received =
        .returned [reply] ∧
      reply.replyTo = msg.id ∧
      (reply.type = request.expectedType ∨ reply.type = .error) ∧
      ∀ delivered, delivered.type = reply.type →
        input.sendRequest msg = .returned delivered →
          (∀ expectedType got, request.call codec input peerID ≠
            .failed (.core (unexpectedType expectedType got))) ∧
          ∀ error, w.handle codec handling conn received =
              some (.failed error) →
            ∃ code message, request.call codec input peerID =
              .failed (.protocol code message) := by
  rcases handle_answers_request hinstances handling conn
    (htype.trans (issue_type hissued)) with ⟨outcome, hhandle, hanswers⟩
  rcases RequestWorker.handleMessage_sends_one hidentity hhandle hanswers with
    ⟨reply, hsent, hreplyTo, hreply, herror⟩
  refine ⟨reply, hsent, hreplyTo.trans hid, hreply, ?_⟩
  intro delivered hsame hdelivered
  rw [← hsame] at hreply
  have hreports := reports_call hissued hdelivered hreply
  refine ⟨hreports.expected, ?_⟩
  intro error hfailed
  rw [hhandle, Option.some.injEq] at hfailed
  exact hreports.error (hsame.trans (herror error hfailed))

/-! ### A sample exchange -/

/-- Every payload is the empty text, and an error is what it says. -/
def sampleRequests : RequestCodec where
  marshalPing _ := .ok []
  unmarshalPing _ := .ok {}
  marshalPong _ := .ok []
  marshalStats _ := .ok []
  unmarshalStats _ := .ok {}
  marshalStartMiner _ := .ok []
  unmarshalStartMiner _ := .ok {}
  marshalStopMiner _ := .ok []
  unmarshalStopMiner _ := .ok {}
  marshalMinerAck _ := .ok []
  unmarshalMinerAck _ := .ok {}
  marshalGetLogs _ := .ok []
  unmarshalGetLogs _ := .ok {}
  marshalLogs _ := .ok []
  unmarshalLogs _ := .ok {}
  marshalError payload := payload.message
  unmarshalError data := .ok { code := errCodeOperationFailed, message := data }
  errorText
    | .op _ message => message
    | _ => []

/-- A worker with these miners, which knows none of them by name. -/
def sampleMiners (miners : List (Option MinerInstance)) : RequestWorker where
  toWorker := Worker.sampleWorker
  node := { identity := some { id := [2] } }
  startTime := 0
  minerManager := some
    { startMiner := fun _ _ => .error []
      stopMiner := fun _ => .error []
      listMiners := miners
      getMiner := fun _ => .error [] }
  getProfile := fun _ => .error []

def sampleHandling : HandleInput where
  now := 0
  replyID := [8]
  errorNow := 0
  errorID := [9]
  deploy := Worker.plainDeployment [] [] Worker.sampleEntry

def sampleConn : PeerConnection where
  peer := {}
  sharedSecret := []
  lastActivity := 0
  rateLimiter := none

/-- Node 1 asks and gets an error message back. -/
def sampleCalling : CallInput where
  node := { identity := some { id := [1] } }
  messageID := [7]
  now := 0
  received := 0
  sendRequest _ :=
    .returned { type := .error, payload := some (text "miner not found: ") }

def sampleIssued (type : MessageType) (payload : Option Bytes) : Message where
  id := [7]
  type := type
  fromNode := [1]
  toNode := [2]
  payload := payload

theorem requests_are_answered_missing_miner :
    ∃ reply, (sampleMiners []).handleMessage sampleRequests sampleHandling
        sampleConn (sampleIssued .getLogs (some [])) = .returned [reply] ∧
      reply.replyTo = [7] ∧ reply.type = .error ∧
      ∃ code message,
        RemoteRequest.call sampleRequests sampleCalling [2] (.getLogs [] 5 0) =
          .failed (.protocol code message) := by
  have hissued : RemoteRequest.issue sampleRequests sampleCalling [2]
      (.getLogs [] 5 0) = .returned (sampleIssued .getLogs (some [])) := rfl
  have hinstances : (sampleMiners []).ReturnsInstances := by
    constructor <;> simp [sampleMiners]
  have hfailed : (sampleMiners []).handle sampleRequests sampleHandling
      sampleConn (sampleIssued .getLogs (some [])) =
        some (.failed (.op "Worker.handleGetLogs" (text "miner not found: "))) :=
    rfl
  rcases requests_are_answered sampleRequests sampleCalling [2] hissued rfl rfl
    (by rfl) hinstances sampleHandling sampleConn with
    ⟨reply, hsent, hreplyTo, -, hdelivered⟩
  have htype : reply.type = .error := by
    cases hsent
    rfl
  refine ⟨reply, hsent, hreplyTo, htype, ?_⟩
  exact (hdelivered _ htype.symm rfl).2 _ hfailed

/-- A nil instance among the miners, and the worker panics over the request
before it sends anything. -/
theorem nil_miner_is_not_answered :
    RemoteRequest.issue sampleRequests sampleCalling [2] .getStats =
        .returned (sampleIssued .getStats none) ∧
      (sampleMiners [none]).node.identity.isSome ∧
      (∀ manager ∈ (sampleMiners [none]).minerManager,
        (∀ type config miner,
          manager.startMiner type config = .ok miner → miner.isSome) ∧
        ∀ name miner, manager.getMiner name = .ok miner → miner.isSome) ∧
      (sampleMiners [none]).handleMessage sampleRequests sampleHandling
        sampleConn (sampleIssued .getStats none) = .panicked := by
  refine ⟨rfl, rfl, ?_, rfl⟩
  simp [sampleMiners]

end GoP2P.Node
