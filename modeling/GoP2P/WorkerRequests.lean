import GoP2P.WorkerDeploy

/-!
# Requests on a worker

`HandleMessage` runs the handler for the type of a message and sends one
message back: the reply, or the text of the error.  The miner and the profile
manager are plug-ins; what they return to the calls of one request is given as
a function or a list.  An instance is an interface value and may be nil, and a
method call on nil panics.

A float is given by its bits.
-/

namespace GoP2P.Node

def errMinerManagerNotConfigured : CoreError :=
  .op "node" (text "miner manager not configured")

def nanosecondsPerMillisecond : ℤ := 10 ^ 6

/-- The start of Unix time, from the zero time on. -/
def unixEpoch : Time := 62135596800 * nanosecondsPerSecond

def unixMilli (t : Time) : ℤ := (t - unixEpoch) / nanosecondsPerMillisecond

def ofUnixMilli (milliseconds : ℤ) : Time :=
  unixEpoch + milliseconds * nanosecondsPerMillisecond

/-! ### Payloads -/

structure PingPayload where
  sentAt : ℤ := 0
  deriving DecidableEq, Repr

structure PongPayload where
  sentAt : ℤ
  receivedAt : ℤ
  deriving DecidableEq, Repr

/-- A nil `Config` is `none`. -/
structure StartMinerPayload where
  minerType : Bytes := []
  profileID : Bytes := []
  config : Option Bytes := none
  deriving DecidableEq, Repr

structure StopMinerPayload where
  minerName : Bytes := []
  deriving DecidableEq, Repr

structure MinerAckPayload where
  success : Bool := false
  name : Bytes := []
  minerName : Bytes := []
  error : Bytes := []
  deriving DecidableEq, Repr

structure MinerStatsItem where
  name : Bytes
  type : Bytes
  isRunning : Bool := false
  hashrate : BitVec 64 := 0
  sharedCount : ℤ := 0
  invalidCount : ℤ := 0
  temperature : BitVec 64 := 0
  uptime : ℤ := 0
  shares : ℤ := 0
  rejected : ℤ := 0
  pool : Bytes := []
  algorithm : Bytes := []
  cpuThreads : ℤ := 0
  deriving DecidableEq, Repr

structure StatsPayload where
  nodeID : Bytes := []
  nodeName : Bytes := []
  miners : List MinerStatsItem := []
  uptime : ℤ := 0
  deriving DecidableEq, Repr

structure GetLogsPayload where
  minerName : Bytes := []
  lines : ℤ := 0
  since : ℤ := 0
  deriving DecidableEq, Repr

structure LogsPayload where
  minerName : Bytes := []
  lines : List Bytes := []
  hasMore : Bool := false
  deriving DecidableEq, Repr

structure ErrorPayload where
  code : ℤ := 0
  message : Bytes := []
  details : Bytes := []
  deriving DecidableEq, Repr

def errCodeUnknown : ℤ := 0
def errCodeOperationFailed : ℤ := 4

/-- The encoder and decoder for the payloads of requests and replies, and the
text of an error.  An encoder fails on a float that is not a number;
`ErrorPayload` has only an integer and strings, and encoding it cannot fail. -/
structure RequestCodec where
  marshalPing : PingPayload → Except CoreError Bytes
  unmarshalPing : Bytes → Except CoreError PingPayload
  marshalPong : PongPayload → Except CoreError Bytes
  marshalStats : StatsPayload → Except CoreError Bytes
  unmarshalStats : Bytes → Except CoreError StatsPayload
  marshalStartMiner : StartMinerPayload → Except CoreError Bytes
  unmarshalStartMiner : Bytes → Except CoreError StartMinerPayload
  marshalStopMiner : StopMinerPayload → Except CoreError Bytes
  unmarshalStopMiner : Bytes → Except CoreError StopMinerPayload
  marshalMinerAck : MinerAckPayload → Except CoreError Bytes
  unmarshalMinerAck : Bytes → Except CoreError MinerAckPayload
  marshalGetLogs : GetLogsPayload → Except CoreError Bytes
  unmarshalGetLogs : Bytes → Except CoreError GetLogsPayload
  marshalLogs : LogsPayload → Except CoreError Bytes
  unmarshalLogs : Bytes → Except CoreError LogsPayload
  marshalError : ErrorPayload → Bytes
  unmarshalError : Bytes → Except CoreError ErrorPayload
  errorText : CoreError → Bytes

def newErrorMessage (codec : RequestCodec) (id : Bytes) (now : Time)
    (fromNode toNode : Bytes) (code : ℤ) (message replyTo : Bytes) :
    Outcome CoreError Message := do
  let msg ← newMessage id now .error fromNode toNode
    (.ok (codec.marshalError { code := code, message := message }))
  pure { msg with replyTo := replyTo }

/-! ### Miners -/

/-- A value in the map that `GetStats` returns. -/
inductive StatValue where
  | float (bits : BitVec 64)
  | int (value : ℤ)
  | int64 (value : ℤ)
  | string (value : Bytes)
  | bool (value : Bool)
  | other

/-- What `GetStats` returns; `none` when it is not a map. -/
abbrev RawStats := Option (Bytes → Option StatValue)

/-- Errors of the plug-ins are given by their text.  A miner that has no
`GetConsoleHistorySince` has `none` there. -/
structure MinerInstance where
  name : Bytes
  type : Bytes
  stats : Except Bytes RawStats
  consoleHistory : ℤ → List Bytes
  consoleHistorySince : Option (ℤ → Time → List Bytes) := none

/-- The `config` argument of `StartMiner`. -/
inductive MinerConfig where
  | given (config : Bytes)
  | profile (profile : Bytes)

/-- A nil instance is `none`. -/
structure MinerManager where
  startMiner : Bytes → MinerConfig → Except Bytes (Option MinerInstance)
  stopMiner : Bytes → Except Bytes Unit
  listMiners : List (Option MinerInstance)
  getMiner : Bytes → Except Bytes (Option MinerInstance)

def convertMinerStats (miner : MinerInstance) (rawStats : RawStats) :
    MinerStatsItem :=
  let item : MinerStatsItem :=
    { name := miner.name, type := miner.type, isRunning := true }
  match rawStats with
  | none => item
  | some statsMap =>
      let item :=
        match statsMap (text "hashrate") with
        | some (.float hashrate) => { item with hashrate := hashrate }
        | _ => item
      let item :=
        match statsMap (text "shares") with
        | some (.int shares) => { item with sharedCount := shares, shares := shares }
        | _ => item
      let item :=
        match statsMap (text "sharedCount") with
        | some (.int shares) => { item with sharedCount := shares, shares := shares }
        | _ => item
      let item :=
        match statsMap (text "rejected") with
        | some (.int rejected) =>
            { item with invalidCount := rejected, rejected := rejected }
        | _ => item
      let item :=
        match statsMap (text "invalid") with
        | some (.int invalid) =>
            { item with invalidCount := invalid, rejected := invalid }
        | _ => item
      let item :=
        match statsMap (text "uptime") with
        | some (.int uptime) | some (.int64 uptime) => { item with uptime := uptime }
        | _ => item
      let item :=
        match statsMap (text "pool") with
        | some (.string pool) => { item with pool := pool }
        | _ => item
      let item :=
        match statsMap (text "algorithm") with
        | some (.string algorithm) => { item with algorithm := algorithm }
        | _ => item
      let item :=
        match statsMap (text "temp") with
        | some (.float temp) => { item with temperature := temp }
        | _ => item
      let item :=
        match statsMap (text "temperature") with
        | some (.float temp) => { item with temperature := temp }
        | _ => item
      match statsMap (text "running") with
      | some (.bool running) => { item with isRunning := running }
      | _ => item

/-- The loop of `handleGetStats`; a miner whose statistics fail is left out. -/
def minerStats : List (Option MinerInstance) →
    Outcome CoreError (List MinerStatsItem)
  | [] => .returned []
  | none :: _ => .panicked
  | some miner :: rest => do
      let items ← minerStats rest
      match miner.stats with
      | .error _ => pure items
      | .ok stats => pure (convertMinerStats miner stats :: items)

def getMinerConsoleHistory (miner : Option MinerInstance) (lines : ℤ)
    (since : Time) : Outcome CoreError (List Bytes) :=
  match miner with
  | none => .panicked
  | some miner =>
      if since = 0 then
        .returned (miner.consoleHistory lines)
      else
        match miner.consoleHistorySince with
        | some history => .returned (history lines since)
        | none => .returned (miner.consoleHistory lines)

/-! ### The handlers -/

/-- A worker with all of its fields; `getProfile` is that of the profile
manager, if there is one. -/
structure RequestWorker extends Worker where
  node : NodeManager
  startTime : Time
  minerManager : Option MinerManager
  getProfile : Bytes → Except Bytes Bytes

/-- What the clock and `uuid.New` give to one call of `HandleMessage`, and what
a deployment meets. -/
structure HandleInput where
  now : Time
  replyID : Bytes
  errorNow : Time
  errorID : Bytes
  deploy : Worker.DeployInput

namespace RequestWorker

section

variable (w : RequestWorker) (codec : RequestCodec) (input : HandleInput)

def reply (msg : Message) (type : MessageType)
    (payload : Except CoreError Bytes) : Outcome CoreError Message :=
  msg.reply input.replyID input.now type payload

def handlePing (msg : Message) : Outcome CoreError Message := do
  let ping ← (msg.parsePayload {} codec.unmarshalPing).mapError
    (.wrap "Worker.handlePing" (text "invalid ping payload"))
  reply input msg .pong (codec.marshalPong
    { sentAt := ping.sentAt, receivedAt := unixMilli input.now })

/-- Without a miner manager there are no miners. -/
def listStats : Outcome CoreError (List MinerStatsItem) :=
  match w.minerManager with
  | none => .returned []
  | some manager => minerStats manager.listMiners

def handleGetStats (msg : Message) : Outcome CoreError Message :=
  match w.node.identity with
  | none => .failed errIdentityNotInitialized
  | some identity => do
      let miners ← w.listStats
      reply input msg .stats (codec.marshalStats
        { nodeID := identity.id, nodeName := identity.name, miners := miners
          uptime := (input.now - w.startTime).tdiv nanosecondsPerSecond })

/-- The config that a miner is started with. -/
def minerConfig (payload : StartMinerPayload) : Outcome CoreError MinerConfig :=
  match payload.config with
  | some config => .returned (.given config)
  | none =>
      if w.profileManager.isSome then
        match w.getProfile payload.profileID with
        | .ok profile => .returned (.profile profile)
        | .error _ =>
            .failed (.op "Worker.handleStartMiner"
              (text "profile not found: " ++ payload.profileID))
      else
        .failed (.op "Worker.handleStartMiner"
          (text "no config provided and no profile manager configured"))

def handleStartMiner (msg : Message) : Outcome CoreError Message :=
  match w.minerManager with
  | none => .failed errMinerManagerNotConfigured
  | some manager => do
      let payload ← (msg.parsePayload {} codec.unmarshalStartMiner).mapError
        (.wrap "Worker.handleStartMiner" (text "invalid start miner payload"))
      if payload.minerType = [] then
        .failed (.op "Worker.handleStartMiner" (text "miner type is required"))
      else
        let config ← w.minerConfig payload
        match manager.startMiner payload.minerType config with
        | .error err =>
            reply input msg .minerAck (codec.marshalMinerAck
              { success := false, error := err })
        | .ok none => .panicked
        | .ok (some miner) =>
            reply input msg .minerAck (codec.marshalMinerAck
              { success := true, name := miner.name, minerName := miner.name })

def handleStopMiner (msg : Message) : Outcome CoreError Message :=
  match w.minerManager with
  | none => .failed errMinerManagerNotConfigured
  | some manager => do
      let payload ← (msg.parsePayload {} codec.unmarshalStopMiner).mapError
        (.wrap "Worker.handleStopMiner" (text "invalid stop miner payload"))
      let ack : MinerAckPayload :=
        { name := payload.minerName, minerName := payload.minerName }
      reply input msg .minerAck (codec.marshalMinerAck
        (match manager.stopMiner payload.minerName with
          | .ok _ => { ack with success := true }
          | .error err => { ack with success := false, error := err }))

def maxLogLines : ℤ := 10000

def handleGetLogs (msg : Message) : Outcome CoreError Message :=
  match w.minerManager with
  | none => .failed errMinerManagerNotConfigured
  | some manager => do
      let payload ← (msg.parsePayload {} codec.unmarshalGetLogs).mapError
        (.wrap "Worker.handleGetLogs" (text "invalid get logs payload"))
      let maxLines :=
        if payload.lines ≤ 0 ∨ payload.lines > maxLogLines then maxLogLines
        else payload.lines
      match manager.getMiner payload.minerName with
      | .error _ =>
          .failed (.op "Worker.handleGetLogs"
            (text "miner not found: " ++ payload.minerName))
      | .ok miner =>
          let since := if payload.since > 0 then ofUnixMilli payload.since else 0
          let lines ← getMinerConsoleHistory miner maxLines since
          reply input msg .logs (codec.marshalLogs
            { minerName := payload.minerName, lines := lines
              hasMore := decide ((lines.length : ℤ) ≥ maxLines) })

/-- The handler for the type of the message, if it has one. -/
def handle (conn : PeerConnection) (msg : Message) :
    Option (Outcome CoreError Message) :=
  match msg.type with
  | .ping => some (handlePing codec input msg)
  | .getStats => some (w.handleGetStats codec input msg)
  | .startMiner => some (w.handleStartMiner codec input msg)
  | .stopMiner => some (w.handleStopMiner codec input msg)
  | .getLogs => some (w.handleGetLogs codec input msg)
  | .deploy =>
      some (Worker.handleDeploy w.toWorker input.deploy (some conn) msg).outcome
  | _ => none

/-- The messages that are passed to `Send` on the connection, in their order. -/
def handleMessage (conn : PeerConnection) (msg : Message) :
    Outcome CoreError (List Message) :=
  match w.handle codec input conn msg with
  | none => .returned []
  | some (.returned response) => .returned [response]
  | some (.failed error) =>
      match w.node.identity with
      | none => .returned []
      | some identity =>
          match newErrorMessage codec input.errorID input.errorNow identity.id
              msg.fromNode errCodeOperationFailed (codec.errorText error)
              msg.id with
          | .returned errMsg => .returned [errMsg]
          | _ => .returned []
  | some .panicked => .panicked
  | some .unfinished => .unfinished

end

/-! ### What the handlers answer -/

section

variable {w : RequestWorker} {codec : RequestCodec} {input : HandleInput}
  {msg : Message} {type : MessageType}

/-- The handler comes back, and its reply is of this type and to this
message. -/
structure Answers (msg : Message) (type : MessageType)
    (outcome : Outcome CoreError Message) : Prop where
  ends : outcome.Ends
  reply : ∀ reply, outcome = .returned reply →
    reply.type = type ∧ reply.replyTo = msg.id

theorem answers_failed (error : CoreError) : Answers msg type (.failed error) := by
  refine ⟨.inr ⟨error, rfl⟩, ?_⟩
  intro reply hreply
  cases hreply

theorem answers_reply (payload : Except CoreError Bytes) :
    Answers msg type (reply input msg type payload) := by
  cases payload with
  | error error => exact answers_failed error
  | ok data =>
      refine ⟨.inl ⟨_, rfl⟩, ?_⟩
      intro reply hreply
      cases hreply
      exact ⟨rfl, rfl⟩

theorem answers_bind {α : Type} {first : Outcome CoreError α}
    {next : α → Outcome CoreError Message} (hends : first.Ends)
    (hnext : ∀ value, Answers msg type (next value)) :
    Answers msg type (first >>= next) := by
  rcases hends with ⟨value, rfl⟩ | ⟨error, rfl⟩
  · exact hnext value
  · exact answers_failed error

theorem parsePayload_ends {α : Type} (zero : α)
    (unmarshal : Bytes → Except CoreError α) :
    (msg.parsePayload zero unmarshal).Ends := by
  unfold Message.parsePayload
  split
  · exact .inl ⟨zero, rfl⟩
  next data _ =>
    cases hdata : unmarshal data with
    | ok value => exact .inl ⟨value, rfl⟩
    | error error => exact .inr ⟨error, rfl⟩

/-- A handler that parses the payload first answers if it does so from there. -/
theorem answers_parsed {α : Type} {zero : α}
    {unmarshal : Bytes → Except CoreError α} {wrap : CoreError → CoreError}
    {next : α → Outcome CoreError Message}
    (hnext : ∀ payload, Answers msg type (next payload)) :
    Answers msg type
      ((msg.parsePayload zero unmarshal).mapError wrap >>= next) := by
  apply answers_bind _ hnext
  rw [Outcome.ends_mapError_iff]
  exact parsePayload_ends zero unmarshal

/-- Every instance that the miner manager returns is one. -/
structure ReturnsInstances (w : RequestWorker) : Prop where
  startMiner : ∀ manager ∈ w.minerManager, ∀ type config miner,
    manager.startMiner type config = .ok miner → miner.isSome
  getMiner : ∀ manager ∈ w.minerManager, ∀ name miner,
    manager.getMiner name = .ok miner → miner.isSome
  listMiners : ∀ manager ∈ w.minerManager, ∀ miner ∈ manager.listMiners,
    miner.isSome

theorem minerStats_ends {miners : List (Option MinerInstance)}
    (hminers : ∀ miner ∈ miners, miner.isSome) : (minerStats miners).Ends := by
  induction miners with
  | nil => exact .inl ⟨[], rfl⟩
  | cons miner rest ih =>
      have hrest := ih fun other hother => hminers other (by simp [hother])
      cases miner with
      | none => exact absurd (hminers none (by simp)) (by simp)
      | some miner =>
          apply Outcome.ends_bind hrest
          intro items _
          split <;> exact .inl ⟨_, rfl⟩

theorem listStats_ends (hinstances : w.ReturnsInstances) : w.listStats.Ends := by
  unfold listStats
  split
  · exact .inl ⟨[], rfl⟩
  next manager hmanager =>
    exact minerStats_ends (hinstances.listMiners manager hmanager)

theorem answers_handlePing : Answers msg .pong (handlePing codec input msg) := by
  apply answers_parsed
  intro ping
  exact answers_reply _

theorem answers_handleGetStats (hinstances : w.ReturnsInstances) :
    Answers msg .stats (w.handleGetStats codec input msg) := by
  unfold handleGetStats
  split
  · exact answers_failed _
  · apply answers_bind (listStats_ends hinstances)
    intro miners
    exact answers_reply _

theorem minerConfig_ends (payload : StartMinerPayload) :
    (w.minerConfig payload).Ends := by
  unfold minerConfig
  split
  · exact .inl ⟨_, rfl⟩
  · split_ifs
    · split
      · exact .inl ⟨_, rfl⟩
      · exact .inr ⟨_, rfl⟩
    · exact .inr ⟨_, rfl⟩

theorem answers_handleStartMiner (hinstances : w.ReturnsInstances) :
    Answers msg .minerAck (w.handleStartMiner codec input msg) := by
  unfold handleStartMiner
  split
  · exact answers_failed _
  next manager hmanager =>
    apply answers_parsed
    intro payload
    split_ifs
    · exact answers_failed _
    · apply answers_bind (minerConfig_ends payload)
      intro config
      split
      · exact answers_reply _
      next hnil =>
        have hsome := hinstances.startMiner manager hmanager _ _ _ hnil
        cases hsome
      · exact answers_reply _

theorem answers_handleStopMiner :
    Answers msg .minerAck (w.handleStopMiner codec input msg) := by
  unfold handleStopMiner
  split
  · exact answers_failed _
  · apply answers_parsed
    intro payload
    exact answers_reply _

theorem getMinerConsoleHistory_ends (miner : MinerInstance) (lines : ℤ)
    (since : Time) :
    (getMinerConsoleHistory (some miner) lines since).Ends := by
  unfold getMinerConsoleHistory
  dsimp only
  split_ifs
  · exact .inl ⟨_, rfl⟩
  · split <;> exact .inl ⟨_, rfl⟩

theorem answers_handleGetLogs (hinstances : w.ReturnsInstances) :
    Answers msg .logs (w.handleGetLogs codec input msg) := by
  unfold handleGetLogs
  split
  · exact answers_failed _
  next manager hmanager =>
    apply answers_parsed
    intro payload
    dsimp only
    split
    · exact answers_failed _
    next miner hminer =>
      have hsome := hinstances.getMiner manager hmanager _ _ hminer
      rcases Option.isSome_iff_exists.mp hsome with ⟨found, rfl⟩
      apply answers_bind (getMinerConsoleHistory_ends found _ _)
      intro lines
      exact answers_reply _

/-- The message that goes back: the reply of the handler, or its error. -/
theorem handleMessage_sends_one (hidentity : w.node.identity.isSome)
    {conn : PeerConnection} {outcome : Outcome CoreError Message}
    (hhandle : w.handle codec input conn msg = some outcome)
    (hanswers : Answers msg type outcome) :
    ∃ reply, w.handleMessage codec input conn msg = .returned [reply] ∧
      reply.replyTo = msg.id ∧ (reply.type = type ∨ reply.type = .error) ∧
      ∀ error, outcome = .failed error → reply.type = .error := by
  unfold handleMessage
  rw [hhandle]
  rcases hanswers.ends with ⟨reply, rfl⟩ | ⟨error, rfl⟩
  · rcases hanswers.reply reply rfl with ⟨htype, hreplyTo⟩
    refine ⟨reply, rfl, hreplyTo, .inl htype, ?_⟩
    intro error herror
    cases herror
  · rcases Option.isSome_iff_exists.mp hidentity with ⟨identity, hidentity⟩
    rw [hidentity]
    refine ⟨_, rfl, rfl, .inr rfl, ?_⟩
    intro _ _
    rfl

end

end RequestWorker

end GoP2P.Node
