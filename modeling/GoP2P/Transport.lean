import GoP2P.Binary64
import GoP2P.NodeMessage
import GoP2P.Tables

/-!
# The encrypted transport

One transport with its connections.  A pointer to a connection is its position
in `connections`, which only grows; `conns` is the map the source calls by that
name.  Everything the network, the clock and the random source contribute to a
call is an argument of it.
-/

namespace GoP2P.Node

def defaultMaxMessageSize : ℕ := 2 ^ 20

structure TransportConfig where
  maxConns : ℤ := 100
  maxMessageSize : ℤ := defaultMaxMessageSize
  deriving DecidableEq, Repr

/-! ### Rate limiting and deduplication -/

structure PeerRateLimiter where
  tokens : ℤ
  maxTokens : ℤ
  refillRate : ℤ
  lastRefill : Time
  deriving DecidableEq, Repr

def newPeerRateLimiter (now : Time) (maxTokens refillRate : ℤ) :
    PeerRateLimiter :=
  { tokens := maxTokens, maxTokens := maxTokens, refillRate := refillRate,
    lastRefill := now }

def nanosecondsPerSecond : ℤ := 10 ^ 9

/-- The whole part of `float64(sec) + float64(nsec)/1e9`, which `Duration`'s
`Seconds` computes; the sum is taken in units of `2 ^ -128`. -/
def secondsNat (ns : ℕ) : ℕ :=
  Binary64.roundNat 53 (Binary64.roundNat 53 (ns / 10 ^ 9) * 2 ^ 128 +
    Binary64.nearestQuotient 53 127 (ns % 10 ^ 9) (10 ^ 9)) / 2 ^ 128

/-- `int(elapsed.Seconds())` -/
def intSeconds (elapsed : ℤ) : ℤ := elapsed.sign * secondsNat elapsed.natAbs

/-- The whole seconds of an elapsed time, without rounding. -/
def wholeSeconds (elapsed : ℤ) : ℤ := elapsed.tdiv nanosecondsPerSecond

/-- `seconds` counts the elapsed seconds; the source does it by `intSeconds`. -/
def PeerRateLimiter.refill (r : PeerRateLimiter) (seconds : ℤ → ℤ)
    (now : Time) : PeerRateLimiter :=
  let tokensToAdd := seconds (now - r.lastRefill) * r.refillRate
  if tokensToAdd > 0 then
    { r with
      tokens := min (r.tokens + tokensToAdd) r.maxTokens
      lastRefill := now }
  else
    r

def PeerRateLimiter.allow (r : PeerRateLimiter) (seconds : ℤ → ℤ)
    (now : Time) : Bool × PeerRateLimiter :=
  let refilled := r.refill seconds now
  if refilled.tokens > 0 then
    (true, { refilled with tokens := refilled.tokens - 1 })
  else
    (false, refilled)

structure MessageDeduplicator where
  seen : Finmap (fun _ : Bytes => Time) := ∅
  ttl : ℤ

/-- An expired entry is deleted by the query that finds it. -/
def MessageDeduplicator.isDuplicate (d : MessageDeduplicator) (now : Time)
    (msgID : Bytes) : Bool × MessageDeduplicator :=
  match d.seen.lookup msgID with
  | none => (false, d)
  | some seenAt =>
      if d.ttl > 0 ∧ now - seenAt > d.ttl then
        (false, { d with seen := d.seen.erase msgID })
      else
        (true, d)

def MessageDeduplicator.mark (d : MessageDeduplicator) (now : Time)
    (msgID : Bytes) : MessageDeduplicator :=
  { d with seen := d.seen.insert msgID now }

/-- The sweep of the cleanup goroutine, once a minute. -/
def MessageDeduplicator.cleanup (d : MessageDeduplicator) (now : Time) :
    MessageDeduplicator :=
  { d with seen := sweep (fun seen => !decide (now - seen > d.ttl)) d.seen }

/-! ### Connections -/

structure PeerConnection where
  peer : Peer
  sharedSecret : Bytes
  lastActivity : Time
  rateLimiter : Option PeerRateLimiter
  closed : Bool := false
  deriving DecidableEq, Repr

def PeerConnection.markActivity (pc : PeerConnection) (instant : Time) :
    PeerConnection :=
  { pc with lastActivity := instant }

def PeerConnection.allow (pc : PeerConnection) (now : Time) :
    Bool × PeerConnection :=
  match pc.rateLimiter with
  | none => (true, pc)
  | some limiter =>
      ((limiter.allow intSeconds now).1,
        { pc with rateLimiter := some (limiter.allow intSeconds now).2 })

structure Transport where
  config : TransportConfig := {}
  node : NodeManager
  registry : PeerRegistry
  connections : List PeerConnection := []
  conns : Finmap (fun _ : Bytes => ℕ) := ∅
  pendingConns : ℤ := 0
  dedup : MessageDeduplicator
  hasHandler : Bool := false

namespace Transport

def newTransport (node : NodeManager) (registry : PeerRegistry)
    (config : TransportConfig) : Transport :=
  { config := config, node := node, registry := registry,
    dedup := { ttl := 300 * nanosecondsPerSecond } }

def readLimit (t : Transport) : ℤ :=
  if t.config.maxMessageSize ≤ 0 then defaultMaxMessageSize
  else t.config.maxMessageSize

/-- What `conn.ReadMessage` returns under a read limit, when `frame` is what
the network has for it. -/
def readMessage (limit : ℤ) (frame : Except CoreError Bytes) :
    Outcome CoreError Bytes := do
  let data ← Outcome.ofExcept frame
  if (data.length : ℤ) > limit then
    .failed (.plain (text "websocket: read limit exceeded"))
  else
    pure data

/-- A new connection for `peer`, which replaces the one stored under its ID
and marks the peer as connected. -/
def storeConnection (t : Transport) (now : Time) (pc : PeerConnection) :
    Transport :=
  { t with
    connections := t.connections ++ [pc]
    conns := t.conns.insert pc.peer.id t.connections.length
    registry := t.registry.setConnected now pc.peer.id true }

def setConnection (t : Transport) (connection : ℕ) (pc : PeerConnection) :
    Transport :=
  { t with connections := t.connections.set connection pc }

/-- `Close`, for the first time on this connection. -/
def dropConnection (t : Transport) (now : Time) (connection : ℕ) : Transport :=
  match t.connections[connection]? with
  | none => t
  | some pc =>
      { t with
        connections := t.connections.set connection { pc with closed := true }
        conns :=
          if t.conns.lookup pc.peer.id = some connection then
            t.conns.erase pc.peer.id
          else t.conns
        registry := t.registry.setConnected now pc.peer.id false }

section Inbound

variable (crypto : NodePrimitives) (codec : Codec)

/-! ### Inbound handshakes -/

structure UpgradeInput where
  upgraded : Bool := true
  frame : Except CoreError Bytes
  now : Time
  messageID : Bytes
  written : Bool := true

/-- What one call of `handleWSUpgrade` did.  `signed` is the handshake whose
challenge it signed, with the shared secret the key came from; `connection` is
the connection it stored, when it accepted the peer. -/
structure UpgradeResult where
  transport : Transport
  written : List Bytes := []
  signed : Option (HandshakePayload × Bytes) := none
  connection : Option ℕ := none

def rejection (t : Transport) (input : UpgradeInput)
    (payload : HandshakePayload) (reason : Bytes) : List Bytes :=
  match t.node.identity with
  | none => []
  | some identity =>
      let ack : HandshakeAckPayload :=
        { identity := identity, accepted := false, reason := reason }
      match newMessage input.messageID input.now .handshakeAck identity.id
          payload.identity.id (codec.marshalAck ack) with
      | .returned rejectMsg =>
          match codec.marshalMessage rejectMsg with
          | .ok rejectData => [rejectData]
          | .error _ => []
      | _ => []

def incompatibleVersion (version : Bytes) : Bytes :=
  text "incompatible protocol version " ++ version ++ text ", supported: [" ++
    (supportedProtocolVersions.intersperse (text " ")).flatten ++ text "]"

/-- The registered peer with the claimed ID, or a new one made from the
claimed identity and added to the registry; whether the registry took it is
not looked at. -/
def findOrRegister (registry : PeerRegistry) (now : Time)
    (identity : NodeIdentity) : Peer × PeerRegistry :=
  match registry.getPeer identity.id with
  | some peer => (peer, registry)
  | none =>
      let peer : Peer :=
        { id := identity.id, name := identity.name,
          publicKey := identity.publicKey, role := identity.role,
          addedAt := now, score := 50 }
      match registry.addPeer now peer with
      | .returned added => (peer, added)
      | _ => (peer, registry)

def challengeResponse (challenge sharedSecret : Bytes) :
    Outcome CoreError Bytes :=
  if challenge.length > 0 then do
    let subKeys ← deriveSubKeys crypto sharedSecret
    pure (signChallenge crypto challenge subKeys.chlKey)
  else
    .returned []

/-- The tail of `handleWSUpgrade`, from the point where the peer is allowed. -/
def acceptHandshake (t : Transport) (input : UpgradeInput)
    (payload : HandshakePayload) (sharedSecret : Bytes) : UpgradeResult :=
  let found := findOrRegister t.registry input.now payload.identity
  let t := { t with registry := found.2 }
  match t.node.identity with
  | none => { transport := t }
  | some identity =>
      match challengeResponse crypto payload.challenge sharedSecret with
      | .returned response =>
          let signed :=
            if payload.challenge.length > 0 then some (payload, sharedSecret)
            else none
          let ack : HandshakeAckPayload :=
            { identity := identity, challengeResponse := response,
              accepted := true }
          let ackData := do
            let ackMsg ← newMessage input.messageID input.now .handshakeAck
              identity.id found.1.id (codec.marshalAck ack)
            .ofExcept (codec.marshalMessage ackMsg)
          match ackData with
          | .returned data =>
              if !input.written then
                { transport := t, signed := signed }
              else
                let pc : PeerConnection :=
                  { peer := found.1, sharedSecret := sharedSecret,
                    lastActivity := input.now,
                    rateLimiter := some (newPeerRateLimiter input.now 100 50) }
                { transport := t.storeConnection input.now pc
                  written := [data]
                  signed := signed
                  connection := some t.connections.length }
          | _ => { transport := t, signed := signed }
      | _ => { transport := t }

def answerHandshake (t : Transport) (input : UpgradeInput)
    (payload : HandshakePayload) : UpgradeResult :=
  if !isProtocolVersionSupported payload.version then
    { transport := t
      written := t.rejection codec input payload
        (incompatibleVersion payload.version) }
  else
    match t.node.deriveSharedSecret crypto payload.identity.publicKey with
    | .returned sharedSecret =>
        if !t.registry.isPeerAllowed payload.identity.id
            payload.identity.publicKey then
          { transport := t
            written := t.rejection codec input payload
              (text "peer not authorized") }
        else
          t.acceptHandshake crypto codec input payload sharedSecret
    | _ => { transport := t }

def presentedHandshake (t : Transport) (input : UpgradeInput) :
    Option HandshakePayload :=
  let received := do
    let data ← readMessage t.readLimit input.frame
    .ofExcept (codec.decodeMessageJSON data)
  match received with
  | .returned msg =>
      if msg.type ≠ .handshake then
        none
      else
        match msg.parsePayload {} codec.unmarshalHandshake with
        | .returned payload => some payload
        | _ => none
  | _ => none

def handleWSUpgrade (t : Transport) (input : UpgradeInput) : UpgradeResult :=
  if (t.conns.keys.card : ℤ) + t.pendingConns ≥ t.config.maxConns then
    { transport := t }
  else if !input.upgraded then
    { transport := t }
  else
    match t.presentedHandshake codec input with
    | some payload => t.answerHandshake crypto codec input payload
    | none => { transport := t }

end Inbound

section Outbound

variable (crypto : NodePrimitives) (codec : Codec)

/-! ### Outbound handshakes -/

structure ConnectInput where
  dialed : Except CoreError Unit := .ok ()
  /-- What `rand.Read` put into the challenge. -/
  random : Except CoreError (List.Vector UInt8 challengeSize)
  now : Time
  messageID : Bytes
  written : Except CoreError Unit := .ok ()

def performHandshakeError (message : String) : CoreError → CoreError :=
  .wrap "Transport.performHandshake" (text message)

def generateChallenge
    (random : Except CoreError (List.Vector UInt8 challengeSize)) :
    Outcome CoreError Bytes := do
  let challenge ← (Outcome.ofExcept random).mapError
    (.wrap "GenerateChallenge" (text "failed to generate challenge"))
  pure challenge.toList

/-- `performHandshake` up to the point where it waits: the challenge and the
frame it wrote. -/
def sendHandshake (t : Transport) (peer : Peer) (input : ConnectInput) :
    Outcome CoreError (Bytes × Bytes) :=
  match t.node.identity with
  | none => .failed errIdentityNotInitialized
  | some identity => do
      let challenge ← (generateChallenge input.random).mapError
        (performHandshakeError "generate challenge")
      let payload : HandshakePayload :=
        { identity := identity, challenge := challenge,
          version := protocolVersion }
      let msg ← (newMessage input.messageID input.now .handshake identity.id
        peer.id (codec.marshalHandshake payload)).mapError
          (performHandshakeError "create handshake message")
      let data ← (Outcome.ofExcept (codec.marshalMessage msg)).mapError
        (performHandshakeError "marshal handshake message")
      (Outcome.ofExcept input.written).mapError
        (performHandshakeError "send handshake")
      pure (challenge, data)

def startConnect (t : Transport) (peer : Peer) (input : ConnectInput) :
    Outcome CoreError (Bytes × Bytes) := do
  (Outcome.ofExcept input.dialed).mapError
    (.wrap "Transport.Connect" (text "failed to connect to peer"))
  (t.sendHandshake codec peer input).mapError
    (.wrap "Transport.Connect" (text "handshake failed"))

def readHandshakeAck (frame : Except CoreError Bytes) :
    Outcome CoreError HandshakeAckPayload := do
  let ackData ← (Outcome.ofExcept frame).mapError
    (performHandshakeError "read handshake ack")
  let ackMsg ← (Outcome.ofExcept (codec.decodeMessageJSON ackData)).mapError
    (performHandshakeError "unmarshal handshake ack")
  if ackMsg.type ≠ .handshakeAck then
    .failed (.op "Transport.performHandshake"
      (text "expected handshake_ack, got " ++ ackMsg.type.name))
  else
    let ackPayload ← (ackMsg.parsePayload {} codec.unmarshalAck).mapError
      (performHandshakeError "parse handshake ack payload")
    if !ackPayload.accepted then
      .failed (.op "Transport.performHandshake"
        (text "handshake rejected: " ++ ackPayload.reason))
    else
      pure ackPayload

def verifyHandshakeAck (node : NodeManager) (challenge : Bytes)
    (ackPayload : HandshakeAckPayload) : Outcome CoreError Bytes := do
  let sharedSecret ←
    (node.deriveSharedSecret crypto ackPayload.identity.publicKey).mapError
      (performHandshakeError
        "derive shared secret for challenge verification")
  let subKeys ← (deriveSubKeys crypto sharedSecret).mapError
    (performHandshakeError "derive handshake subkeys")
  if ackPayload.challengeResponse.length = 0 then
    .failed (.op "Transport.performHandshake"
      (text "server did not provide challenge response"))
  else if !verifyChallenge crypto challenge ackPayload.challengeResponse
      subKeys.chlKey then
    .failed (.op "Transport.performHandshake"
      (text "challenge response verification failed: server may not have matching private key"))
  else
    pure sharedSecret

def adoptIdentity (peer : Peer) (identity : NodeIdentity) : Peer :=
  { peer with
    id := identity.id, publicKey := identity.publicKey,
    name := identity.name, role := identity.role }

def recordPeer (registry : PeerRegistry) (now : Time) (peer : Peer) :
    PeerRegistry :=
  match registry.updatePeer peer with
  | .returned updated => updated
  | _ =>
      match registry.addPeer now peer with
      | .returned added => added
      | _ => registry

/-- What `Connect` did after the ack: the peer it was called with is changed
even when the handshake then fails. -/
structure ConnectResult where
  transport : Transport
  peer : Peer
  connection : Outcome CoreError ℕ
  /-- The key of the ack identity, when the response was verified. -/
  verified : Option Bytes := none

/-- `Connect` and `performHandshake` from the ack on. -/
def completeConnect (t : Transport) (peer : Peer) (challenge : Bytes)
    (now : Time) (frame : Except CoreError Bytes) : ConnectResult :=
  let failure := CoreError.wrap "Transport.Connect" (text "handshake failed")
  match (readHandshakeAck codec frame).mapError failure with
  | .returned ackPayload =>
      let peer := adoptIdentity peer ackPayload.identity
      match (verifyHandshakeAck crypto t.node challenge ackPayload).mapError
          failure with
      | .returned sharedSecret =>
          let t := { t with registry := recordPeer t.registry now peer }
          let pc : PeerConnection :=
            { peer := peer, sharedSecret := sharedSecret, lastActivity := now,
              rateLimiter := some (newPeerRateLimiter now 100 50) }
          { transport := t.storeConnection now pc
            peer := peer
            connection := .returned t.connections.length
            verified := some ackPayload.identity.publicKey }
      | .failed error =>
          { transport := t, peer := peer, connection := .failed error }
      | .panicked => { transport := t, peer := peer, connection := .panicked }
      | .unfinished =>
          { transport := t, peer := peer, connection := .unfinished }
  | .failed error =>
      { transport := t, peer := peer, connection := .failed error }
  | .panicked => { transport := t, peer := peer, connection := .panicked }
  | .unfinished => { transport := t, peer := peer, connection := .unfinished }

end Outbound

section Established

variable (crypto : NodePrimitives) (codec : Codec)

/-! ### Established connections -/

structure SendInput where
  nonce : Except CoreError (List.Vector UInt8 aeadNonceSize)
  deadline : Except CoreError Unit := .ok ()
  written : Except CoreError Unit := .ok ()
  now : Time

/-- What a call of `Send` did; `frame` is what it encrypted, also when writing
it then failed. -/
structure SendResult where
  transport : Transport
  frame : Option Bytes := none
  result : Outcome CoreError Unit

def send (t : Transport) (connection : ℕ) (msg : Message)
    (input : SendInput) : SendResult :=
  match t.connections[connection]? with
  | none => { transport := t, result := .panicked }
  | some pc =>
      match encryptMessage crypto codec msg pc.sharedSecret input.nonce with
      | .returned data =>
          let writing : Outcome CoreError Unit := do
            (Outcome.ofExcept input.deadline).mapError
              (.wrap "PeerConnection.Send"
                (text "failed to set write deadline"))
            .ofExcept input.written
          match writing with
          | .returned _ =>
              { transport :=
                  t.setConnection connection (pc.markActivity input.now)
                frame := some data
                result := .returned () }
          | other => { transport := t, frame := some data, result := other }
      | .failed error => { transport := t, result := .failed error }
      | .panicked => { transport := t, result := .panicked }
      | .unfinished => { transport := t, result := .unfinished }

/-- `Transport.Send`, by peer ID. -/
def sendToPeer (t : Transport) (peerID : Bytes) (msg : Message)
    (input : SendInput) : SendResult :=
  match t.conns.lookup peerID with
  | none =>
      { transport := t
        result := .failed (.op "Transport.Send"
          (text "peer " ++ peerID ++ text " not connected")) }
  | some connection => t.send crypto codec connection msg input

/-- What one turn of `readLoop` did; `handled` is the message it passed to the
handler. -/
structure ReadResult where
  transport : Transport
  handled : Option Message := none

def dispatch (t : Transport) (now : Time) (msg : Message) : ReadResult :=
  let checked := t.dedup.isDuplicate now msg.id
  if checked.1 then
    { transport := { t with dedup := checked.2 } }
  else
    { transport := { t with dedup := checked.2.mark now msg.id }
      handled := if t.hasHandler then some msg else none }

/-- One turn of `readLoop` on a connection.  A failed read ends the loop and
closes the connection; a limited or undecryptable frame is skipped. -/
def readLoopTurn (t : Transport) (connection : ℕ) (now : Time)
    (frame : Except CoreError Bytes) : ReadResult :=
  match t.connections[connection]? with
  | none => { transport := t }
  | some pc =>
      if pc.closed then
        { transport := t }
      else
        match readMessage t.readLimit frame with
        | .returned data =>
            let admitted := (pc.markActivity now).allow now
            let t := t.setConnection connection admitted.2
            if !admitted.1 then
              { transport := t }
            else
              match decryptMessage crypto codec data pc.sharedSecret with
              | .returned msg => t.dispatch now msg
              | _ => { transport := t }
        | _ => { transport := t.dropConnection now connection }

end Established

end Transport

end GoP2P.Node
