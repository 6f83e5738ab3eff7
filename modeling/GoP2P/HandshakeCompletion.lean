import GoP2P.HandshakeWire
import GoP2P.PeerOperations

/-!
# Handshakes that complete

Two nodes that derive the same secret exchange a handshake and its ack over a
wire that carries both.  If the server allows the client, both end up with a
connection under the other's ID and that secret; if not, the client is told
so, and neither stores anything.
-/

namespace GoP2P.Node

open Transport

/-! ## One exchange -/

/-- A call of `Connect` and the call of `handleWSUpgrade` that receives its
handshake. -/
structure Exchange where
  client : Transport
  server : Transport
  clientIdentity : NodeIdentity
  serverIdentity : NodeIdentity
  /-- The peer that `Connect` was called with. -/
  peer : Peer
  connect : ConnectInput
  challenge : Bytes
  handshake : Bytes
  upgrade : UpgradeInput
  secret : Bytes
  subKeys : TransportSubKeys

section

variable (crypto : NodePrimitives) (printer : FloatPrinter) (times : TimeText)
  (jsonError : Bytes → CoreError)

/-- Both nodes have their own identity and the same secret, no name or ID spells
an escape, the client wrote its handshake, and the server has room for it, reads
all of it and can write an answer. -/
structure Exchange.Honest (e : Exchange) : Prop where
  client : e.client.node.identity = some e.clientIdentity
  server : e.server.node.identity = some e.serverIdentity
  clientIntact : e.clientIdentity.Intact times
  serverIntact : e.serverIdentity.Intact times
  clientSecret : e.client.node.deriveSharedSecret crypto
    e.serverIdentity.publicKey = .returned e.secret
  serverSecret : e.server.node.deriveSharedSecret crypto
    e.clientIdentity.publicKey = .returned e.secret
  subKeys : deriveSubKeys crypto e.secret = .returned e.subKeys
  /-- A MAC is never empty. -/
  response : signChallenge crypto e.challenge e.subKeys.chlKey ≠ []
  connectID : SpellsNoEscape (decodeText e.connect.messageID)
  peerID : SpellsNoEscape (decodeText e.peer.id)
  started : e.client.startConnect (nodeCodec printer times jsonError) e.peer
    e.connect = .returned (e.challenge, e.handshake)
  keyed : e.server.registry.Keyed
  room : (e.server.conns.keys.card : ℤ) + e.server.pendingConns <
    e.server.config.maxConns
  upgraded : e.upgrade.upgraded = true
  received : e.upgrade.frame = .ok e.handshake
  size : (e.handshake.length : ℤ) ≤ e.server.readLimit
  upgradeID : SpellsNoEscape (decodeText e.upgrade.messageID)
  answered : ∃ timestamp, times.format e.upgrade.now = .ok timestamp
  written : e.upgrade.written = true

def Exchange.served (e : Exchange) : UpgradeResult :=
  e.server.handleWSUpgrade crypto (nodeCodec printer times jsonError) e.upgrade

def Exchange.completed (e : Exchange) (now : Time) (ack : Bytes) :
    ConnectResult :=
  e.client.completeConnect crypto (nodeCodec printer times jsonError) e.peer
    e.challenge now (.ok ack)

def Exchange.Allowed (e : Exchange) : Prop :=
  e.server.registry.isPeerAllowed e.clientIdentity.id
    e.clientIdentity.publicKey = true

instance (e : Exchange) : Decidable e.Allowed :=
  inferInstanceAs (Decidable (_ = true))

end

/-- The connection is stored under the ID of its peer, and it is as it was made
at the given time. -/
structure Transport.Holds (t : Transport) (connection : ℕ) (id secret : Bytes)
    (since : Time) : Prop where
  stored : t.conns.lookup id = some connection
  fresh : ∃ peer : Peer, peer.id = id ∧ t.connections[connection]? = some
    { peer := peer, sharedSecret := secret, lastActivity := since,
      rateLimiter := some (newPeerRateLimiter since 100 50) }

theorem Transport.holds_storeConnection (t : Transport) (since : Time)
    (peer : Peer) (secret : Bytes) :
    (t.storeConnection since
      { peer := peer, sharedSecret := secret, lastActivity := since,
        rateLimiter := some (newPeerRateLimiter since 100 50) }).Holds
      t.connections.length peer.id secret since where
  stored := Finmap.lookup_insert _
  fresh := ⟨peer, rfl, List.getElem?_concat_length⟩

/-! ## The handshake -/

section

variable {crypto : NodePrimitives} {printer : FloatPrinter} {times : TimeText}
  {jsonError : Bytes → CoreError}

theorem startConnect_sent {codec : Codec} {t : Transport} {peer : Peer}
    {input : ConnectInput} {challenge frame : Bytes} {identity : NodeIdentity}
    (hidentity : t.node.identity = some identity)
    (hstarted : t.startConnect codec peer input =
      .returned (challenge, frame)) :
    challenge.length = challengeSize ∧ ∃ content,
      codec.marshalHandshake ⟨identity, challenge, protocolVersion⟩ =
        .ok content ∧
      codec.marshalMessage
        { id := input.messageID, type := .handshake, fromNode := identity.id,
          toNode := peer.id, timestamp := input.now,
          payload := some content } = .ok frame := by
  unfold startConnect sendHandshake at hstarted
  rw [hidentity] at hstarted
  simp only [Outcome.bind_eq_returned_iff, Outcome.mapError_eq_returned_iff,
    generateChallenge, newMessage, Outcome.ofExcept_eq_returned_iff,
    Outcome.pure_eq_returned, Outcome.returned.injEq, Prod.mk.injEq]
    at hstarted
  obtain ⟨-, -, drawn, ⟨random, -, rfl⟩, msg, ⟨content, hcontent, rfl⟩, data,
    hdata, -, -, rfl, rfl⟩ := hstarted
  exact ⟨random.2, content, hcontent, hdata⟩

namespace Exchange.Honest

variable {e : Exchange}

/-- The handshake as the client meant it. -/
abbrev payload (e : Exchange) : HandshakePayload :=
  ⟨e.clientIdentity, e.challenge, protocolVersion⟩

theorem intact_protocolVersion : Intact protocolVersion :=
  ⟨by decide +kernel, by decide +kernel⟩

theorem intact_nil : Intact [] := ⟨rfl, by decide⟩

theorem intact_notAuthorized : Intact (text "peer not authorized") :=
  ⟨by decide +kernel, by decide +kernel⟩

/-- The server is presented the handshake that the client wrote. -/
theorem presented (hexact : times.Exact)
    (honest : e.Honest crypto printer times jsonError) :
    e.server.presentedHandshake (nodeCodec printer times jsonError) e.upgrade =
      some (payload e) := by
  obtain ⟨-, content, hcontent, hdata⟩ :=
    startConnect_sent honest.client honest.started
  have hid := honest.clientIntact.strings e.clientIdentity.id (by
    simp [NodeIdentity.strings])
  have hheader : HeaderPlain
      { id := e.connect.messageID, type := .handshake,
        fromNode := e.clientIdentity.id, toNode := e.peer.id,
        timestamp := e.connect.now, payload := some content } := by
    simp only [HeaderPlain, List.forall_mem_cons]
    exact ⟨honest.connectID, by decide +kernel, hid.plain, honest.peerID,
      by decide, List.forall_mem_nil _⟩
  obtain ⟨received, hdecoded, htype, hparsed⟩ := handshake_parsed hexact
    honest.clientIntact intact_protocolVersion hcontent rfl hheader hdata
  have hread : readMessage e.server.readLimit e.upgrade.frame =
      .returned e.handshake := by
    rw [honest.received]
    exact if_neg (not_lt.mpr honest.size)
  have hname : MessageType.ofName
      (utf8 (decodeText MessageType.handshake.name)) = .handshake := by
    decide +kernel
  have hkind : received.type = .handshake := htype.trans hname
  unfold presentedHandshake
  simp only [hread, Outcome.returned_bind, hdecoded, Outcome.ofExcept]
  rw [if_neg (not_not.mpr hkind), hparsed]

/-- With room and a supported version, what the server does is decided by
whether it allows the client. -/
theorem served_eq (hexact : times.Exact)
    (honest : e.Honest crypto printer times jsonError) :
    e.served crypto printer times jsonError =
      if e.Allowed then
        e.server.acceptHandshake crypto (nodeCodec printer times jsonError)
          e.upgrade (payload e) e.secret
      else
        { transport := e.server
          written := e.server.rejection (nodeCodec printer times jsonError)
            e.upgrade (payload e) (text "peer not authorized") } := by
  have hversion : isProtocolVersionSupported protocolVersion = true := by
    decide
  unfold Exchange.served handleWSUpgrade
  rw [if_neg (not_le.mpr honest.room), honest.upgraded, presented hexact honest]
  dsimp only
  unfold answerHandshake
  rw [hversion, honest.serverSecret]
  by_cases hallowed : e.Allowed
  · have hbit : e.server.registry.isPeerAllowed (payload e).identity.id
        (payload e).identity.publicKey = true := hallowed
    rw [if_pos hallowed, hbit]
    rfl
  · have hbit : e.server.registry.isPeerAllowed (payload e).identity.id
        (payload e).identity.publicKey = false := Bool.not_eq_true _ ▸ hallowed
    rw [if_neg hallowed, hbit]
    rfl

/-- The client parses any ack that the server marshals for it. -/
theorem acknowledged (hexact : times.Exact)
    (honest : e.Honest crypto printer times jsonError)
    (ack : HandshakeAckPayload) (hidentity : ack.identity = e.serverIdentity)
    (hreason : Intact ack.reason) :
    ∃ content data received,
      (nodeCodec printer times jsonError).marshalAck ack = .ok content ∧
      (nodeCodec printer times jsonError).marshalMessage
        { id := e.upgrade.messageID, type := .handshakeAck,
          fromNode := e.serverIdentity.id, toNode := e.clientIdentity.id,
          timestamp := e.upgrade.now, payload := some content } = .ok data ∧
      (nodeCodec printer times jsonError).decodeMessageJSON data =
        .ok received ∧
      received.type = .handshakeAck ∧
      received.parsePayload {}
        (nodeCodec printer times jsonError).unmarshalAck = .returned ack := by
  have hintact : ack.identity.Intact times := hidentity ▸ honest.serverIntact
  obtain ⟨content, hcontent, hsent⟩ : ∃ content,
      (nodeCodec printer times jsonError).marshalAck ack = .ok content ∧ _ :=
    ack_parsed hexact hintact hreason
  obtain ⟨timestamp, htimestamp⟩ := honest.answered
  have hclientID := honest.clientIntact.strings e.clientIdentity.id (by
    simp [NodeIdentity.strings])
  have hserverID := honest.serverIntact.strings e.serverIdentity.id (by
    simp [NodeIdentity.strings])
  have hheader : HeaderPlain
      { id := e.upgrade.messageID, type := .handshakeAck,
        fromNode := e.serverIdentity.id, toNode := e.clientIdentity.id,
        timestamp := e.upgrade.now, payload := some content } := by
    simp only [HeaderPlain, List.forall_mem_cons]
    exact ⟨honest.upgradeID, by decide +kernel, hserverID.plain,
      hclientID.plain, by decide, List.forall_mem_nil _⟩
  have hname : MessageType.ofName
      (utf8 (decodeText MessageType.handshakeAck.name)) = .handshakeAck := by
    decide +kernel
  obtain ⟨data, received, hdata, hdecoded, htype, hparsed⟩ :=
    hsent rfl hheader htimestamp
  exact ⟨content, data, received, hcontent, hdata, hdecoded,
    htype.trans hname, hparsed⟩

theorem readHandshakeAck_of_parsed {codec : Codec} {data : Bytes}
    {received : Message} {ack : HandshakeAckPayload}
    (hdecoded : codec.decodeMessageJSON data = .ok received)
    (htype : received.type = .handshakeAck)
    (hparsed : received.parsePayload {} codec.unmarshalAck = .returned ack) :
    readHandshakeAck codec (.ok data) =
      if ack.accepted = true then .returned ack
      else .failed (.op "Transport.performHandshake"
        (text "handshake rejected: " ++ ack.reason)) := by
  unfold readHandshakeAck
  simp only [Outcome.ofExcept, Outcome.mapError, Outcome.returned_bind, hdecoded]
  rw [if_neg (not_not.mpr htype), hparsed]
  cases haccepted : ack.accepted <;> simp [haccepted]

/-! ## Both outcomes -/

theorem id_findOrRegister {registry : PeerRegistry} (hkeyed : registry.Keyed)
    (now : Time) (identity : NodeIdentity) :
    (findOrRegister registry now identity).1.id = identity.id := by
  unfold findOrRegister
  split
  next peer hpeer => exact hkeyed hpeer
  next =>
    dsimp only
    split <;> rfl

/-- The response that the server computes is the one that the client expects. -/
theorem challengeResponse_eq (honest : e.Honest crypto printer times jsonError) :
    challengeResponse crypto e.challenge e.secret =
      .returned (signChallenge crypto e.challenge e.subKeys.chlKey) := by
  have hlength : e.challenge.length > 0 := by
    rw [(startConnect_sent honest.client honest.started).1]
    decide
  unfold challengeResponse
  rw [if_pos hlength, honest.subKeys]
  rfl

theorem verifyHandshakeAck_eq (honest : e.Honest crypto printer times jsonError)
    {ack : HandshakeAckPayload} (hidentity : ack.identity = e.serverIdentity)
    (hresponse : ack.challengeResponse =
      signChallenge crypto e.challenge e.subKeys.chlKey) :
    verifyHandshakeAck crypto e.client.node e.challenge ack =
      .returned e.secret := by
  have hlength : ¬ ack.challengeResponse.length = 0 := by
    rw [hresponse, List.length_eq_zero_iff]
    exact honest.response
  unfold verifyHandshakeAck
  rw [hidentity, honest.clientSecret]
  simp only [Outcome.mapError, Outcome.returned_bind, honest.subKeys]
  rw [if_neg hlength, verifyChallenge, hresponse]
  simp

/-- The ack of a server that accepts the client. -/
abbrev acceptance (crypto : NodePrimitives) (e : Exchange) :
    HandshakeAckPayload where
  identity := e.serverIdentity
  challengeResponse := signChallenge crypto e.challenge e.subKeys.chlKey
  accepted := true

theorem acceptHandshake_eq (honest : e.Honest crypto printer times jsonError)
    {content data : Bytes}
    (hcontent : (nodeCodec printer times jsonError).marshalAck
      (acceptance crypto e) = .ok content)
    (hdata : (nodeCodec printer times jsonError).marshalMessage
      { id := e.upgrade.messageID, type := .handshakeAck,
        fromNode := e.serverIdentity.id, toNode := e.clientIdentity.id,
        timestamp := e.upgrade.now, payload := some content } = .ok data) :
    ∃ registry peer, peer.id = e.clientIdentity.id ∧
      e.server.acceptHandshake crypto (nodeCodec printer times jsonError)
          e.upgrade (payload e) e.secret =
        { transport := Transport.storeConnection
            { e.server with registry := registry } e.upgrade.now
            { peer := peer, sharedSecret := e.secret
              lastActivity := e.upgrade.now
              rateLimiter := some (newPeerRateLimiter e.upgrade.now 100 50) }
          written := [data]
          signed := some (payload e, e.secret)
          connection := some e.server.connections.length } := by
  have hid := id_findOrRegister honest.keyed e.upgrade.now e.clientIdentity
  have hlength : e.challenge.length > 0 := by
    rw [(startConnect_sent honest.client honest.started).1]
    decide
  refine ⟨(findOrRegister e.server.registry e.upgrade.now e.clientIdentity).2,
    (findOrRegister e.server.registry e.upgrade.now e.clientIdentity).1, hid, ?_⟩
  unfold acceptHandshake
  dsimp only
  rw [honest.server, challengeResponse_eq honest, hid]
  simp only [newMessage, hcontent, Outcome.ofExcept, Outcome.returned_bind,
    Outcome.pure_eq_returned, hdata, honest.written, if_pos hlength]
  rfl

/-- Both transports are as before but for the registry and the connection that
each has stored with the secret. -/
structure Established (e : Exchange) (now : Time) (client server : Transport) :
    Prop where
  clientHolds : client.Holds e.client.connections.length e.serverIdentity.id
    e.secret now
  serverHolds : server.Holds e.server.connections.length e.clientIdentity.id
    e.secret e.upgrade.now
  clientKeeps : client.config = e.client.config ∧ client.dedup = e.client.dedup ∧
    client.hasHandler = e.client.hasHandler
  serverKeeps : server.config = e.server.config ∧ server.dedup = e.server.dedup ∧
    server.hasHandler = e.server.hasHandler

/-- A client that the server allows: both have the connection. -/
theorem accepted (hexact : times.Exact)
    (honest : e.Honest crypto printer times jsonError) (hallowed : e.Allowed) :
    ∃ ack, (e.served crypto printer times jsonError).written = [ack] ∧
      (e.served crypto printer times jsonError).connection =
        some e.server.connections.length ∧
      ∀ now,
        (e.completed crypto printer times jsonError now ack).connection =
          .returned e.client.connections.length ∧
        Established e now
          (e.completed crypto printer times jsonError now ack).transport
          (e.served crypto printer times jsonError).transport := by
  obtain ⟨content, data, received, hcontent, hdata, hdecoded, htype, hparsed⟩ :=
    acknowledged hexact honest (acceptance crypto e) rfl intact_nil
  obtain ⟨registry, peer, hpeer, haccept⟩ :=
    acceptHandshake_eq honest hcontent hdata
  have hread : readHandshakeAck (nodeCodec printer times jsonError) (.ok data) =
      .returned (acceptance crypto e) :=
    (readHandshakeAck_of_parsed hdecoded htype hparsed).trans (if_pos rfl)
  have hverify := verifyHandshakeAck_eq honest
    (show (acceptance crypto e).identity = e.serverIdentity from rfl) rfl
  refine ⟨data, ?_⟩
  rw [served_eq hexact honest, if_pos hallowed, haccept]
  refine ⟨rfl, rfl, fun now => ?_⟩
  unfold Exchange.completed completeConnect
  rw [hread]
  dsimp only [Outcome.mapError]
  rw [hverify]
  refine ⟨rfl, holds_storeConnection _ now _ _, ?_, ⟨rfl, rfl, rfl⟩,
    ⟨rfl, rfl, rfl⟩⟩
  rw [← hpeer]
  exact holds_storeConnection _ _ _ _

/-- A client that the server does not allow is told so. -/
theorem rejected (hexact : times.Exact)
    (honest : e.Honest crypto printer times jsonError)
    (hrefused : ¬ e.Allowed) :
    ∃ ack, (e.served crypto printer times jsonError).written = [ack] ∧
      (e.served crypto printer times jsonError).connection = none ∧
      (e.served crypto printer times jsonError).transport = e.server ∧
      ∀ now,
        (e.completed crypto printer times jsonError now ack).connection =
          .failed (.wrap "Transport.Connect" (text "handshake failed")
            (.op "Transport.performHandshake"
              (text "handshake rejected: peer not authorized"))) ∧
        (e.completed crypto printer times jsonError now ack).transport =
          e.client := by
  obtain ⟨content, data, received, hcontent, hdata, hdecoded, htype, hparsed⟩ :=
    acknowledged hexact honest
      ⟨e.serverIdentity, [], false, text "peer not authorized"⟩ rfl
      intact_notAuthorized
  have hread : readHandshakeAck (nodeCodec printer times jsonError) (.ok data) =
      .failed (.op "Transport.performHandshake"
        (text "handshake rejected: peer not authorized")) :=
    (readHandshakeAck_of_parsed hdecoded htype hparsed).trans (if_neg nofun)
  have hwritten : e.server.rejection (nodeCodec printer times jsonError)
      e.upgrade (payload e) (text "peer not authorized") = [data] := by
    unfold rejection
    rw [honest.server]
    simp only [newMessage, hcontent, Outcome.ofExcept, Outcome.returned_bind,
      Outcome.pure_eq_returned, hdata]
  refine ⟨data, ?_⟩
  rw [served_eq hexact honest, if_neg hrefused]
  refine ⟨hwritten, rfl, rfl, ?_⟩
  intro now
  unfold Exchange.completed completeConnect
  rw [hread]
  exact ⟨rfl, rfl⟩

end Exchange.Honest

section

variable (crypto printer times jsonError)

end

end

/-! ## Two sample nodes -/

end GoP2P.Node
