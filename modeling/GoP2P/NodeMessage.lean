import GoP2P.NodeIdentity

/-!
# Messages between nodes

The JSON encoder and decoder are a parameter (`Codec`), one field for each
type that passes through them; a nil payload is `none`.  What a peer sends is
any byte string, so nothing is assumed about what the decoder accepts.
-/

namespace GoP2P.Node

def protocolVersion : Bytes := text "1.0"

def supportedProtocolVersions : List Bytes := [text "1.0"]

def isProtocolVersionSupported (version : Bytes) : Bool :=
  supportedProtocolVersions.contains version

inductive MessageType where
  | handshake
  | handshakeAck
  | ping
  | pong
  | disconnect
  | getStats
  | stats
  | startMiner
  | stopMiner
  | minerAck
  | deploy
  | deployAck
  | getLogs
  | logs
  | error
  | other (name : Bytes)
  deriving DecidableEq, Repr

def MessageType.name : MessageType → Bytes
  | .handshake => text "handshake"
  | .handshakeAck => text "handshake_ack"
  | .ping => text "ping"
  | .pong => text "pong"
  | .disconnect => text "disconnect"
  | .getStats => text "get_stats"
  | .stats => text "stats"
  | .startMiner => text "start_miner"
  | .stopMiner => text "stop_miner"
  | .minerAck => text "miner_ack"
  | .deploy => text "deploy"
  | .deployAck => text "deploy_ack"
  | .getLogs => text "get_logs"
  | .logs => text "logs"
  | .error => text "error"
  | .other name => name

structure Message where
  id : Bytes := []
  type : MessageType := .other []
  fromNode : Bytes := []
  toNode : Bytes := []
  timestamp : Time := 0
  payload : Option Bytes := none
  replyTo : Bytes := []
  deriving DecidableEq, Repr

structure HandshakePayload where
  identity : NodeIdentity := {}
  challenge : Bytes := []
  version : Bytes := []
  deriving DecidableEq, Repr

structure HandshakeAckPayload where
  identity : NodeIdentity := {}
  challengeResponse : Bytes := []
  accepted : Bool := false
  reason : Bytes := []
  deriving DecidableEq, Repr

structure Envelope where
  peerPubkey : Bytes
  body : Bytes
  signature : Bytes
  deriving DecidableEq, Repr

structure Codec where
  marshalHandshake : HandshakePayload → Except CoreError Bytes
  marshalAck : HandshakeAckPayload → Except CoreError Bytes
  unmarshalHandshake : Bytes → Except CoreError HandshakePayload
  unmarshalAck : Bytes → Except CoreError HandshakeAckPayload
  marshalMessage : Message → Except CoreError Bytes
  decodeMessageJSON : Bytes → Except CoreError Message
  /-- `none` when none of the three envelope members is present. -/
  decodeEnvelope : Bytes → Except CoreError (Option Envelope)

/-- The ID and the time are what `uuid.New` and `time.Now` returned. -/
def newMessage (id : Bytes) (now : Time) (msgType : MessageType)
    (fromNode toNode : Bytes) (payload : Except CoreError Bytes) :
    Outcome CoreError Message := do
  let data ← Outcome.ofExcept payload
  pure
    { id := id, type := msgType, fromNode := fromNode, toNode := toNode,
      timestamp := now, payload := some data }

def Message.reply (msg : Message) (id : Bytes) (now : Time)
    (msgType : MessageType) (payload : Except CoreError Bytes) :
    Outcome CoreError Message := do
  let reply ← newMessage id now msgType msg.toNode msg.fromNode payload
  pure { reply with replyTo := msg.id }

/-- Parsing a nil payload succeeds and leaves the zero value. -/
def Message.parsePayload {α : Type} (msg : Message) (zero : α)
    (unmarshal : Bytes → Except CoreError α) : Outcome CoreError α :=
  match msg.payload with
  | none => .returned zero
  | some data => .ofExcept (unmarshal data)

/-! ### Envelopes -/

def errEnvelopeSignatureInvalid : CoreError :=
  .plain (text "invalid envelope signature")

def errEnvelopeBodyEmpty : CoreError := .plain (text "empty envelope body")

/-- `ed25519.PublicKeySize` and `ed25519.SignatureSize`. -/
def ed25519PublicKeySize : ℕ := 32
def ed25519SignatureSize : ℕ := 64

section

variable (crypto : NodePrimitives) (codec : Codec)

def Envelope.verifySignature (e : Envelope) : Outcome CoreError Unit :=
  if e.signature.length = 0 then
    .returned ()
  else if e.peerPubkey.length ≠ ed25519PublicKeySize ∨
      e.signature.length ≠ ed25519SignatureSize then
    .failed errEnvelopeSignatureInvalid
  else if !crypto.ed25519Verify e.peerPubkey e.body e.signature then
    .failed errEnvelopeSignatureInvalid
  else
    .returned ()

def unwrapEnvelope (data : Bytes) : Outcome CoreError Bytes := do
  match ← Outcome.ofExcept (codec.decodeEnvelope data) with
  | none => pure data
  | some envelope =>
      if envelope.body.length = 0 then
        .failed errEnvelopeBodyEmpty
      else
        envelope.verifySignature crypto
        pure envelope.body

def decodeReceivedMessage (data : Bytes) : Outcome CoreError Message := do
  let body ← unwrapEnvelope crypto codec data
  .ofExcept (codec.decodeMessageJSON body)

/-! ### Encrypted messages -/

def encryptMessage (msg : Message) (sharedSecret : Bytes)
    (nonce : Except CoreError (List.Vector UInt8 aeadNonceSize)) :
    Outcome CoreError Bytes := do
  let msgData ← Outcome.ofExcept (codec.marshalMessage msg)
  encryptTransportPayload crypto msgData sharedSecret nonce

def decryptMessage (data sharedSecret : Bytes) : Outcome CoreError Message := do
  let plaintext ← decryptTransportPayload crypto data sharedSecret
  decodeReceivedMessage crypto codec plaintext

def Message.ArrivesAs (msg received : Message) : Prop :=
  ∃ data, codec.marshalMessage msg = .ok data ∧
    decodeReceivedMessage crypto codec data = .returned received

end

/-- A frame made by `encryptMessage` decrypts, under the secret it was made
with, to what the receiver of that message decodes. -/
theorem arrivesAs_of_decryptMessage
    {crypto : NodePrimitives} {codec : Codec} (haead : crypto.SealsAndOpens)
    {msg received : Message} {sharedSecret frame : Bytes}
    {nonce : Except CoreError (List.Vector UInt8 aeadNonceSize)}
    (hsent : encryptMessage crypto codec msg sharedSecret nonce =
      .returned frame)
    (hreceived : decryptMessage crypto codec frame sharedSecret =
      .returned received) :
    msg.ArrivesAs crypto codec received := by
  rcases Outcome.bind_eq_returned_iff.mp hsent with ⟨data, hdata, hframe⟩
  rcases Outcome.bind_eq_returned_iff.mp hreceived with
    ⟨plaintext, hplaintext, hdecoded⟩
  rw [decryptTransportPayload_of_encrypt haead hframe] at hplaintext
  cases hplaintext
  exact ⟨data, Outcome.ofExcept_eq_returned_iff.mp hdata, hdecoded⟩

end GoP2P.Node
