import GoP2P.TransportCalls

/-!
# Connecting to a peer

A whole call of `Connect` on the record it is given.  The caller passes a
pointer, and the registry may hold the very same record, as it does after
`AddPeer`; what the handshake writes into the record then shows in the registry
at once.  The identity of an accepting ack is written before the response to
the challenge is looked at.
-/

namespace GoP2P.Node

/-- The record passed to `Connect`, and the IDs under which the registry holds
that very record. -/
structure PassedPeer (registry : PeerRegistry) where
  peer : Peer
  held : List Bytes := []
  shared : ∀ id ∈ held, registry.getPeer id = some peer := by simp

namespace PeerRegistry

theorem showing_self {r : PeerRegistry} (passed : PassedPeer r) :
    r.showing passed.held passed.peer = r := by
  have hpeers : (r.showing passed.held passed.peer).peers = r.peers := by
    apply Finmap.ext_lookup
    intro i
    have hlookup := r.getPeer_showing passed.held passed.peer i
    split at hlookup
    next hheld => exact hlookup.trans (passed.shared i hheld).symm
    next => exact hlookup
  cases r
  simp only [showing] at hpeers ⊢
  rw [hpeers]

end PeerRegistry

namespace Transport

section

variable (crypto : NodePrimitives) (codec : Codec)

def connect (t : Transport) (passed : PassedPeer t.registry)
    (input : ConnectInput) (now : Time) (frame : Except CoreError Bytes) :
    ConnectResult :=
  match t.startConnect codec passed.peer input with
  | .returned (challenge, _) =>
      { t with
        registry := registryAfterAck codec t.registry passed.peer passed.held
          frame }.completeConnect crypto codec passed.peer challenge now frame
  | .failed error =>
      { transport := t, peer := passed.peer, connection := .failed error }
  | .panicked =>
      { transport := t, peer := passed.peer, connection := .panicked }
  | .unfinished =>
      { transport := t, peer := passed.peer, connection := .unfinished }

end

end Transport

/-- The identity is the one that the record already has. -/
def NodeIdentity.Describes (identity : NodeIdentity) (peer : Peer) : Prop :=
  identity.id = peer.id ∧ identity.publicKey = peer.publicKey ∧
    identity.name = peer.name ∧ identity.role = peer.role

instance (identity : NodeIdentity) (peer : Peer) :
    Decidable (identity.Describes peer) :=
  inferInstanceAs (Decidable (_ ∧ _))

namespace Transport

theorem adoptIdentity_eq_iff {peer : Peer} {identity : NodeIdentity} :
    adoptIdentity peer identity = peer ↔ identity.Describes peer := by
  constructor
  · intro hsame
    refine ⟨?_, ?_, ?_, ?_⟩
    · exact congrArg Peer.id hsame
    · exact congrArg Peer.publicKey hsame
    · exact congrArg Peer.name hsame
    · exact congrArg Peer.role hsame
  · rintro ⟨hid, hkey, hname, hrole⟩
    unfold adoptIdentity
    rw [hid, hkey, hname, hrole]

section

variable {crypto : NodePrimitives} {codec : Codec}

theorem connect_of_unread {t : Transport} {passed : PassedPeer t.registry}
    {input : ConnectInput} {challenge data : Bytes}
    (hstarted : t.startConnect codec passed.peer input =
      .returned (challenge, data)) {frame : Except CoreError Bytes}
    (hunread : ∀ ackPayload, readHandshakeAck codec frame ≠ .returned ackPayload)
    (now : Time) :
    (t.connect crypto codec passed input now frame).transport = t ∧
      (t.connect crypto codec passed input now frame).peer = passed.peer ∧
      ∀ n, (t.connect crypto codec passed input now frame).connection ≠
        .returned n := by
  unfold connect registryAfterAck completeConnect
  rw [hstarted]
  cases hack : readHandshakeAck codec frame with
  | returned ackPayload => exact absurd hack (hunread ackPayload)
  | failed | panicked | unfinished => exact ⟨rfl, rfl, by simp [Outcome.mapError]⟩

/-- After an accepting ack the record has its identity, and the registry shows
it, whether or not the response is then verified. -/
theorem connect_of_unverified {t : Transport} {passed : PassedPeer t.registry}
    {input : ConnectInput} {challenge data : Bytes}
    (hstarted : t.startConnect codec passed.peer input =
      .returned (challenge, data)) {frame : Except CoreError Bytes}
    {ackPayload : HandshakeAckPayload}
    (hack : readHandshakeAck codec frame = .returned ackPayload)
    {error : CoreError}
    (hunverified : verifyHandshakeAck crypto t.node challenge ackPayload =
      .failed error) (now : Time) :
    t.connect crypto codec passed input now frame =
      { transport :=
          { t with
            registry := t.registry.showing passed.held
              (adoptIdentity passed.peer ackPayload.identity) }
        peer := adoptIdentity passed.peer ackPayload.identity
        connection := .failed
          (.wrap "Transport.Connect" (text "handshake failed") error) } := by
  simp only [connect, registryAfterAck, completeConnect, hstarted, hack,
    hunverified, Outcome.mapError]

theorem connect_of_verified {t : Transport} {passed : PassedPeer t.registry}
    {input : ConnectInput} {challenge data : Bytes}
    (hstarted : t.startConnect codec passed.peer input =
      .returned (challenge, data)) {frame : Except CoreError Bytes}
    {ackPayload : HandshakeAckPayload}
    (hack : readHandshakeAck codec frame = .returned ackPayload)
    {sharedSecret : Bytes}
    (hverified : verifyHandshakeAck crypto t.node challenge ackPayload =
      .returned sharedSecret) (now : Time) :
    let peer := adoptIdentity passed.peer ackPayload.identity
    t.connect crypto codec passed input now frame =
      { transport :=
          { t with
            registry := recordPeer (t.registry.showing passed.held peer) now
              peer }.storeConnection now (newConnection now peer sharedSecret)
        peer := peer
        connection := .returned t.connections.length
        verified := some ackPayload.identity.publicKey } := by
  simp only [connect, registryAfterAck, completeConnect, hstarted, hack,
    hverified, Outcome.mapError]
  rfl

/-- A failed call leaves the record it was given, the registry and `conns` as
they were, exactly if an accepting ack that does not pass the verification
carries the identity the record had. -/
theorem failed_connect_leaves_no_trace_iff (crypto : NodePrimitives)
    (codec : Codec) (t : Transport) (passed : PassedPeer t.registry)
    (input : ConnectInput) (now : Time) (frame : Except CoreError Bytes) :
    (∀ error, (t.connect crypto codec passed input now frame).connection =
        .failed error →
      (t.connect crypto codec passed input now frame).peer = passed.peer ∧
      (t.connect crypto codec passed input now frame).transport.registry =
        t.registry ∧
      (t.connect crypto codec passed input now frame).transport.conns =
        t.conns) ↔
    ∀ challenge data ackPayload error,
      t.startConnect codec passed.peer input = .returned (challenge, data) →
      readHandshakeAck codec frame = .returned ackPayload →
      verifyHandshakeAck crypto t.node challenge ackPayload = .failed error →
        ackPayload.identity.Describes passed.peer := by
  constructor
  · intro htrace challenge data ackPayload error hstarted hack hunverified
    have hresult := connect_of_unverified hstarted hack hunverified now
    rw [hresult] at htrace
    exact adoptIdentity_eq_iff.mp (htrace _ rfl).1
  · intro hdescribes error hfailed
    cases hstarted : t.startConnect codec passed.peer input with
    | returned started =>
        rcases started with ⟨challenge, data⟩
        by_cases hunread : ∀ ackPayload,
            readHandshakeAck codec frame ≠ .returned ackPayload
        · rcases connect_of_unread hstarted hunread now with
            ⟨htransport, hpeer, -⟩
          rw [htransport]
          exact ⟨hpeer, rfl, rfl⟩
        · push Not at hunread
          rcases hunread with ⟨ackPayload, hack⟩
          cases hverified : verifyHandshakeAck crypto t.node challenge
              ackPayload with
          | returned sharedSecret =>
              rw [connect_of_verified hstarted hack hverified now] at hfailed
              cases hfailed
          | failed cause =>
              have hsame := adoptIdentity_eq_iff.mpr
                (hdescribes challenge data ackPayload cause hstarted hack
                  hverified)
              rw [connect_of_unverified hstarted hack hverified now, hsame,
                PeerRegistry.showing_self]
              exact ⟨rfl, rfl, rfl⟩
          | panicked | unfinished =>
              simp [connect, completeConnect, hstarted, hack, hverified,
                Outcome.mapError] at hfailed
    | failed cause =>
        simp only [connect, hstarted]
        exact ⟨trivial, trivial, trivial⟩
    | panicked | unfinished =>
        simp [connect, hstarted] at hfailed

end

/-! ### A sample server -/

/-- A server that claims the ID 1 and key 2 and does not answer the
challenge. -/
def sampleMute : Codec where
  marshalHandshake := fun _ => .ok []
  marshalAck := fun _ => .ok []
  unmarshalHandshake := fun _ => .ok {}
  unmarshalAck := fun _ =>
    .ok { identity := { id := [1], publicKey := [2] }, accepted := true }
  marshalMessage := fun _ => .ok []
  decodeMessageJSON := fun _ => .ok { type := .handshakeAck, payload := some [] }
  decodeEnvelope := fun _ => .ok none

def sampleDial : ConnectInput where
  random := .ok (List.Vector.replicate challengeSize 7)
  now := 0
  messageID := []

/-- The registry holds the peer 4 that is dialled, and afterwards it has the
claimed ID and key under the ID 4, although the call failed. -/
theorem failed_connect_leaves_claimed_identity :
    ∃ (t : Transport) (passed : PassedPeer t.registry) (error : CoreError),
      passed.peer.id = [4] ∧ passed.peer.publicKey = [4] ∧
      t.registry.getPeer [4] = some passed.peer ∧
      (t.connect samplePrimitives sampleMute passed sampleDial 0
        (.ok [])).connection = .failed error ∧
      (t.connect samplePrimitives sampleMute passed sampleDial 0
        (.ok [])).peer.publicKey = [2] ∧
      ((t.connect samplePrimitives sampleMute passed sampleDial 0
        (.ok [])).transport.registry.getPeer [4]).map (·.publicKey) =
          some [2] := by
  refine ⟨newTransport (sampleNode 9)
    { peers := Finmap.singleton [4] { id := [4], publicKey := [4] } } {},
    { peer := { id := [4], publicKey := [4] }, held := [[4]], shared := ?_ },
    _, rfl, rfl, ?_, rfl, ?_, ?_⟩
  · intro id hid
    rw [List.mem_singleton] at hid
    subst hid
    rfl
  · rfl
  · decide
  · decide

end Transport

end GoP2P.Node
