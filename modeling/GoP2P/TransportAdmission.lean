import GoP2P.Transport

/-!
# Whom the transport lets in

The allowlist decides by the claimed ID or by the presented key.  The ID is
looked up on its own, so the key recorded for a registered peer plays no part.
-/

namespace GoP2P.Node.Transport

variable {crypto : NodePrimitives} {codec : Codec}

theorem findOrRegister_setAuthMode_fst
    (registry : PeerRegistry) (mode : PeerAuthMode) (now : Time)
    (identity : NodeIdentity) :
    (findOrRegister (registry.setAuthMode mode) now identity).1 =
      (findOrRegister registry now identity).1 := by
  have hget : (registry.setAuthMode mode).getPeer identity.id =
      registry.getPeer identity.id := rfl
  unfold findOrRegister
  rw [hget]
  cases registry.getPeer identity.id with
  | some peer => rfl
  | none =>
      dsimp only
      split <;> split <;> rfl

theorem acceptHandshake_setAuthMode_connection
    (t : Transport) (mode : PeerAuthMode) (input : UpgradeInput)
    (payload : HandshakePayload) (sharedSecret : Bytes) :
    ({ t with registry := t.registry.setAuthMode mode }.acceptHandshake
        crypto codec input payload sharedSecret).connection =
      (t.acceptHandshake crypto codec input payload sharedSecret).connection := by
  unfold acceptHandshake
  dsimp only
  rw [findOrRegister_setAuthMode_fst]
  cases t.node.identity with
  | none => rfl
  | some identity =>
      dsimp only
      cases challengeResponse crypto payload.challenge sharedSecret with
      | returned response =>
          dsimp only
          split
          · split <;> rfl
          · rfl
      | failed | panicked | unfinished => rfl

theorem answerHandshake_connection_iff
    {t : Transport} (hmode : t.registry.authMode = .allowlist)
    (input : UpgradeInput) (payload : HandshakePayload) (connection : ℕ) :
    (t.answerHandshake crypto codec input payload).connection =
        some connection ↔
      ({ t with registry := t.registry.setAuthMode .openMode }.answerHandshake
          crypto codec input payload).connection = some connection ∧
        (payload.identity.publicKey ∈ t.registry.allowedPublicKeys ∨
          ∃ peer, t.registry.getPeer payload.identity.id = some peer) := by
  have hgate := PeerRegistry.isPeerAllowed_iff_of_allowlist hmode
    payload.identity.id payload.identity.publicKey
  rw [← hgate]
  have hopen : (t.registry.setAuthMode .openMode).isPeerAllowed
      payload.identity.id payload.identity.publicKey = true := rfl
  unfold answerHandshake
  by_cases hversion : isProtocolVersionSupported payload.version = true
  · cases hsecret :
        t.node.deriveSharedSecret crypto payload.identity.publicKey with
    | returned sharedSecret =>
        by_cases hallowed : t.registry.isPeerAllowed payload.identity.id
            payload.identity.publicKey = true
        · simp [hversion, hallowed, hopen,
            acceptHandshake_setAuthMode_connection]
        · simp [hversion, hallowed]
    | failed | panicked | unfinished => simp [hversion]
  · simp [hversion]

/-- In allowlist mode a handshake is accepted exactly when open mode would
accept it and, besides, the presented key is listed or the claimed ID is
registered, under whatever key. -/
theorem handleWSUpgrade_allowlist_iff
    (crypto : NodePrimitives) (codec : Codec) (t : Transport)
    (hmode : t.registry.authMode = .allowlist)
    (input : UpgradeInput) (connection : ℕ) :
    (t.handleWSUpgrade crypto codec input).connection = some connection ↔
      ({ t with registry := t.registry.setAuthMode .openMode }.handleWSUpgrade
          crypto codec input).connection = some connection ∧
        ∃ payload, t.presentedHandshake codec input = some payload ∧
          (payload.identity.publicKey ∈ t.registry.allowedPublicKeys ∨
            ∃ peer, t.registry.getPeer payload.identity.id = some peer) := by
  unfold handleWSUpgrade
  have hpresented :
      { t with registry := t.registry.setAuthMode .openMode }.presentedHandshake
        codec input = t.presentedHandshake codec input := rfl
  rw [hpresented]
  dsimp only
  split
  · simp
  · split
    · simp
    · cases t.presentedHandshake codec input with
      | none => simp
      | some payload =>
          simp [answerHandshake_connection_iff hmode]

end GoP2P.Node.Transport

namespace GoP2P.Node

/-! ### Sample primitives -/

def Codec.ofTables (handshakes : List (Bytes × HandshakePayload))
    (acks : List (Bytes × HandshakeAckPayload))
    (messages : List (Bytes × Message)) : Codec :=
  let unknown := CoreError.plain (text "no such text")
  { marshalHandshake := fun payload =>
      ((handshakes.find? (·.2 = payload)).map (·.1)).elim (.error unknown) .ok
    marshalAck := fun payload =>
      ((acks.find? (·.2 = payload)).map (·.1)).elim (.error unknown) .ok
    unmarshalHandshake := fun data =>
      (handshakes.lookup data).elim (.error unknown) .ok
    unmarshalAck := fun data => (acks.lookup data).elim (.error unknown) .ok
    marshalMessage := fun msg =>
      ((messages.find? (·.2 = msg)).map (·.1)).elim (.error unknown) .ok
    decodeMessageJSON := fun data =>
      (messages.lookup data).elim (.error unknown) .ok
    decodeEnvelope := fun _ => .ok none }

/-- One byte serves as both halves of a key pair, and two keys share the pair
of their bytes in ascending order. -/
def samplePrimitives : NodePrimitives where
  expand := fun secret _ _ => .ok secret
  hmac := fun key message => key ++ message
  loadPublicKeyBase64 := fun key =>
    if key.length = 1 then .ok key else .error (.plain (text "bad key"))
  newPrivateKey := .ok
  ecdh := fun privateKey publicKey =>
    match privateKey, publicKey with
    | [own], [other] => .ok [min own other, max own other]
    | _, _ => .error (.plain (text "bad key"))
  sha256 := fun bytes => bytes ++ List.replicate 30 0
  sealWith := fun key _ plaintext _ =>
    (key ++ List.replicate 16 0).take 16 ++ plaintext
  openWith := fun key _ ciphertext _ =>
    if ciphertext.take 16 = (key ++ List.replicate 16 0).take 16 then
      .ok (ciphertext.drop 16)
    else .error (.plain (text "message authentication failed"))
  ed25519Verify := fun _ _ _ => false

def sampleNode (key : UInt8) : NodeManager where
  identity := some { id := [key], publicKey := [key] }
  privateKey := some [key]

def sampleRegistry : PeerRegistry where
  peers := Finmap.singleton [1] { id := [1], publicKey := [1] }
  authMode := .allowlist
  allowedPublicKeys := {[3]}

def sampleCodec (id key : UInt8) : Codec :=
  .ofTables
    [([1], { identity := { id := [id], publicKey := [key] },
             version := protocolVersion })]
    [([2], { identity := { id := [9], publicKey := [9] }, accepted := true })]
    [([1], { type := .handshake, payload := some [1] }),
      ([2], { type := .handshakeAck, fromNode := [9], toNode := [id],
              payload := some [2] })]

def sampleUpgrade : Transport.UpgradeInput where
  frame := .ok [1]
  now := 0
  messageID := []

namespace Transport

theorem handleWSUpgrade_allowlist_iff_listed_key :
    ((newTransport (sampleNode 9) sampleRegistry {}).handleWSUpgrade
      samplePrimitives (sampleCodec 4 3) sampleUpgrade).connection = some 0 :=
  (handleWSUpgrade_allowlist_iff samplePrimitives (sampleCodec 4 3)
    (newTransport (sampleNode 9) sampleRegistry {}) rfl sampleUpgrade 0).mpr
      ⟨by decide, _, rfl, .inl (by decide)⟩

/-- A peer with key 2, which is not listed, is accepted under the registered
ID 1, although key 1 is recorded for it. -/
theorem handleWSUpgrade_accepts_unrecorded_key :
    ∃ (t : Transport) (payload : HandshakePayload) (peer : Peer),
      t.registry.authMode = .allowlist ∧
      t.presentedHandshake (sampleCodec 1 2) sampleUpgrade = some payload ∧
      (t.handleWSUpgrade samplePrimitives (sampleCodec 1 2)
        sampleUpgrade).connection = some 0 ∧
      payload.identity.publicKey ∉ t.registry.allowedPublicKeys ∧
      t.registry.getPeer payload.identity.id = some peer ∧
      peer.publicKey ≠ [] ∧
      peer.publicKey ≠ payload.identity.publicKey :=
  ⟨newTransport (sampleNode 9) sampleRegistry {}, _, _, rfl, rfl, by decide,
    by decide, rfl, by decide, by decide⟩

end Transport

end GoP2P.Node
