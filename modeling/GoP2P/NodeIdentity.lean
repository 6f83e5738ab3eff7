import GoP2P.PeerRegistry
import GoP2P.UepsPacket

/-!
# Node identity, shared secrets and the keys derived from them

`NodePrimitives` has one field for each library call of the package: loading
keys, the X25519 exchange, SHA-256, the AEAD and Ed25519 verification.  HKDF
and HMAC are the ones of the packet layer.
-/

namespace GoP2P.Node

def challengeSize : ℕ := 32
def sharedSecretSize : ℕ := 32
def subKeySize : ℕ := 32

/-- `chacha20poly1305.KeySize`, `NonceSize` and `Overhead`. -/
def aeadKeySize : ℕ := 32
def aeadNonceSize : ℕ := 12
def aeadOverhead : ℕ := 16

def keyInfoEncryptV1 : Bytes := text "lthn-p2p-encrypt-v1"
def keyInfoMACV1 : Bytes := text "lthn-p2p-mac-v1"
def keyInfoChallengeV1 : Bytes := text "lthn-p2p-challenge-v1"

def errIdentityNotInitialized : CoreError :=
  .op "node" (text "node identity not initialized")

structure NodePrimitives extends Ueps.Primitives where
  loadPublicKeyBase64 : Bytes → Except CoreError Bytes
  newPrivateKey : Bytes → Except CoreError Bytes
  /-- Our private key, then the peer's public key. -/
  ecdh : Bytes → Bytes → Except CoreError Bytes
  sha256 : Bytes → Bytes
  /-- Key, nonce, plaintext and additional data. -/
  sealWith : Bytes → Bytes → Bytes → Bytes → Bytes
  /-- Key, nonce, ciphertext and additional data. -/
  openWith : Bytes → Bytes → Bytes → Bytes → Except CoreError Bytes
  /-- Public key, message and signature. -/
  ed25519Verify : Bytes → Bytes → Bytes → Bool

structure NodeIdentity where
  id : Bytes := []
  name : Bytes := []
  publicKey : Bytes := []
  createdAt : Time := 0
  role : NodeRole := .other []
  deriving DecidableEq, Repr

structure NodeManager where
  identity : Option NodeIdentity := none
  privateKey : Option Bytes := none
  deriving DecidableEq, Repr

section

variable (crypto : NodePrimitives)

def NodeManager.deriveSharedSecret (n : NodeManager) (peerPubKey : Bytes) :
    Outcome CoreError Bytes :=
  match n.privateKey with
  | none => .failed errIdentityNotInitialized
  | some stored => do
      let wrap message :=
        CoreError.wrap "NodeManager.DeriveSharedSecret" (text message)
      let loaded ← (Outcome.ofExcept
        (crypto.loadPublicKeyBase64 peerPubKey)).mapError
          (wrap "failed to load peer public key")
      let privateKey ← (Outcome.ofExcept
        (crypto.newPrivateKey stored)).mapError
          (wrap "failed to load private key")
      let sharedSecret ← (Outcome.ofExcept
        (crypto.ecdh privateKey loaded)).mapError
          (wrap "failed to derive shared secret")
      pure (crypto.sha256 sharedSecret)

/-- The node ID that `GenerateIdentity` derives from the bytes of the public
key. -/
def nodeID (pubKeyBytes : Bytes) : Bytes :=
  hexEncode ((crypto.sha256 pubKeyBytes).take 16)

structure TransportSubKeys where
  encKey : Bytes
  macKey : Bytes
  chlKey : Bytes
  deriving DecidableEq, Repr

def deriveSubKey (sharedSecret info : Bytes) : Outcome CoreError Bytes :=
  (Outcome.ofExcept (crypto.expand sharedSecret info subKeySize)).mapError
    (.formatted (text "derive " ++ info ++ text " key: "))

def deriveSubKeys (sharedSecret : Bytes) :
    Outcome CoreError TransportSubKeys :=
  if sharedSecret.length ≠ sharedSecretSize then
    .failed (.plain (text "shared secret length " ++
      text (toString sharedSecret.length) ++ text ", want " ++
      text (toString sharedSecretSize)))
  else do
    let encKey ← deriveSubKey crypto sharedSecret keyInfoEncryptV1
    let macKey ← deriveSubKey crypto sharedSecret keyInfoMACV1
    let chlKey ← deriveSubKey crypto sharedSecret keyInfoChallengeV1
    pure { encKey := encKey, macKey := macKey, chlKey := chlKey }

def signChallenge (challenge sharedSecret : Bytes) : Bytes :=
  crypto.hmac sharedSecret challenge

def verifyChallenge (challenge response sharedSecret : Bytes) : Bool :=
  response == signChallenge crypto challenge sharedSecret

/-! ### Encrypted transport payloads -/

def transportAEADVersion : UInt8 := 1

def transportAEADAdditionalData : Bytes := [transportAEADVersion]

def newTransportAEAD (sharedSecret : Bytes) : Outcome CoreError Bytes := do
  let subKeys ← deriveSubKeys crypto sharedSecret
  if subKeys.encKey.length ≠ aeadKeySize then
    .failed (.plain (text "chacha20poly1305: bad key length"))
  else
    pure subKeys.encKey

/-- The nonce is what `rand.Read` put into a buffer of the nonce's size. -/
def encryptTransportPayload (payload sharedSecret : Bytes)
    (nonce : Except CoreError (List.Vector UInt8 aeadNonceSize)) :
    Outcome CoreError Bytes := do
  let key ← newTransportAEAD crypto sharedSecret
  let nonce ← (Outcome.ofExcept nonce).mapError
    (.wrap "encryptTransportPayload" (text "generate nonce"))
  pure (transportAEADVersion :: nonce.toList ++
    crypto.sealWith key nonce.toList payload transportAEADAdditionalData)

def decryptTransportPayload (data sharedSecret : Bytes) :
    Outcome CoreError Bytes := do
  let key ← newTransportAEAD crypto sharedSecret
  let headerSize := 1 + aeadNonceSize
  if data.length < headerSize + aeadOverhead then
    .failed (.plain (text "transport payload too short"))
  else
    let version ← index data 0
    if version ≠ transportAEADVersion then
      .failed (.plain (text "unsupported transport payload version " ++
        text (toString version.toNat)))
    else
      let nonce ← slice data 1 headerSize
      let ciphertext ← slice data headerSize data.length
      .ofExcept (crypto.openWith key nonce ciphertext
        transportAEADAdditionalData)

end

/-- Opening what was sealed under the same key, nonce and additional data
gives the plaintext back, and sealing adds the tag's length. -/
structure NodePrimitives.SealsAndOpens (crypto : NodePrimitives) : Prop where
  opens : ∀ key nonce plaintext data,
    crypto.openWith key nonce (crypto.sealWith key nonce plaintext data) data =
      .ok plaintext
  length : ∀ key nonce plaintext data,
    (crypto.sealWith key nonce plaintext data).length =
      plaintext.length + aeadOverhead

theorem decryptTransportPayload_of_encrypt
    {crypto : NodePrimitives} (haead : crypto.SealsAndOpens)
    {payload sharedSecret frame : Bytes}
    {nonce : Except CoreError (List.Vector UInt8 aeadNonceSize)}
    (hframe : encryptTransportPayload crypto payload sharedSecret nonce =
      .returned frame) :
    decryptTransportPayload crypto frame sharedSecret = .returned payload := by
  unfold encryptTransportPayload at hframe
  rcases Outcome.bind_eq_returned_iff.mp hframe with ⟨key, hkey, hframe⟩
  rcases Outcome.bind_eq_returned_iff.mp hframe with ⟨bytes, -, hframe⟩
  simp only [Outcome.pure_eq_returned, Outcome.returned.injEq] at hframe
  have hnonce : bytes.toList.length = aeadNonceSize := bytes.2
  generalize bytes.toList = sent at hframe hnonce
  have hsealed := haead.length key sent payload
    transportAEADAdditionalData
  have hlength : frame.length =
      1 + aeadNonceSize + (payload.length + aeadOverhead) := by
    rw [← hframe]
    simp [hsealed]
    omega
  unfold decryptTransportPayload
  rw [hkey, Outcome.returned_bind, if_neg (by omega)]
  have hversion : index frame 0 =
      (.returned transportAEADVersion : Outcome CoreError UInt8) := by
    rw [← hframe]
    exact index_of_drop_eq List.drop_zero
  have hslice : slice frame 1 (1 + aeadNonceSize) =
      (.returned sent : Outcome CoreError Bytes) := by
    rw [← hnonce, ← hframe]
    exact slice_of_drop_eq (by simp) rfl
  have hrest : frame.drop (1 + aeadNonceSize) =
      crypto.sealWith key sent payload transportAEADAdditionalData := by
    rw [← hnonce, ← hframe, Nat.add_comm, List.cons_append, List.drop_succ_cons,
      List.drop_left]
  have hciphertext : slice frame (1 + aeadNonceSize) frame.length =
      (.returned (crypto.sealWith key sent payload
        transportAEADAdditionalData) : Outcome CoreError Bytes) := by
    rw [slice, if_pos ⟨by omega, le_rfl⟩, hrest, List.take_of_length_le]
    omega
  simp only [hversion, Outcome.returned_bind, ne_eq, not_true_eq_false, if_false,
    hslice, hciphertext, Outcome.ofExcept_eq_returned_iff]
  exact haead.opens _ _ _ _

end GoP2P.Node
