import GoP2P.CoreError
import GoP2P.Tlv

/-!
# Building UEPS packets

The builder writes five header TLVs, signs them together with the raw payload
and appends the signature and the payload as two more TLVs.  The MAC and the
key derivation are parameters: `Primitives` has one field for each of the two
library calls, with the arguments the source passes.
-/

namespace GoP2P.Ueps

def tagVersion : UInt8 := 0x01
def tagCurrentLay : UInt8 := 0x02
def tagTargetLay : UInt8 := 0x03
def tagIntent : UInt8 := 0x04
def tagThreatScore : UInt8 := 0x05
def tagHMAC : UInt8 := 0x06
def tagPayload : UInt8 := 0xFF

def uepsMACKeyInfoV1 : Bytes := text "lthn-p2p-mac-v1"

def sha256Size : ℕ := 32

structure UEPSHeader where
  version : UInt8 := 0
  currentLayer : UInt8 := 0
  targetLayer : UInt8 := 0
  intentID : UInt8 := 0
  threatScore : UInt16 := 0
  deriving DecidableEq, Repr

structure PacketBuilder where
  header : UEPSHeader
  payload : Bytes
  deriving DecidableEq, Repr

def newBuilder (intentID : UInt8) (payload : Bytes) : PacketBuilder where
  header :=
    { version := 0x09, currentLayer := 5, targetLayer := 5,
      intentID := intentID, threatScore := 0 }
  payload := payload

/-- The library calls of the package: `hkdf.Expand` on a secret, an info
string and a key length, and HMAC-SHA256 of a message under a key. -/
structure Primitives where
  expand : Bytes → Bytes → ℕ → Except CoreError Bytes
  hmac : Bytes → Bytes → Bytes

/-- For each key an injective map from messages to non-empty tags. -/
structure Primitives.IdealMac (crypto : Primitives) : Prop where
  injective : ∀ key, Function.Injective (crypto.hmac key)
  nonempty : ∀ key message, crypto.hmac key message ≠ []

def derivePacketMACKey (crypto : Primitives) (sharedSecret : Bytes) :
    Outcome CoreError Bytes :=
  match crypto.expand sharedSecret uepsMACKeyInfoV1 sha256Size with
  | .ok key => .returned key
  | .error err => .failed (.formatted (text "derive UEPS MAC key: ") err)

/-- Append one TLV.  Writes to the in-memory buffer do not fail. -/
def writeTLV (buf : Bytes) (tag : UInt8) (value : Bytes) :
    Outcome CoreError Bytes :=
  if value.length > 65535 then
    .failed (.op "ueps.writeTLV"
      (text "TLV value too large for 2-byte length header"))
  else .returned (buf ++ [tag] ++ beBytes 2 value.length ++ value)

def PacketBuilder.marshalAndSign
    (crypto : Primitives) (p : PacketBuilder) (sharedSecret : Bytes) :
    Outcome CoreError Bytes := do
  let buf ← writeTLV [] tagVersion [p.header.version]
  let buf ← writeTLV buf tagCurrentLay [p.header.currentLayer]
  let buf ← writeTLV buf tagTargetLay [p.header.targetLayer]
  let buf ← writeTLV buf tagIntent [p.header.intentID]
  let tsBuf := beBytes 2 p.header.threatScore.toNat
  let buf ← writeTLV buf tagThreatScore tsBuf
  let macKey ← derivePacketMACKey crypto sharedSecret
  let signature := crypto.hmac macKey (buf ++ p.payload)
  let buf ← writeTLV buf tagHMAC signature
  writeTLV buf tagPayload p.payload

/-! ## The frame as a sequence of TLVs -/

def PacketBuilder.routingTlvs (p : PacketBuilder) : List Tlv :=
  [⟨tagVersion, [p.header.version], by simp⟩,
    ⟨tagCurrentLay, [p.header.currentLayer], by simp⟩,
    ⟨tagTargetLay, [p.header.targetLayer], by simp⟩,
    ⟨tagIntent, [p.header.intentID], by simp⟩]

def PacketBuilder.threatTlv (p : PacketBuilder) : Tlv :=
  ⟨tagThreatScore, beBytes 2 p.header.threatScore.toNat, by simp⟩

def PacketBuilder.headerTlvs (p : PacketBuilder) : List Tlv :=
  p.routingTlvs ++ [p.threatTlv]

/-- What the builder signs: the header TLVs followed by the bare payload. -/
def PacketBuilder.signedBytes (p : PacketBuilder) : Bytes :=
  Tlv.encodeAll p.headerTlvs ++ p.payload

theorem writeTLV_eq_returned_iff
    {buf : Bytes} {tag : UInt8} {value out : Bytes} :
    writeTLV buf tag value = .returned out ↔
      ∃ hfits : value.length ≤ 65535,
        out = buf ++ (Tlv.mk tag value hfits).encode := by
  unfold writeTLV
  split_ifs with hlong
  · simp [Nat.not_le.mpr hlong]
  · have hfits : value.length ≤ 65535 := by omega
    simp [hfits, Tlv.encode, eq_comm]

theorem PacketBuilder.header_writes
    (p : PacketBuilder) (next : Bytes → Outcome CoreError Bytes) :
    (do
      let buf ← writeTLV [] tagVersion [p.header.version]
      let buf ← writeTLV buf tagCurrentLay [p.header.currentLayer]
      let buf ← writeTLV buf tagTargetLay [p.header.targetLayer]
      let buf ← writeTLV buf tagIntent [p.header.intentID]
      let buf ← writeTLV buf tagThreatScore
        (beBytes 2 p.header.threatScore.toNat)
      next buf) = next (Tlv.encodeAll p.headerTlvs) := by
  simp [writeTLV, PacketBuilder.headerTlvs, PacketBuilder.routingTlvs,
    PacketBuilder.threatTlv, Tlv.encode]

/-- The bytes of a signed packet.  A packet is produced exactly when a key is
derived and both the signature and the payload fit a TLV. -/
theorem PacketBuilder.marshalAndSign_eq_returned_iff
    {crypto : Primitives} {p : PacketBuilder} {sharedSecret frame : Bytes} :
    p.marshalAndSign crypto sharedSecret = .returned frame ↔
      ∃ macKey,
        derivePacketMACKey crypto sharedSecret = .returned macKey ∧
        ∃ (hsig : (crypto.hmac macKey p.signedBytes).length ≤ 65535)
          (hpayload : p.payload.length ≤ 65535),
          frame = Tlv.encodeAll
            (p.headerTlvs ++
              [⟨tagHMAC, crypto.hmac macKey p.signedBytes, hsig⟩,
                ⟨tagPayload, p.payload, hpayload⟩]) := by
  unfold PacketBuilder.marshalAndSign
  rw [p.header_writes]
  simp only [Outcome.bind_eq_returned_iff, writeTLV_eq_returned_iff]
  constructor
  · rintro ⟨macKey, hkey, _, ⟨hsig, rfl⟩, hpayload, rfl⟩
    exact ⟨macKey, hkey, hsig, hpayload,
      by simp [PacketBuilder.signedBytes]⟩
  · rintro ⟨macKey, hkey, hsig, hpayload, rfl⟩
    exact ⟨macKey, hkey, _, ⟨hsig, rfl⟩, hpayload,
      by simp [PacketBuilder.signedBytes]⟩

end GoP2P.Ueps
