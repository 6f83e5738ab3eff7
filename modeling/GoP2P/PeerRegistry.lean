import GoP2P.Traced
import GoP2P.CoreError
import Mathlib.Data.Finmap

/-!
# The peer registry

The peers a node knows, by ID, and the settings that decide whom it lets in.
A Go map is a `Finmap`, and the allowlist, whose stored values are all `true`,
is the set of its keys.  Persistence and the KD-tree are not part of this
model; the float metrics are rationals.
-/

namespace GoP2P.Node

/-- Nanoseconds since the zero time. -/
abbrev Time := ℤ

inductive NodeRole where
  | controller
  | worker
  | dual
  | other (name : Bytes)
  deriving DecidableEq, Repr

structure Peer where
  id : Bytes := []
  name : Bytes := []
  publicKey : Bytes := []
  address : Bytes := []
  role : NodeRole := .other []
  addedAt : Time := 0
  lastSeen : Time := 0
  latitude : ℚ := 0
  longitude : ℚ := 0
  pingMS : ℚ := 0
  hops : ℤ := 0
  geoKM : ℚ := 0
  score : ℚ := 0
  connected : Bool := false
  deriving DecidableEq, Repr

inductive PeerAuthMode where
  | openMode
  | allowlist
  deriving DecidableEq, Repr

structure PeerRegistry where
  peers : Finmap (fun _ : Bytes => Peer) := ∅
  authMode : PeerAuthMode := .openMode
  allowedPublicKeys : Finset Bytes := ∅

/-! ### Peer names -/

def peerNameMaxLength : ℕ := 64

def isAlphanumeric (byte : UInt8) : Bool :=
  (0x61 ≤ byte && byte ≤ 0x7a) || (0x41 ≤ byte && byte ≤ 0x5a) ||
    (0x30 ≤ byte && byte ≤ 0x39)

def isNameByte (byte : UInt8) : Bool :=
  isAlphanumeric byte || byte == 0x2d || byte == 0x5f || byte == 0x20

/-- The two alternatives of the expression: a single alphanumeric character,
or two of them around at most 62 name characters. -/
def peerNameRegex (name : Bytes) : Bool :=
  match name with
  | [] => false
  | [only] => isAlphanumeric only
  | first :: last :: rest =>
      let middle := (last :: rest).dropLast
      isAlphanumeric first && middle.length ≤ 62 && middle.all isNameByte &&
        isAlphanumeric ((last :: rest).getLast (by simp))

def validatePeerName (name : Bytes) : Outcome CoreError Unit :=
  if name = [] then
    .returned ()
  else if name.length > peerNameMaxLength then
    .failed (.op "validatePeerName" (text "peer name too long"))
  else if !peerNameRegex name then
    .failed (.op "validatePeerName"
      (text ("peer name contains invalid characters " ++
        "(use alphanumeric, hyphens, underscores, spaces)")))
  else
    .returned ()

namespace PeerRegistry

/-! ### Authorisation -/

def setAuthMode (r : PeerRegistry) (mode : PeerAuthMode) : PeerRegistry :=
  { r with authMode := mode }

def allowPublicKey (r : PeerRegistry) (publicKey : Bytes) : PeerRegistry :=
  { r with allowedPublicKeys := insert publicKey r.allowedPublicKeys }

def revokePublicKey (r : PeerRegistry) (publicKey : Bytes) : PeerRegistry :=
  { r with allowedPublicKeys := r.allowedPublicKeys.erase publicKey }

def isPublicKeyAllowed (r : PeerRegistry) (publicKey : Bytes) : Bool :=
  publicKey ∈ r.allowedPublicKeys

def isPeerAllowed (r : PeerRegistry) (peerID publicKey : Bytes) : Bool :=
  let keyAllowed := r.isPublicKeyAllowed publicKey
  if r.authMode = .openMode then
    true
  else if (r.peers.lookup peerID).isSome then
    true
  else
    keyAllowed

/-! ### Peers -/

def getPeer (r : PeerRegistry) (id : Bytes) : Option Peer := r.peers.lookup id

def addPeer (r : PeerRegistry) (now : Time) (peer : Peer) :
    Outcome CoreError PeerRegistry :=
  if peer.id = [] then
    .failed (.op "PeerRegistry.AddPeer" (text "peer ID is required"))
  else
    (validatePeerName peer.name).bind fun _ =>
      if (r.peers.lookup peer.id).isSome then
        .failed (.op "PeerRegistry.AddPeer"
          (text "peer " ++ peer.id ++ text " already exists"))
      else
        let stored :=
          { peer with
            addedAt := if peer.addedAt = 0 then now else peer.addedAt
            score := if peer.score = 0 then 50 else peer.score }
        .returned { r with peers := r.peers.insert peer.id stored }

def updatePeer (r : PeerRegistry) (peer : Peer) :
    Outcome CoreError PeerRegistry :=
  if (r.peers.lookup peer.id).isSome then
    .returned { r with peers := r.peers.insert peer.id peer }
  else
    .failed (.op "PeerRegistry.UpdatePeer"
      (text "peer " ++ peer.id ++ text " not found"))

def setConnected (r : PeerRegistry) (now : Time) (id : Bytes)
    (connected : Bool) : PeerRegistry :=
  match r.peers.lookup id with
  | none => r
  | some peer =>
      let seen :=
        { peer with
          connected := connected
          lastSeen := if connected then now else peer.lastSeen }
      { r with peers := r.peers.insert id seen }

theorem isPeerAllowed_iff_of_allowlist
    {r : PeerRegistry} (hmode : r.authMode = .allowlist)
    (peerID publicKey : Bytes) :
    r.isPeerAllowed peerID publicKey = true ↔
      publicKey ∈ r.allowedPublicKeys ∨
        ∃ peer, r.getPeer peerID = some peer := by
  unfold isPeerAllowed isPublicKeyAllowed getPeer
  rw [hmode]
  cases hlookup : r.peers.lookup peerID with
  | none | some => simp

end PeerRegistry

end GoP2P.Node
