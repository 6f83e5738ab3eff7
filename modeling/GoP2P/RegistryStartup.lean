import GoP2P.AllowlistFile
import GoP2P.Json
import GoP2P.PeerSelection
import GoP2P.RegistrySaving
import Mathlib.Data.List.ReduceOption

/-!
# Starting the registry

`NewPeerRegistryWithPath` reads the peers file and the sidecar with the
allowlist.  A file that cannot be read or decoded is passed over.  The peers
file decodes to a list of pointers, of which a `null` in the file is nil, and
the loop that fills the map asks each of them for its ID.
-/

namespace GoP2P

/-- A caller that goes on with another value when the call has failed. -/
def Outcome.orElse {ε α : Type*} (outcome : Outcome ε α) (other : α) :
    Outcome ε α :=
  match outcome with
  | .failed _ => .returned other
  | outcome => outcome

end GoP2P

namespace GoP2P.Node.Startup

/-- The answers of `coreio.Local.Exists` and `coreio.Local.Read` for a path. -/
structure StoredFile where
  present : Bool
  read : Except CoreError Bytes

/-- Reading and decoding, with the errors that the two loaders wrap alike. -/
def StoredFile.decode {α : Type} (file : StoredFile)
    (unmarshal : Bytes → Except CoreError α) (operation : String)
    (readMessage unmarshalMessage : Bytes) : Outcome CoreError α := do
  let content ← (Outcome.ofExcept file.read).mapError
    (.wrap operation readMessage)
  (Outcome.ofExcept (unmarshal content)).mapError
    (.wrap operation unmarshalMessage)

/-- What the file holds, if it can be read and decoded. -/
def StoredFile.value {α : Type} (file : StoredFile)
    (unmarshal : Bytes → Except CoreError α) : Option α :=
  (file.read >>= unmarshal).toOption

/-! ### Decoding -/

section

variable (jsonError : Bytes → CoreError)
  (decodePeer : Json (List Char) → Except CoreError Peer)

/-- An element of a `[]*Peer`; `null` is the nil pointer. -/
def decodePointer : Json (List Char) → Except CoreError (Option Peer)
  | .null => .ok none
  | element => (decodePeer element).map some

/-- `core.JSONUnmarshal` into a `[]*Peer`; `null` is the nil slice. -/
def unmarshalPeers (data : Bytes) : Except CoreError (List (Option Peer)) :=
  match Json.parse data with
  | some .null => .ok []
  | some (.array elements) => elements.mapM (decodePointer decodePeer)
  | _ => .error (jsonError data)

/-- `core.JSONUnmarshal` into a `[]string`, where `null` leaves an element
empty. -/
def unmarshalKeys (data : Bytes) : Except CoreError (List Bytes) :=
  match Json.parse data with
  | some .null => .ok []
  | some (.array elements) =>
      elements.mapM fun element =>
        match element with
        | .null => .ok []
        | .string key => .ok (utf8 key)
        | _ => .error (jsonError data)
  | _ => .error (jsonError data)

/-! ### The constructor -/

variable {τ : Type} (index : SpatialIndex Bytes τ)

/-- The loop of `load`.  `peer.ID` of a nil pointer panics. -/
def storePeers (peers : Finmap fun _ : Bytes => Peer) :
    List (Option Peer) → Outcome CoreError (Finmap fun _ : Bytes => Peer)
  | [] => .returned peers
  | none :: _ => .panicked
  | some peer :: rest => storePeers (peers.insert peer.id peer) rest

def load (s : IndexedRegistry τ) (file : StoredFile) :
    Outcome CoreError (IndexedRegistry τ) := do
  let peers ← file.decode (unmarshalPeers jsonError decodePeer)
    "PeerRegistry.load" (text "failed to read peers")
    (text "failed to unmarshal peers")
  let table ← storePeers ∅ peers
  pure { s with
    registry := { s.registry with peers := table }
    stale := true }

def loadAllowedPublicKeys (s : IndexedRegistry τ) (file : StoredFile) :
    Outcome CoreError (IndexedRegistry τ) :=
  if file.present = false then .returned s
  else do
    let keys ← file.decode (unmarshalKeys jsonError)
      "PeerRegistry.loadAllowedPublicKeys" (text "failed to read allowlist")
      (text "failed to unmarshal allowlist")
    pure { s with
      registry := { s.registry with allowedPublicKeys := storeKeys keys } }

/-- `order` is the order in which the map is ranged over when the tree is
built. -/
def newPeerRegistryWithPath (peersFile allowlistFile : StoredFile)
    (order : List Peer) : Outcome CoreError (IndexedRegistry τ) := do
  let s ← (load jsonError decodePeer {} peersFile).orElse
    (({} : IndexedRegistry τ).rebuildKDTree index order)
  let s ← (loadAllowedPublicKeys jsonError s allowlistFile).orElse s
  pure (s.rebuildKDTree index order)

/-! ### What the files hold -/

def storedPeers (file : StoredFile) : Option (List (Option Peer)) :=
  file.value (unmarshalPeers jsonError decodePeer)

def storedKeys (file : StoredFile) : Option (List Bytes) :=
  if file.present = false then none
  else file.value (unmarshalKeys jsonError)

/-- No peers if their file cannot be used, and else the records of the file,
each under its own ID and the last one of those with the same ID; no allowed
keys if their file cannot be used, and else the keys of the file that are not
empty. -/
structure LoadedFrom (peersFile allowlistFile : StoredFile)
    (r : PeerRegistry) : Prop where
  no_peers : storedPeers jsonError decodePeer peersFile = none → r.peers = ∅
  peers : ∀ entries, storedPeers jsonError decodePeer peersFile = some entries →
    ∀ id, r.getPeer id = entries.reduceOption.reverse.find? (·.id = id)
  no_keys : storedKeys jsonError allowlistFile = none →
    r.allowedPublicKeys = ∅
  keys : ∀ keys, storedKeys jsonError allowlistFile = some keys →
    ∀ key, key ∈ r.allowedPublicKeys ↔ key ∈ keys ∧ key ≠ []

end

/-! ### The loops -/

theorem storePeers_of_none_mem {entries : List (Option Peer)}
    (hnone : none ∈ entries) (peers : Finmap fun _ : Bytes => Peer) :
    storePeers peers entries = .panicked := by
  induction entries generalizing peers with
  | nil => cases hnone
  | cons entry rest ih =>
      cases entry with
      | none => rfl
      | some peer =>
          have hrest : none ∈ rest := by simpa using hnone
          exact ih hrest _

theorem storePeers_of_none_notMem {entries : List (Option Peer)}
    (hnone : none ∉ entries) (peers : Finmap fun _ : Bytes => Peer) :
    storePeers peers entries =
      .returned (entries.reduceOption.foldl
        (fun table peer => table.insert peer.id peer) peers) := by
  induction entries generalizing peers with
  | nil => rfl
  | cons entry rest ih =>
      rw [List.mem_cons, not_or] at hnone
      cases entry with
      | none => exact absurd rfl hnone.1
      | some peer =>
          rw [List.reduceOption_cons_of_some, List.foldl_cons]
          exact ih hnone.2 _

/-! ### The outcome of a start -/

theorem StoredFile.decode_cases {α : Type} (file : StoredFile)
    (unmarshal : Bytes → Except CoreError α) (operation : String)
    (readMessage unmarshalMessage : Bytes) :
    (file.value unmarshal = none ∧ ∃ error,
      file.decode unmarshal operation readMessage unmarshalMessage =
        .failed error) ∨
    ∃ value, file.value unmarshal = some value ∧
      file.decode unmarshal operation readMessage unmarshalMessage =
        .returned value := by
  unfold decode value
  cases file.read with
  | error error => exact .inl ⟨rfl, _, rfl⟩
  | ok content =>
      dsimp only [Outcome.ofExcept, Outcome.mapError]
      rw [Outcome.returned_bind]
      change ((unmarshal content).toOption = none ∧ _) ∨
        ∃ value, (unmarshal content).toOption = some value ∧ _
      cases unmarshal content with
      | error error => exact .inl ⟨rfl, _, rfl⟩
      | ok value => exact .inr ⟨value, rfl, rfl⟩

/-- The registry with other allowed keys. -/
def withKeys {τ : Type} (s : IndexedRegistry τ) (keys : Finset Bytes) :
    IndexedRegistry τ :=
  { s with registry := { s.registry with allowedPublicKeys := keys } }

theorem rebuildKDTree_withKeys {τ : Type} (index : SpatialIndex Bytes τ)
    (s : IndexedRegistry τ) (keys : Finset Bytes) (order : List Peer) :
    (withKeys s keys).rebuildKDTree index order =
      withKeys (s.rebuildKDTree index order) keys := by
  unfold IndexedRegistry.rebuildKDTree withKeys
  dsimp only
  split_ifs
  · rfl
  · split <;> rfl

theorem rebuildKDTree_registry {τ : Type} (index : SpatialIndex Bytes τ)
    (s : IndexedRegistry τ) (order : List Peer) :
    (s.rebuildKDTree index order).registry = s.registry := by
  unfold IndexedRegistry.rebuildKDTree
  split_ifs
  · rfl
  · split <;> rfl

section

variable {jsonError : Bytes → CoreError}
  {decodePeer : Json (List Char) → Except CoreError Peer}
  {τ : Type} {index : SpatialIndex Bytes τ}
  {peersFile allowlistFile : StoredFile}

theorem load_of_none_notMem
    (hnone : ∀ entries, storedPeers jsonError decodePeer peersFile =
      some entries → none ∉ entries) (order : List Peer) :
    (load jsonError decodePeer {} peersFile).orElse
        (({} : IndexedRegistry τ).rebuildKDTree index order) =
      .returned (match storedPeers jsonError decodePeer peersFile with
        | none => ({} : IndexedRegistry τ).rebuildKDTree index order
        | some entries =>
            ({} : IndexedRegistry τ).load (some entries.reduceOption)) := by
  unfold load storedPeers at *
  rcases peersFile.decode_cases (unmarshalPeers jsonError decodePeer)
      "PeerRegistry.load" (text "failed to read peers")
      (text "failed to unmarshal peers") with
    ⟨hvalue, error, hfailed⟩ | ⟨entries, hvalue, hreturned⟩
  · rw [hfailed, hvalue]
    rfl
  · rw [hreturned, hvalue, Outcome.returned_bind,
      storePeers_of_none_notMem (hnone entries hvalue)]
    rfl

theorem loadAllowedPublicKeys_eq (s : IndexedRegistry τ) :
    (loadAllowedPublicKeys jsonError s allowlistFile).orElse s =
      .returned (match storedKeys jsonError allowlistFile with
        | none => s
        | some keys => withKeys s (storeKeys keys)) := by
  unfold loadAllowedPublicKeys storedKeys
  split_ifs with hpresent
  · rfl
  · rcases allowlistFile.decode_cases (unmarshalKeys jsonError)
        "PeerRegistry.loadAllowedPublicKeys" (text "failed to read allowlist")
        (text "failed to unmarshal allowlist") with
      ⟨hvalue, error, hfailed⟩ | ⟨keys, hvalue, hreturned⟩
    · rw [hfailed, hvalue]
      rfl
    · rw [hreturned, hvalue]
      rfl

/-- A start on a peers file without `null` is the one on its records, with the
allowlist beside it. -/
theorem newPeerRegistryWithPath_eq
    (hnone : ∀ entries, storedPeers jsonError decodePeer peersFile =
      some entries → none ∉ entries) (order : List Peer) :
    newPeerRegistryWithPath jsonError decodePeer index peersFile allowlistFile
        order =
      .returned (withKeys
        (IndexedRegistry.newPeerRegistryWithPath index
          ((storedPeers jsonError decodePeer peersFile).map List.reduceOption)
          order)
        (((storedKeys jsonError allowlistFile).map storeKeys).getD ∅)) := by
  have hloaded : ∃ s : IndexedRegistry τ,
      (load jsonError decodePeer {} peersFile).orElse
        (({} : IndexedRegistry τ).rebuildKDTree index order) = .returned s ∧
      s.registry.allowedPublicKeys = ∅ ∧
      s.rebuildKDTree index order =
        IndexedRegistry.newPeerRegistryWithPath index
          ((storedPeers jsonError decodePeer peersFile).map List.reduceOption)
          order := by
    refine ⟨_, load_of_none_notMem hnone order, ?_⟩
    cases storedPeers jsonError decodePeer peersFile with
    | none => exact ⟨by rw [rebuildKDTree_registry], rfl⟩
    | some entries => exact ⟨rfl, rfl⟩
  obtain ⟨s, hload, hempty, hrebuilt⟩ := hloaded
  unfold newPeerRegistryWithPath
  rw [hload, Outcome.returned_bind, loadAllowedPublicKeys_eq,
    Outcome.returned_bind, ← hrebuilt, ← rebuildKDTree_withKeys]
  cases storedKeys jsonError allowlistFile with
  | none =>
      have hsame : withKeys s ∅ = s := by
        unfold withKeys
        rw [← hempty]
      change Outcome.returned (s.rebuildKDTree index order) =
        .returned ((withKeys s ∅).rebuildKDTree index order)
      rw [hsame]
  | some keys => rfl

theorem newPeerRegistryWithPath_panics {entries : List (Option Peer)}
    (hstored : storedPeers jsonError decodePeer peersFile = some entries)
    (hnone : none ∈ entries) (order : List Peer) :
    newPeerRegistryWithPath jsonError decodePeer index peersFile allowlistFile
      order = .panicked := by
  unfold newPeerRegistryWithPath load
  rcases peersFile.decode_cases (unmarshalPeers jsonError decodePeer)
      "PeerRegistry.load" (text "failed to read peers")
      (text "failed to unmarshal peers") with
    ⟨hvalue, -⟩ | ⟨decoded, hvalue, hreturned⟩
  · exact absurd (hstored.symm.trans hvalue) (by simp)
  · cases hstored.symm.trans hvalue
    rw [hreturned, Outcome.returned_bind, storePeers_of_none_mem hnone]
    rfl

theorem newPeerRegistryWithPath_peers (index : SpatialIndex Bytes τ)
    (content : Option (List Peer)) (order : List Peer) :
    (IndexedRegistry.newPeerRegistryWithPath index content
      order).registry.peers = (content.map (tabulate Peer.id)).getD ∅ := by
  unfold IndexedRegistry.newPeerRegistryWithPath
  rw [rebuildKDTree_registry]
  cases content with
  | none =>
      dsimp only [Option.isNone]
      rw [if_pos rfl, rebuildKDTree_registry]
      rfl
  | some records => rfl

theorem loadedFrom_newPeerRegistryWithPath (order : List Peer) :
    LoadedFrom jsonError decodePeer peersFile allowlistFile
      (withKeys
        (IndexedRegistry.newPeerRegistryWithPath index
          ((storedPeers jsonError decodePeer peersFile).map List.reduceOption)
          order)
        (((storedKeys jsonError allowlistFile).map storeKeys).getD ∅)).registry
          := by
  constructor
  · intro hstored
    change (IndexedRegistry.newPeerRegistryWithPath index _
      order).registry.peers = ∅
    rw [newPeerRegistryWithPath_peers, hstored]
    rfl
  · intro entries hstored id
    change (IndexedRegistry.newPeerRegistryWithPath index _
      order).registry.peers.lookup id = _
    rw [newPeerRegistryWithPath_peers, hstored]
    exact lookup_tabulate Peer.id entries.reduceOption id
  · intro hstored
    change ((storedKeys jsonError allowlistFile).map storeKeys).getD ∅ = ∅
    rw [hstored]
    rfl
  · intro keys hstored key
    change key ∈ ((storedKeys jsonError allowlistFile).map storeKeys).getD ∅ ↔ _
    rw [hstored]
    exact mem_storeKeys_iff keys key

/-- The answers for a file of which only the content is kept. -/
def StoredFile.ofDisk (disk : Directory UInt8) (absent : CoreError) :
    StoredFile :=
  ⟨disk.read.isSome, disk.read.elim (.error absent) .ok⟩

theorem StoredFile.value_ofDisk {α : Type} (disk : Directory UInt8)
    (absent : CoreError) (unmarshal : Bytes → Except CoreError α) :
    (ofDisk disk absent).value unmarshal =
      disk.read.bind fun content => (unmarshal content).toOption := by
  unfold value ofDisk
  cases disk.read <;> rfl

/-- On the content of the two files alone, the start loads what the savers of
the peers and of the allowlist expect of it. -/
theorem newPeerRegistryWithPath_ofDisk (peersCodec : PeersCodec UInt8)
    (allowlistCodec : AllowlistCodec UInt8)
    (hpeersCodec : ∀ data, peersCodec.unmarshal data =
      (unmarshalPeers jsonError decodePeer data).toOption.map List.reduceOption)
    (hkeysCodec : ∀ data, allowlistCodec.unmarshal data =
      (unmarshalKeys jsonError data).toOption)
    (peers keys : Directory UInt8) (absent : CoreError)
    (hnone : ∀ entries, storedPeers jsonError decodePeer
      (.ofDisk peers absent) = some entries → none ∉ entries)
    (order : List Peer) :
    ∃ s, newPeerRegistryWithPath jsonError decodePeer index
        (.ofDisk peers absent) (.ofDisk keys absent) order = .returned s ∧
      s.registry.peers = loadPeers peersCodec peers ∧
      s.registry.allowedPublicKeys =
        Node.loadAllowedPublicKeys allowlistCodec keys := by
  refine ⟨_, newPeerRegistryWithPath_eq hnone order, ?_, ?_⟩
  · refine (newPeerRegistryWithPath_peers index _ order).trans ?_
    rw [loadPeers, storedPeers, StoredFile.value_ofDisk]
    cases peers.read with
    | none => rfl
    | some content => simp [hpeersCodec]
  · change ((storedKeys jsonError _).map storeKeys).getD ∅ = _
    rw [Node.loadAllowedPublicKeys, storedKeys, StoredFile.value_ofDisk,
      StoredFile.ofDisk]
    cases keys.read with
    | none => rfl
    | some content => simp [hkeysCodec]

variable (jsonError decodePeer index peersFile allowlistFile) in
/-- The start returns the registry that the two files describe exactly if the
array in the peers file, should there be one that decodes, has no `null`. -/
theorem startup_tolerates_iff (order : List Peer) :
    (∃ s, newPeerRegistryWithPath jsonError decodePeer index peersFile
        allowlistFile order = .returned s ∧
      LoadedFrom jsonError decodePeer peersFile allowlistFile s.registry) ↔
    ∀ entries, storedPeers jsonError decodePeer peersFile = some entries →
      none ∉ entries := by
  constructor
  · rintro ⟨s, hreturned, -⟩ entries hstored hnone
    rw [newPeerRegistryWithPath_panics hstored hnone] at hreturned
    cases hreturned
  · intro hnone
    exact ⟨_, newPeerRegistryWithPath_eq hnone order,
      loadedFrom_newPeerRegistryWithPath order⟩

end

/-! ### A file with a `null` -/

def sampleJsonError (_ : Bytes) : CoreError :=
  .plain (text "json: cannot unmarshal")

/-- A record of which only the ID is decoded. -/
def sampleDecodePeer : Json (List Char) → Except CoreError Peer
  | .object [(_, .string id)] => .ok { id := utf8 id }
  | _ => .error (.plain (text "json: cannot unmarshal"))

theorem null_peer_panics_at_start :
    newPeerRegistryWithPath sampleJsonError sampleDecodePeer
      (SpatialIndex.scan Bytes) ⟨true, .ok (text "[null]")⟩
      ⟨false, .error .eof⟩ [] = .panicked := by
  have hstored : storedPeers sampleJsonError sampleDecodePeer
      ⟨true, .ok (text "[null]")⟩ = some [none] := by
    decide +kernel
  exact newPeerRegistryWithPath_panics hstored (by simp) []

end GoP2P.Node.Startup
