import GoP2P.Runs
import GoP2P.Processes
import GoP2P.Tables
import GoP2P.PeerOperations
import GoP2P.TransportAdmission

/-!
# Calls in progress on one transport

Any number of inbound and outbound handshakes, closes and announcements run on
one transport at once.  A call is the values of its local variables and the
point it has reached, and one step takes it over one access to shared state:
reading the size of `conns`, adding to `pendingConns`, one registry method, one
critical section of the transport.  Between two steps of a call any other call
may take steps.  What goes over the wire in answer is left to the model of a
whole call.
-/

namespace GoP2P.Node

/-! ### Inbound handshakes -/

/-- The point a call of `handleWSUpgrade` has reached. -/
inductive UpgradeStage where
  | arrived
  | counted
  | admitted
  | handshaking
  | presented
  | screened
  | authorised
  | unregistered
  | named
  | acknowledged
  | stored
  | leaving
  | returned
  deriving DecidableEq, Repr

structure UpgradeCall where
  stage : UpgradeStage := .arrived
  currentConns : ℕ := 0
  payload : HandshakePayload := {}
  sharedSecret : Bytes := []
  authMode : PeerAuthMode := .openMode
  keyAllowed : Bool := false
  isRegistered : Bool := false
  peer : Peer := {}
  connection : Option ℕ := none
  deriving DecidableEq, Repr

namespace Transport

section

variable (crypto : NodePrimitives) (codec : Codec)

def newConnection (now : Time) (peer : Peer) (sharedSecret : Bytes) :
    PeerConnection :=
  { peer := peer, sharedSecret := sharedSecret, lastActivity := now,
    rateLimiter := some (newPeerRateLimiter now 100 50) }

/-- The connection is put into `conns`; the registry does not know yet. -/
def addConnection (t : Transport) (pc : PeerConnection) : Transport :=
  { t with
    connections := t.connections ++ [pc]
    conns := t.conns.insert pc.peer.id t.connections.length }

/-- From the upgrade to the shared secret: the handshake of the client, when
nothing was wrong with it so far. -/
def receivedHandshake (t : Transport) (input : UpgradeInput) :
    Option (HandshakePayload × Bytes) :=
  if !input.upgraded then
    none
  else
    match t.presentedHandshake codec input with
    | none => none
    | some payload =>
        if !isProtocolVersionSupported payload.version then
          none
        else
          match t.node.deriveSharedSecret crypto
              payload.identity.publicKey with
          | .returned sharedSecret => some (payload, sharedSecret)
          | _ => none

/-- Whether the acknowledgement could be made and was written. -/
def sendsAck (t : Transport) (input : UpgradeInput)
    (payload : HandshakePayload) (sharedSecret peerID : Bytes) : Bool :=
  match t.node.identity with
  | none => false
  | some identity =>
      match challengeResponse crypto payload.challenge sharedSecret with
      | .returned response =>
          let ack : HandshakeAckPayload :=
            { identity := identity, challengeResponse := response,
              accepted := true }
          let ackData := do
            let ackMsg ← newMessage input.messageID input.now .handshakeAck
              identity.id peerID (codec.marshalAck ack)
            Outcome.ofExcept (codec.marshalMessage ackMsg)
          match ackData with
          | .returned _ => input.written
          | _ => false
      | _ => false

/-- The peer that is registered for an identity not yet known. -/
def peerOf (now : Time) (identity : NodeIdentity) : Peer :=
  { id := identity.id, name := identity.name,
    publicKey := identity.publicKey, role := identity.role,
    addedAt := now, score := 50 }

/-- One step of `handleWSUpgrade`.  `IsPeerAllowed` takes two, one under each
of the registry's locks. -/
def advanceUpgrade (t : Transport) (call : UpgradeCall)
    (input : UpgradeInput) : Transport × UpgradeCall :=
  match call.stage with
  | .arrived =>
      (t, { call with stage := .counted, currentConns := t.conns.keys.card })
  | .counted =>
      if (call.currentConns : ℤ) + t.pendingConns ≥ t.config.maxConns then
        (t, { call with stage := .returned })
      else
        (t, { call with stage := .admitted })
  | .admitted =>
      ({ t with pendingConns := t.pendingConns + 1 },
        { call with stage := .handshaking })
  | .handshaking =>
      match t.receivedHandshake crypto codec input with
      | none => (t, { call with stage := .leaving })
      | some (payload, sharedSecret) =>
          (t, { call with
                stage := .presented
                payload := payload
                sharedSecret := sharedSecret })
  | .presented =>
      (t, { call with
            stage := .screened
            authMode := t.registry.authMode
            keyAllowed :=
              t.registry.isPublicKeyAllowed call.payload.identity.publicKey })
  | .screened =>
      if call.authMode = .openMode then
        (t, { call with stage := .authorised })
      else
        let isRegistered :=
          (t.registry.peers.lookup call.payload.identity.id).isSome
        (t, { call with
              stage :=
                if isRegistered || call.keyAllowed then .authorised
                else .leaving
              isRegistered := isRegistered })
  | .authorised =>
      match t.registry.getPeer call.payload.identity.id with
      | some peer => (t, { call with stage := .named, peer := peer })
      | none => (t, { call with stage := .unregistered })
  | .unregistered =>
      let peer := peerOf input.now call.payload.identity
      ({ t with
          registry := (RegistryCall.addPeer input.now peer).apply t.registry },
        { call with stage := .named, peer := peer })
  | .named =>
      (t, { call with
            stage :=
              if t.sendsAck crypto codec input call.payload call.sharedSecret
                  call.peer.id then .acknowledged
              else .leaving })
  | .acknowledged =>
      (t.addConnection (newConnection input.now call.peer call.sharedSecret),
        { call with
          stage := .stored
          connection := some t.connections.length })
  | .stored =>
      ({ t with
          registry := t.registry.setConnected input.now call.peer.id true },
        { call with stage := .leaving })
  | .leaving =>
      ({ t with pendingConns := t.pendingConns - 1 },
        { call with stage := .returned })
  | .returned => (t, call)

end

end Transport

/-! ### Outbound handshakes -/

inductive ConnectStage where
  | verified
  | unlisted
  | recorded
  | stored
  | returned
  deriving DecidableEq, Repr

namespace PeerRegistry

/-- The registry once the record it holds under these IDs has become `peer`. -/
def showing (r : PeerRegistry) (held : List Bytes) (peer : Peer) :
    PeerRegistry :=
  { r with peers := held.foldl (fun peers id => peers.insert id peer) r.peers }

theorem getPeer_showing (r : PeerRegistry) (held : List Bytes) (peer : Peer)
    (i : Bytes) :
    (r.showing held peer).getPeer i =
      if i ∈ held then some peer else r.getPeer i := by
  induction held generalizing r with
  | nil => rfl
  | cons id rest ih =>
      have hfirst := ih { r with peers := r.peers.insert id peer }
      rw [getPeer_insert] at hfirst
      change (showing { r with peers := r.peers.insert id peer } rest
        peer).getPeer i = _
      rw [hfirst]
      by_cases hi : i = id
      · simp [hi]
      · simp [hi]

end PeerRegistry

/-- A call of `Connect` whose handshake was verified: `peer` is the record
with the adopted identity, `sharedSecret` was derived from its key. -/
structure ConnectCall where
  stage : ConnectStage := .verified
  peer : Peer
  sharedSecret : Bytes
  deriving DecidableEq, Repr

namespace Transport

section

variable (crypto : NodePrimitives) (codec : Codec)

/-- The registry after `performHandshake` has read the ack into a record that
the registry holds under these IDs. -/
def registryAfterAck (registry : PeerRegistry) (peer : Peer)
    (held : List Bytes) (frame : Except CoreError Bytes) : PeerRegistry :=
  match readHandshakeAck codec frame with
  | .returned ackPayload =>
      registry.showing held (adoptIdentity peer ackPayload.identity)
  | _ => registry

/-- An accepting ack names the ID under which the registry holds the record it
is read into. -/
def AckKeepsIDs (held : List Bytes) (frame : Except CoreError Bytes) : Prop :=
  match readHandshakeAck codec frame with
  | .returned ackPayload => ∀ id ∈ held, id = ackPayload.identity.id
  | _ => True

instance (held : List Bytes) (frame : Except CoreError Bytes) :
    Decidable (AckKeepsIDs codec held frame) := by
  unfold AckKeepsIDs
  split <;> infer_instance

/-- `Connect` up to the verified ack; nothing it does before is visible to
other calls, but for what the ack writes into a record of the registry. -/
def verifiedConnect (t : Transport) (peer : Peer) (challenge : Bytes)
    (frame : Except CoreError Bytes) : Option ConnectCall :=
  match readHandshakeAck codec frame with
  | .returned ackPayload =>
      match verifyHandshakeAck crypto t.node challenge ackPayload with
      | .returned sharedSecret =>
          some
            { peer := adoptIdentity peer ackPayload.identity
              sharedSecret := sharedSecret }
      | _ => none
  | _ => none

def advanceConnect (t : Transport) (call : ConnectCall) (now : Time) :
    Transport × ConnectCall :=
  match call.stage with
  | .verified =>
      match t.registry.updatePeer call.peer with
      | .returned updated =>
          ({ t with registry := updated }, { call with stage := .recorded })
      | _ => (t, { call with stage := .unlisted })
  | .unlisted =>
      ({ t with
          registry := (RegistryCall.addPeer now call.peer).apply t.registry },
        { call with stage := .recorded })
  | .recorded =>
      (t.addConnection (newConnection now call.peer call.sharedSecret),
        { call with stage := .stored })
  | .stored =>
      ({ t with registry := t.registry.setConnected now call.peer.id true },
        { call with stage := .returned })
  | .returned => (t, call)

end

end Transport

/-! ### Closing -/

inductive CloseStage where
  | requested
  | dropped
  | unflagged
  | returned
  deriving DecidableEq, Repr

/-- The first call of `Close` or `GracefulClose` on a connection; later ones
do nothing. -/
structure CloseCall where
  connection : ℕ
  stage : CloseStage := .requested
  deriving DecidableEq, Repr

def Transport.advanceClose (t : Transport) (call : CloseCall) (now : Time) :
    Transport × CloseCall :=
  match t.connections[call.connection]? with
  | none => (t, call)
  | some pc =>
      match call.stage with
      | .requested =>
          ({ t with
              conns :=
                if t.conns.lookup pc.peer.id = some call.connection then
                  t.conns.erase pc.peer.id
                else t.conns },
            { call with stage := .dropped })
      | .dropped =>
          ({ t with registry := t.registry.setConnected now pc.peer.id false },
            { call with stage := .unflagged })
      | .unflagged =>
          (t.setConnection call.connection { pc with closed := true },
            { call with stage := .returned })
      | .returned => (t, call)

/-! ### What a step leaves alone -/

namespace Transport

section

variable {crypto : NodePrimitives} {codec : Codec}

/-- The parts of a transport that no call ever changes. -/
structure SameSettings (t t' : Transport) : Prop where
  node : t'.node = t.node
  config : t'.config = t.config

structure SameConnections (t t' : Transport) : Prop where
  connections : t'.connections = t.connections
  conns : t'.conns = t.conns

theorem advanceUpgrade_settings (t : Transport) (call : UpgradeCall)
    (input : UpgradeInput) :
    SameSettings t (t.advanceUpgrade crypto codec call input).1 := by
  unfold advanceUpgrade
  cases call.stage with
  | counted | handshaking | screened | authorised =>
      dsimp only
      split <;> exact ⟨rfl, rfl⟩
  | _ => exact ⟨rfl, rfl⟩

theorem advanceUpgrade_connections (t : Transport) {call : UpgradeCall}
    (hstage : call.stage ≠ .acknowledged) (input : UpgradeInput) :
    SameConnections t (t.advanceUpgrade crypto codec call input).1 := by
  unfold advanceUpgrade
  cases h : call.stage with
  | acknowledged => exact absurd h hstage
  | counted | handshaking | screened | authorised =>
      dsimp only
      split <;> exact ⟨rfl, rfl⟩
  | _ => exact ⟨rfl, rfl⟩

theorem verifiedConnect_stage {t : Transport} {peer : Peer}
    {challenge : Bytes} {frame : Except CoreError Bytes} {call : ConnectCall}
    (hcall : t.verifiedConnect crypto codec peer challenge frame = some call) :
    call.stage = .verified := by
  unfold verifiedConnect at hcall
  split at hcall
  · split at hcall
    · cases hcall
      rfl
    · cases hcall
  · cases hcall

theorem advanceConnect_settings (t : Transport) (call : ConnectCall)
    (now : Time) : SameSettings t (t.advanceConnect call now).1 := by
  unfold advanceConnect
  cases call.stage with
  | verified =>
      dsimp only
      split <;> exact ⟨rfl, rfl⟩
  | _ => exact ⟨rfl, rfl⟩

theorem advanceConnect_connections (t : Transport) {call : ConnectCall}
    (hstage : call.stage ≠ .recorded) (now : Time) :
    SameConnections t (t.advanceConnect call now).1 := by
  unfold advanceConnect
  cases h : call.stage with
  | recorded => exact absurd h hstage
  | verified =>
      dsimp only
      split <;> exact ⟨rfl, rfl⟩
  | _ => exact ⟨rfl, rfl⟩

/-- A call of `Connect` keeps its peer and its secret. -/
theorem advanceConnect_call (t : Transport) (call : ConnectCall) (now : Time) :
    (t.advanceConnect call now).2.peer = call.peer ∧
      (t.advanceConnect call now).2.sharedSecret = call.sharedSecret := by
  unfold advanceConnect
  cases call.stage with
  | verified =>
      dsimp only
      split <;> exact ⟨rfl, rfl⟩
  | _ => exact ⟨rfl, rfl⟩

theorem advanceClose_settings (t : Transport) (call : CloseCall)
    (now : Time) : SameSettings t (t.advanceClose call now).1 := by
  unfold advanceClose
  split
  · exact ⟨rfl, rfl⟩
  · cases call.stage <;> exact ⟨rfl, rfl⟩

theorem advanceClose_lookup {t : Transport} {call : CloseCall} {now : Time}
    {i : Bytes} {n : ℕ}
    (hlookup : (t.advanceClose call now).1.conns.lookup i = some n) :
    t.conns.lookup i = some n := by
  unfold advanceClose at hlookup
  split at hlookup
  · exact hlookup
  · cases hstage : call.stage with
    | requested =>
        rw [hstage] at hlookup
        dsimp only at hlookup
        split at hlookup
        · exact (lookup_of_lookup_erase hlookup).2
        · exact hlookup
    | _ =>
        rw [hstage] at hlookup
        exact hlookup

theorem addConnection_getElem? (t : Transport) (added : PeerConnection)
    {n : ℕ} {pc : PeerConnection} (hpc : t.connections[n]? = some pc) :
    (t.addConnection added).connections[n]? = some pc :=
  getElem?_concat_of_some hpc added

theorem advanceUpgrade_getElem? (t : Transport) (call : UpgradeCall)
    (input : UpgradeInput) {n : ℕ} {pc : PeerConnection}
    (hpc : t.connections[n]? = some pc) :
    (t.advanceUpgrade crypto codec call input).1.connections[n]? = some pc := by
  by_cases hstage : call.stage = .acknowledged
  · simp only [advanceUpgrade, hstage]
    exact t.addConnection_getElem? _ hpc
  · rw [(t.advanceUpgrade_connections hstage input).connections]
    exact hpc

theorem advanceConnect_getElem? (t : Transport) (call : ConnectCall)
    (now : Time) {n : ℕ} {pc : PeerConnection}
    (hpc : t.connections[n]? = some pc) :
    (t.advanceConnect call now).1.connections[n]? = some pc := by
  by_cases hstage : call.stage = .recorded
  · simp only [advanceConnect, hstage]
    exact t.addConnection_getElem? _ hpc
  · rw [(t.advanceConnect_connections hstage now).connections]
    exact hpc

theorem advanceClose_getElem? (t : Transport) (call : CloseCall) (now : Time)
    {n : ℕ} {pc : PeerConnection} (hpc : t.connections[n]? = some pc) :
    ∃ pc', (t.advanceClose call now).1.connections[n]? = some pc' ∧
      pc'.peer = pc.peer ∧ pc'.sharedSecret = pc.sharedSecret := by
  unfold advanceClose
  split
  · exact ⟨pc, hpc, rfl, rfl⟩
  next closing hclosing =>
    cases call.stage with
    | unflagged =>
        refine exists_getElem?_set hclosing hpc ?_ ⟨rfl, rfl⟩
        intro _ hsame
        subst hsame
        exact ⟨rfl, rfl⟩
    | _ => exact ⟨pc, hpc, rfl, rfl⟩

/-- Every registry method that a step runs is one of the registry's calls. -/
theorem advanceUpgrade_registry (t : Transport) (call : UpgradeCall)
    (input : UpgradeInput) :
    PeerStep t.registry (t.advanceUpgrade crypto codec call input).1.registry := by
  unfold advanceUpgrade
  cases call.stage with
  | unregistered => exact .inr ⟨_, rfl, rfl⟩
  | stored => exact .inr ⟨.setConnected input.now call.peer.id true, rfl, rfl⟩
  | counted | handshaking | screened | authorised =>
      dsimp only
      split <;> exact .inl rfl
  | _ => exact .inl rfl

theorem advanceConnect_registry (t : Transport) (call : ConnectCall)
    (now : Time) :
    PeerStep t.registry (t.advanceConnect call now).1.registry := by
  unfold advanceConnect
  cases call.stage with
  | verified =>
      dsimp only
      split
      next updated hupdated =>
        refine .inr ⟨.updatePeer call.peer, rfl, ?_⟩
        simp [RegistryCall.apply, RegistryCall.run, hupdated]
      next => exact .inl rfl
  | unlisted => exact .inr ⟨_, rfl, rfl⟩
  | stored => exact .inr ⟨.setConnected now call.peer.id true, rfl, rfl⟩
  | _ => exact .inl rfl

theorem advanceClose_registry (t : Transport) (call : CloseCall)
    (now : Time) :
    PeerStep t.registry (t.advanceClose call now).1.registry := by
  unfold advanceClose
  split
  · exact .inl rfl
  next pc _ =>
    cases call.stage with
    | dropped => exact .inr ⟨.setConnected now pc.peer.id false, rfl, rfl⟩
    | _ => exact .inl rfl

end

end Transport

/-! ### The machine -/

/-- A call of `announcePeer` that has read the registry. -/
structure AnnounceCall where
  call : RegistryCall
  returned : Bool := false
  deriving DecidableEq, Repr

/-- One transport and the calls on it.  `keys` is ghost: the public key from
which the secret of each connection was derived. -/
structure TransportCalls where
  transport : Transport
  upgrades : List UpgradeCall := []
  connects : List ConnectCall := []
  closes : List CloseCall := []
  announcements : List AnnounceCall := []
  keys : List Bytes := []

/-- `held` are the IDs under which the registry holds the very record that is
passed to `Connect`.  The ack is read into it there as well; from then on the
records are values of their own. -/
inductive TransportAction where
  | arrive
  | upgrade (call : ℕ) (input : Transport.UpgradeInput)
  | dial (peer : Peer) (held : List Bytes) (challenge : Bytes)
      (frame : Except CoreError Bytes)
  | connect (call : ℕ) (now : Time)
  | requestClose (connection : ℕ)
  | close (call : ℕ) (now : Time)
  | announce (now : Time) (id : Bytes) (body : Except Unit Peer)
  | finishAnnounce (call : ℕ)
  | operate (call : RegistryCall)

namespace TransportCalls

section

variable (crypto : NodePrimitives) (codec : Codec)

def stepUpgrade (s : TransportCalls) (position : ℕ)
    (input : Transport.UpgradeInput) : TransportCalls :=
  match s.upgrades[position]? with
  | none => s
  | some call =>
      let result := s.transport.advanceUpgrade crypto codec call input
      { s with
        transport := result.1
        upgrades := s.upgrades.set position result.2
        keys :=
          if call.stage = .acknowledged then
            s.keys ++ [call.payload.identity.publicKey]
          else s.keys }

def stepConnect (s : TransportCalls) (position : ℕ) (now : Time) :
    TransportCalls :=
  match s.connects[position]? with
  | none => s
  | some call =>
      let result := s.transport.advanceConnect call now
      { s with
        transport := result.1
        connects := s.connects.set position result.2
        keys :=
          if call.stage = .recorded then s.keys ++ [call.peer.publicKey]
          else s.keys }

def stepClose (s : TransportCalls) (position : ℕ) (now : Time) :
    TransportCalls :=
  match s.closes[position]? with
  | none => s
  | some call =>
      let result := s.transport.advanceClose call now
      { s with
        transport := result.1
        closes := s.closes.set position result.2 }

def operate (s : TransportCalls) (call : RegistryCall) : TransportCalls :=
  { s with transport :=
      { s.transport with registry := call.apply s.transport.registry } }

def stepAnnounce (s : TransportCalls) (position : ℕ) : TransportCalls :=
  match s.announcements[position]? with
  | none => s
  | some call =>
      if call.returned then s
      else
        { s.operate call.call with
          announcements :=
            s.announcements.set position { call with returned := true } }

def next (s : TransportCalls) : TransportAction → TransportCalls
  | .arrive => { s with upgrades := s.upgrades ++ [{}] }
  | .upgrade call input => s.stepUpgrade crypto codec call input
  | .dial peer held challenge frame =>
      { s with
        transport :=
          { s.transport with
            registry := Transport.registryAfterAck codec s.transport.registry
              peer held frame }
        connects :=
          s.connects ++
            (s.transport.verifiedConnect crypto codec peer challenge
              frame).toList }
  | .connect call now => s.stepConnect call now
  | .requestClose connection =>
      { s with closes := s.closes ++ [{ connection := connection }] }
  | .close call now => s.stepClose call now
  | .announce now id body =>
      match announceCall s.transport.registry now id body with
      | .ok call => { s with announcements := s.announcements ++ [{ call := call }] }
      | .error _ => s
  | .finishAnnounce call => s.stepAnnounce call
  | .operate call => s.operate call

/-- The registry holds the dialled record where it is said to.  `closeOnce`: a
connection is closed by one call only. -/
def Enabled (s : TransportCalls) : TransportAction → Prop
  | .dial peer held _ _ =>
      ∀ id ∈ held, s.transport.registry.getPeer id = some peer
  | .requestClose connection =>
      connection < s.transport.connections.length ∧
        ∀ call ∈ s.closes, call.connection ≠ connection
  | _ => True

instance (s : TransportCalls) (action : TransportAction) :
    Decidable (s.Enabled action) := by
  unfold Enabled
  split <;> infer_instance

/-- A transport starts without connections, over a registry that was loaded
from its file, where no connection flag is kept. -/
def Initial (s : TransportCalls) : Prop :=
  ∃ node registry config,
    registry.Keyed ∧
    (∀ ⦃id peer⦄, registry.getPeer id = some peer → peer.connected = false) ∧
    s = { transport := Transport.newTransport node registry config }

def machine : Machine TransportCalls TransportAction where
  initial := Initial
  enabled := Enabled
  next := next crypto codec

instance (s : TransportCalls) (action : TransportAction) :
    Decidable ((machine crypto codec).enabled s action) :=
  inferInstanceAs (Decidable (s.Enabled action))

end

/-- What a step of the machine does, one constructor for each way it can go. -/
inductive Effect (crypto : NodePrimitives) (codec : Codec)
    (s : TransportCalls) (action : TransportAction) : TransportCalls → Prop where
  | nothing : Effect crypto codec s action s
  | arrived (haction : action = .arrive) :
      Effect crypto codec s action { s with upgrades := s.upgrades ++ [{}] }
  | upgraded {position : ℕ} {input : Transport.UpgradeInput}
      {call : UpgradeCall} (haction : action = .upgrade position input)
      (hcall : s.upgrades[position]? = some call) :
      Effect crypto codec s action
        { s with
          transport := (s.transport.advanceUpgrade crypto codec call input).1
          upgrades := s.upgrades.set position
            (s.transport.advanceUpgrade crypto codec call input).2
          keys :=
            if call.stage = .acknowledged then
              s.keys ++ [call.payload.identity.publicKey]
            else s.keys }
  | dialled {peer : Peer} {held : List Bytes} {challenge : Bytes}
      {frame : Except CoreError Bytes}
      (haction : action = .dial peer held challenge frame) :
      Effect crypto codec s action
        { s with
          transport :=
            { s.transport with
              registry := Transport.registryAfterAck codec s.transport.registry
                peer held frame }
          connects :=
            s.connects ++
              (s.transport.verifiedConnect crypto codec peer challenge
                frame).toList }
  | connected {position : ℕ} {now : Time} {call : ConnectCall}
      (haction : action = .connect position now)
      (hcall : s.connects[position]? = some call) :
      Effect crypto codec s action
        { s with
          transport := (s.transport.advanceConnect call now).1
          connects :=
            s.connects.set position (s.transport.advanceConnect call now).2
          keys :=
            if call.stage = .recorded then s.keys ++ [call.peer.publicKey]
            else s.keys }
  | closeRequested {connection : ℕ}
      (haction : action = .requestClose connection) :
      Effect crypto codec s action
        { s with closes := s.closes ++ [{ connection := connection }] }
  | closed {position : ℕ} {now : Time} {call : CloseCall}
      (haction : action = .close position now)
      (hcall : s.closes[position]? = some call) :
      Effect crypto codec s action
        { s with
          transport := (s.transport.advanceClose call now).1
          closes := s.closes.set position (s.transport.advanceClose call now).2 }
  | announced {now : Time} {id : Bytes} {body : Except Unit Peer}
      {call : RegistryCall} (haction : action = .announce now id body)
      (hcall : announceCall s.transport.registry now id body = .ok call) :
      Effect crypto codec s action
        { s with announcements := s.announcements ++ [{ call := call }] }
  | finished {position : ℕ} {call : AnnounceCall}
      (haction : action = .finishAnnounce position)
      (hcall : s.announcements[position]? = some call) :
      Effect crypto codec s action
        { s.operate call.call with
          announcements :=
            s.announcements.set position { call with returned := true } }
  | operated {call : RegistryCall} (haction : action = .operate call) :
      Effect crypto codec s action (s.operate call)

section

variable {crypto : NodePrimitives} {codec : Codec}

theorem next_effect (s : TransportCalls) (action : TransportAction) :
    Effect crypto codec s action (s.next crypto codec action) := by
  cases action with
  | arrive => exact .arrived rfl
  | upgrade position input =>
      unfold next stepUpgrade
      dsimp only
      split
      · exact .nothing
      next call hcall => exact .upgraded rfl hcall
  | dial peer held challenge frame => exact .dialled rfl
  | connect position now =>
      unfold next stepConnect
      dsimp only
      split
      · exact .nothing
      next call hcall => exact .connected rfl hcall
  | requestClose connection => exact .closeRequested rfl
  | close position now =>
      unfold next stepClose
      dsimp only
      split
      · exact .nothing
      next call hcall => exact .closed rfl hcall
  | announce now id body =>
      unfold next
      dsimp only
      split
      next call hcall => exact .announced rfl hcall
      · exact .nothing
  | finishAnnounce position =>
      unfold next stepAnnounce
      dsimp only
      split
      · exact .nothing
      next call hcall =>
        split
        · exact .nothing
        · exact .finished rfl hcall
  | operate call => exact .operated rfl

/-- What one step of the machine does to the transport; `operate` is a step
of an announcement or of the operator. -/
inductive Steps (crypto : NodePrimitives) (codec : Codec) (t : Transport) :
    Transport → Prop where
  | same : Steps crypto codec t t
  | upgrade (call : UpgradeCall) (input : Transport.UpgradeInput) :
      Steps crypto codec t (t.advanceUpgrade crypto codec call input).1
  | connect (call : ConnectCall) (now : Time) :
      Steps crypto codec t (t.advanceConnect call now).1
  | close (call : CloseCall) (now : Time) :
      Steps crypto codec t (t.advanceClose call now).1
  | dial (peer : Peer) (held : List Bytes) (frame : Except CoreError Bytes) :
      Steps crypto codec t
        { t with registry :=
            Transport.registryAfterAck codec t.registry peer held frame }
  | operate (call : RegistryCall) :
      Steps crypto codec t { t with registry := call.apply t.registry }

theorem next_steps (s : TransportCalls) (action : TransportAction) :
    Steps crypto codec s.transport (s.next crypto codec action).transport := by
  have heffect : Effect crypto codec s action _ := s.next_effect action
  generalize s.next crypto codec action = s' at heffect ⊢
  cases heffect with
  | upgraded => exact .upgrade _ _
  | connected => exact .connect _ _
  | closed => exact .close _ _
  | dialled => exact .dial _ _ _
  | finished | operated => exact .operate _
  | nothing | arrived | closeRequested | announced => exact .same

/-- A connection stays where it is, with its peer and its secret. -/
theorem Steps.getElem? {t t' : Transport} (hstep : Steps crypto codec t t')
    {n : ℕ} {pc : PeerConnection} (hpc : t.connections[n]? = some pc) :
    ∃ pc', t'.connections[n]? = some pc' ∧ pc'.peer = pc.peer ∧
      pc'.sharedSecret = pc.sharedSecret := by
  cases hstep with
  | same => exact ⟨pc, hpc, rfl, rfl⟩
  | upgrade call input =>
      exact ⟨pc, t.advanceUpgrade_getElem? call input hpc, rfl, rfl⟩
  | connect call now =>
      exact ⟨pc, t.advanceConnect_getElem? call now hpc, rfl, rfl⟩
  | close call now => exact t.advanceClose_getElem? call now hpc
  | dial | operate => exact ⟨pc, hpc, rfl, rfl⟩

/-- Where an inbound call of the next state comes from. -/
theorem next_upgrades {s : TransportCalls} {action : TransportAction}
    {position : ℕ} {call : UpgradeCall}
    (hcall : (s.next crypto codec action).upgrades[position]? = some call) :
    s.upgrades[position]? = some call ∨
      (s.upgrades[position]? = none ∧ call = {}) ∨
      ∃ old input, s.upgrades[position]? = some old ∧
        call = (s.transport.advanceUpgrade crypto codec old input).2 := by
  have heffect : Effect crypto codec s action _ := s.next_effect action
  generalize s.next crypto codec action = s' at heffect hcall
  cases heffect with
  | arrived =>
      rcases getElem?_concat_cases hcall with hold | ⟨hposition, hnew⟩
      · exact .inl hold
      · exact .inr (.inl ⟨by simp [hposition], hnew⟩)
  | @upgraded _ input old _ hold =>
      rcases getElem?_set_cases hcall with ⟨rfl, hnew⟩ | ⟨-, hother⟩
      · exact .inr (.inr ⟨old, input, hold, hnew⟩)
      · exact .inl hother
  | _ => exact .inl hcall

/-! ### What announcements write -/

theorem next_announcements {s : TransportCalls}
    (hkeeps : ∀ call ∈ s.announcements, call.call.keepsGate = true)
    (action : TransportAction) :
    ∀ call ∈ (s.next crypto codec action).announcements,
      call.call.keepsGate = true := by
  have heffect : Effect crypto codec s action _ := s.next_effect action
  generalize s.next crypto codec action = s' at heffect ⊢
  cases heffect with
  | announced _ hcall =>
      intro other hother
      rcases List.mem_append.mp hother with hold | hnew
      · exact hkeeps other hold
      · rw [List.mem_singleton] at hnew
        subst hnew
        exact announceCall_keepsGate hcall
  | @finished _ call _ hcall =>
      intro other hother
      rcases List.mem_or_eq_of_mem_set hother with hold | hnew
      · exact hkeeps other hold
      · subst hnew
        exact hkeeps call (List.mem_of_getElem? hcall)
  | _ => exact hkeeps

theorem reachable_announcements {s : TransportCalls}
    (hreachable : (machine crypto codec).Reachable s) :
    ∀ call ∈ s.announcements, call.call.keepsGate = true := by
  apply hreachable.invariant
  · intro start hinitial call hcall
    rcases hinitial with ⟨node, registry, config, -, -, rfl⟩
    cases hcall
  · intro before action _ hbefore _ _
    exact next_announcements hbefore action

/-- Only the operator changes whom the node lets in. -/
theorem next_sameGate {s : TransportCalls} {action : TransportAction}
    (hannounced : ∀ call ∈ s.announcements, call.call.keepsGate = true)
    (hoperator : ∀ call, action = .operate call → call.keepsGate = true) :
    PeerRegistry.SameGate s.transport.registry
      (s.next crypto codec action).transport.registry := by
  have heffect : Effect crypto codec s action _ := s.next_effect action
  generalize s.next crypto codec action = s' at heffect ⊢
  cases heffect with
  | upgraded => exact (Transport.advanceUpgrade_registry _ _ _).sameGate
  | connected => exact (Transport.advanceConnect_registry _ _ _).sameGate
  | closed => exact (Transport.advanceClose_registry _ _ _).sameGate
  | @finished _ call _ hcall =>
      exact call.call.apply_sameGate
        (hannounced call (List.mem_of_getElem? hcall)) _
  | operated haction => exact RegistryCall.apply_sameGate _ (hoperator _ haction) _
  | dialled =>
      dsimp only [Transport.registryAfterAck]
      split <;> exact ⟨rfl, rfl⟩
  | nothing | arrived | closeRequested | announced => exact ⟨rfl, rfl⟩

end

end TransportCalls

end GoP2P.Node
