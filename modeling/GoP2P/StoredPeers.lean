import GoP2P.OutboundConnect
import GoP2P.TransportWholeCalls

/-!
# Stored connections and registered peers

Both handshakes try to register the peer before they store its connection, and
neither looks at whether the registry took it.  `AddPeer` turns away an empty
ID and a name with other characters than it allows, both of which the remote
side chooses.
-/

namespace GoP2P.Node

open PeerRegistry

namespace PeerRegistry

/-- The record that an inbound handshake goes on with stands under an ID of its
own, or `AddPeer` takes a new one. -/
def NamesRegistered (r : PeerRegistry) (identity : NodeIdentity) : Prop :=
  match r.getPeer identity.id with
  | some peer => peer.id ≠ [] ∧ (r.getPeer peer.id).isSome = true
  | none =>
      identity.id ≠ [] ∧ validatePeerName identity.name = .returned ()

/-- `UpdatePeer` finds the identity's ID, or `AddPeer` takes it. -/
def Recordable (r : PeerRegistry) (identity : NodeIdentity) : Prop :=
  identity.id ≠ [] ∧ ((r.getPeer identity.id).isSome = true ∨
    validatePeerName identity.name = .returned ())

theorem isSome_getPeer_setConnected (r : PeerRegistry) (now : Time)
    (id i : Bytes) (connected : Bool) :
    ((r.setConnected now id connected).getPeer i).isSome =
      (r.getPeer i).isSome := by
  rw [setConnected_eq_touchPeer, getPeer_touchPeer]
  split <;> simp

theorem isSome_getPeer_addPeer_iff (r : PeerRegistry) (now : Time)
    (peer : Peer) :
    (((RegistryCall.addPeer now peer).apply r).getPeer peer.id).isSome = true ↔
      (r.getPeer peer.id).isSome = true ∨
        (peer.id ≠ [] ∧ validatePeerName peer.name = .returned ()) := by
  simp only [RegistryCall.apply, RegistryCall.run, addPeer]
  by_cases hid : peer.id = []
  · simp [hid]
  · rw [if_neg hid]
    cases hname : validatePeerName peer.name with
    | returned value =>
        by_cases hfound : (r.peers.lookup peer.id).isSome = true
        · simp [Outcome.bind, hfound, getPeer]
        · simp [Outcome.bind, hfound, hid]
    | failed | panicked | unfinished => simp [Outcome.bind]

theorem isSome_getPeer_showing {r : PeerRegistry} (passed : PassedPeer r)
    (peer : Peer) (i : Bytes) :
    ((r.showing passed.held peer).getPeer i).isSome = (r.getPeer i).isSome := by
  rw [getPeer_showing]
  split
  next hheld => rw [passed.shared i hheld, Option.isSome_some, Option.isSome_some]
  next => rfl

end PeerRegistry

namespace Transport

/-- The connection stands in `conns` under an ID that is not empty and that the
registry has a peer for. -/
def HoldsRegistered (t : Transport) (n : ℕ) : Prop :=
  ∃ pc, t.connections[n]? = some pc ∧ t.conns.lookup pc.peer.id = some n ∧
    pc.peer.id ≠ [] ∧ (t.registry.getPeer pc.peer.id).isSome = true

theorem storeConnection_holdsRegistered_iff (t : Transport) (now : Time)
    (pc : PeerConnection) :
    (t.storeConnection now pc).HoldsRegistered t.connections.length ↔
      pc.peer.id ≠ [] ∧ (t.registry.getPeer pc.peer.id).isSome = true := by
  have hpc : (t.storeConnection now pc).connections[t.connections.length]? =
      some pc := List.getElem?_concat_length
  have hregistered : ∀ i, ((t.storeConnection now pc).registry.getPeer i).isSome =
      (t.registry.getPeer i).isSome := by
    intro i
    exact isSome_getPeer_setConnected t.registry now pc.peer.id i true
  unfold HoldsRegistered
  simp only [hregistered]
  constructor
  · rintro ⟨stored, hstored, -, hid, hsome⟩
    rw [hpc, Option.some.injEq] at hstored
    subst hstored
    exact ⟨hid, hsome⟩
  · rintro ⟨hid, hsome⟩
    exact ⟨pc, hpc, Finmap.lookup_insert _, hid, hsome⟩

section

variable (crypto : NodePrimitives) (codec : Codec)

/-! ### Inbound handshakes -/

/-- The handshake gets past every check of `handleWSUpgrade` up to the store. -/
structure Admits (t : Transport) (input : UpgradeInput)
    (payload : HandshakePayload) (sharedSecret : Bytes) : Prop where
  room : ¬(t.conns.keys.card : ℤ) + t.pendingConns ≥ t.config.maxConns
  received : t.receivedHandshake crypto codec input =
    some (payload, sharedSecret)
  allowed : t.registry.isPeerAllowed payload.identity.id
    payload.identity.publicKey = true
  acknowledged : t.sendsAck crypto codec input payload sharedSecret
    (findOrRegister t.registry input.now payload.identity).1.id = true

variable {crypto codec}

theorem findOrRegister_registers_iff (registry : PeerRegistry) (now : Time)
    (identity : NodeIdentity) :
    (findOrRegister registry now identity).1.id ≠ [] ∧
        ((findOrRegister registry now identity).2.getPeer
          (findOrRegister registry now identity).1.id).isSome = true ↔
      registry.NamesRegistered identity := by
  unfold NamesRegistered
  cases hfound : registry.getPeer identity.id with
  | some peer => simp [findOrRegister, hfound]
  | none =>
      rw [findOrRegister_eq_of_missing registry now identity hfound]
      dsimp only
      rw [isSome_getPeer_addPeer_iff]
      simp [peerOf, hfound]

theorem Admits.result {t : Transport} {input : UpgradeInput}
    {payload : HandshakePayload} {sharedSecret : Bytes}
    (hadmits : t.Admits crypto codec input payload sharedSecret) :
    let found := findOrRegister t.registry input.now payload.identity
    ((t.handleWSUpgrade crypto codec input).transport,
        (t.handleWSUpgrade crypto codec input).connection) =
      ({ t with registry := found.2 }.storeConnection input.now
          (newConnection input.now found.1 sharedSecret),
        some t.connections.length) := by
  have hresult := handleWSUpgrade_eq_of_receivedHandshake crypto codec t input
  have haccepted := acceptHandshake_eq_of_sendsAck crypto codec t input payload
    sharedSecret
  intro found
  dsimp only at hresult haccepted
  rw [hresult, if_neg hadmits.room, hadmits.received]
  dsimp only
  rw [if_pos hadmits.allowed, haccepted, if_pos hadmits.acknowledged]

theorem exists_admits_of_connection {t : Transport} {input : UpgradeInput}
    {n : ℕ}
    (hconnection : (t.handleWSUpgrade crypto codec input).connection = some n) :
    ∃ payload sharedSecret,
      t.Admits crypto codec input payload sharedSecret := by
  have hresult := congrArg Prod.snd
    (handleWSUpgrade_eq_of_receivedHandshake crypto codec t input)
  dsimp only at hresult
  rw [hconnection] at hresult
  by_cases hroom : (t.conns.keys.card : ℤ) + t.pendingConns ≥ t.config.maxConns
  · rw [if_pos hroom] at hresult
    cases hresult
  · rw [if_neg hroom] at hresult
    cases hreceived : t.receivedHandshake crypto codec input with
    | none =>
        rw [hreceived] at hresult
        cases hresult
    | some handshake =>
        rcases handshake with ⟨payload, sharedSecret⟩
        rw [hreceived] at hresult
        dsimp only at hresult
        by_cases hallowed : t.registry.isPeerAllowed payload.identity.id
            payload.identity.publicKey = true
        · rw [if_pos hallowed] at hresult
          have haccepted := congrArg Prod.snd (acceptHandshake_eq_of_sendsAck
            crypto codec t input payload sharedSecret)
          dsimp only at haccepted hresult
          refine ⟨payload, sharedSecret, hroom, hreceived, hallowed, ?_⟩
          by_contra hunsent
          rw [if_neg hunsent] at haccepted
          rw [haccepted] at hresult
          cases hresult
        · rw [if_neg hallowed] at hresult
          cases hresult

theorem handleWSUpgrade_stores_registered_iff (t : Transport)
    (input : UpgradeInput) :
    (∀ n, (t.handleWSUpgrade crypto codec input).connection = some n →
      (t.handleWSUpgrade crypto codec input).transport.HoldsRegistered n) ↔
    ∀ payload sharedSecret,
      t.Admits crypto codec input payload sharedSecret →
        t.registry.NamesRegistered payload.identity := by
  have hholds : ∀ {payload sharedSecret},
      t.Admits crypto codec input payload sharedSecret →
        ((t.handleWSUpgrade crypto codec input).transport.HoldsRegistered
          t.connections.length ↔ t.registry.NamesRegistered payload.identity) := by
    intro payload sharedSecret hadmits
    rw [(Prod.mk.inj hadmits.result).1]
    rw [← findOrRegister_registers_iff t.registry input.now payload.identity]
    exact storeConnection_holdsRegistered_iff _ _ _
  constructor
  · intro hstores payload sharedSecret hadmits
    exact (hholds hadmits).mp (hstores _ (Prod.mk.inj hadmits.result).2)
  · intro hregistered n hconnection
    rcases exists_admits_of_connection hconnection with
      ⟨payload, sharedSecret, hadmits⟩
    have hn := (Prod.mk.inj hadmits.result).2
    rw [hconnection, Option.some.injEq] at hn
    subst hn
    exact (hholds hadmits).mpr (hregistered payload sharedSecret hadmits)

/-! ### Outbound handshakes -/

theorem recordPeer_registers_iff (registry : PeerRegistry) (now : Time)
    (peer : Peer) :
    ((recordPeer registry now peer).getPeer peer.id).isSome = true ↔
      (registry.getPeer peer.id).isSome = true ∨
        (peer.id ≠ [] ∧ validatePeerName peer.name = .returned ()) := by
  by_cases hfound : (registry.getPeer peer.id).isSome = true
  · have hupdated : registry.updatePeer peer =
        .returned { registry with peers := registry.peers.insert peer.id peer } :=
      if_pos hfound
    simp [recordPeer, hupdated, hfound]
  · have hmissing : ∀ updated, registry.updatePeer peer ≠ .returned updated := by
      intro updated hupdated
      have hfailed : registry.updatePeer peer = .failed _ := if_neg hfound
      rw [hfailed] at hupdated
      cases hupdated
    rw [recordPeer_of_not_updated hmissing, isSome_getPeer_addPeer_iff]

variable (crypto codec) in
/-- The ack gets past every check of `Connect` up to the store. -/
structure Verifies (t : Transport) (passed : PassedPeer t.registry)
    (input : ConnectInput) (frame : Except CoreError Bytes)
    (ackPayload : HandshakeAckPayload) (challenge data sharedSecret : Bytes) :
    Prop where
  started : t.startConnect codec passed.peer input = .returned (challenge, data)
  read : readHandshakeAck codec frame = .returned ackPayload
  verified : verifyHandshakeAck crypto t.node challenge ackPayload =
    .returned sharedSecret

theorem exists_verifies_of_connection {t : Transport}
    {passed : PassedPeer t.registry} {input : ConnectInput} {now : Time}
    {frame : Except CoreError Bytes} {n : ℕ}
    (hconnection : (t.connect crypto codec passed input now frame).connection =
      .returned n) :
    ∃ ackPayload challenge data sharedSecret,
      t.Verifies crypto codec passed input frame ackPayload challenge data
        sharedSecret := by
  cases hstarted : t.startConnect codec passed.peer input with
  | returned started =>
      rcases started with ⟨challenge, data⟩
      by_cases hunread : ∀ ackPayload,
          readHandshakeAck codec frame ≠ .returned ackPayload
      · exact absurd hconnection ((connect_of_unread hstarted hunread now).2.2 n)
      · push Not at hunread
        rcases hunread with ⟨ackPayload, hack⟩
        cases hverified : verifyHandshakeAck crypto t.node challenge
            ackPayload with
        | returned sharedSecret =>
            exact ⟨ackPayload, challenge, data, sharedSecret, hstarted, hack,
              hverified⟩
        | _ =>
            simp [connect, completeConnect, hstarted, hack, hverified,
              Outcome.mapError] at hconnection
  | _ => simp [connect, hstarted] at hconnection

theorem connect_stores_registered_iff (t : Transport)
    (passed : PassedPeer t.registry) (input : ConnectInput) (now : Time)
    (frame : Except CoreError Bytes) :
    (∀ n, (t.connect crypto codec passed input now frame).connection =
        .returned n →
      (t.connect crypto codec passed input now frame).transport.HoldsRegistered
        n) ↔
    ∀ ackPayload challenge data sharedSecret,
      t.Verifies crypto codec passed input frame ackPayload challenge data
        sharedSecret → t.registry.Recordable ackPayload.identity := by
  have hholds : ∀ {ackPayload challenge data sharedSecret},
      t.Verifies crypto codec passed input frame ackPayload challenge data
        sharedSecret →
      (t.connect crypto codec passed input now frame).connection =
          .returned t.connections.length ∧
        ((t.connect crypto codec passed input now
            frame).transport.HoldsRegistered t.connections.length ↔
          t.registry.Recordable ackPayload.identity) := by
    intro ackPayload challenge data sharedSecret hverifies
    have hresult := connect_of_verified hverifies.started hverifies.read
      hverifies.verified now
    dsimp only at hresult
    rw [hresult]
    refine ⟨rfl, ?_⟩
    refine (storeConnection_holdsRegistered_iff _ _ _).trans ?_
    dsimp only [newConnection]
    rw [recordPeer_registers_iff, isSome_getPeer_showing]
    unfold Recordable adoptIdentity
    tauto
  constructor
  · intro hstores ackPayload challenge data sharedSecret hverifies
    rcases hholds hverifies with ⟨hconnection, hiff⟩
    exact hiff.mp (hstores _ hconnection)
  · intro hrecordable n hconnection
    rcases exists_verifies_of_connection hconnection with
      ⟨ackPayload, challenge, data, sharedSecret, hverifies⟩
    rcases hholds hverifies with ⟨hlength, hiff⟩
    rw [hconnection, Outcome.returned.injEq] at hlength
    subst hlength
    exact hiff.mpr (hrecordable ackPayload challenge data sharedSecret hverifies)

end

/-- A connection is stored under the non-empty ID of a registered peer exactly
if the identity that passed the handshake has such an ID already, or has a
non-empty ID and a name that `AddPeer` takes. -/
theorem stored_connection_registered_iff (crypto : NodePrimitives)
    (codec : Codec) (t : Transport) :
    (∀ input : UpgradeInput,
      (∀ n, (t.handleWSUpgrade crypto codec input).connection = some n →
        (t.handleWSUpgrade crypto codec input).transport.HoldsRegistered n) ↔
      ∀ payload sharedSecret,
        t.Admits crypto codec input payload sharedSecret →
          t.registry.NamesRegistered payload.identity) ∧
    ∀ (passed : PassedPeer t.registry) (input : ConnectInput) (now : Time)
      (frame : Except CoreError Bytes),
      (∀ n, (t.connect crypto codec passed input now frame).connection =
          .returned n →
        (t.connect crypto codec passed input now
          frame).transport.HoldsRegistered n) ↔
      ∀ ackPayload challenge data sharedSecret,
        t.Verifies crypto codec passed input frame ackPayload challenge data
          sharedSecret → t.registry.Recordable ackPayload.identity :=
  ⟨handleWSUpgrade_stores_registered_iff t, connect_stores_registered_iff t⟩

/-- A client that presents key 2 under an empty ID. -/
def sampleNameless : Codec :=
  .ofTables
    [([1], { identity := { publicKey := [2] }, version := protocolVersion })]
    [([2], { identity := { id := [9], publicKey := [9] }, accepted := true })]
    [([1], { type := .handshake, payload := some [1] }),
      ([2], { type := .handshakeAck, fromNode := [9], payload := some [2] })]

theorem nameless_connection_stored :
    let result := (newTransport (sampleNode 9) {} {}).handleWSUpgrade
      samplePrimitives sampleNameless sampleUpgrade
    result.connection = some 0 ∧ result.transport.conns.lookup [] = some 0 ∧
      ¬result.transport.HoldsRegistered 0 := by
  refine ⟨by decide, by decide, ?_⟩
  rintro ⟨pc, hpc, -, hid, -⟩
  cases hpc
  exact hid rfl

end Transport

end GoP2P.Node
