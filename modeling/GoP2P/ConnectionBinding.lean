import GoP2P.TransportCalls
import GoP2P.TransportKeys

/-!
# Connections and the keys behind their IDs

A handshake carries an ID and a public key, and nothing in either handshake
compares the two.  As long as every identity presented to the node has the ID
derived from its own key, each entry of `conns` stands under the ID of the key
its secret was derived from.
-/

namespace GoP2P.Node

open PeerRegistry

section

variable (crypto : NodePrimitives) (codec : Codec)

/-- `id` is the node ID of `publicKey`, and `secret` is what `node` shares
with that key. -/
def BoundKey (node : NodeManager) (id publicKey secret : Bytes) : Prop :=
  ∃ loaded, crypto.loadPublicKeyBase64 publicKey = .ok loaded ∧
    id = nodeID crypto loaded ∧
    node.deriveSharedSecret crypto publicKey = .returned secret

/-- The identity's ID is the one derived from its key, if the key can be
loaded at all. -/
def NodeIdentity.OwnsID (identity : NodeIdentity) : Prop :=
  match crypto.loadPublicKeyBase64 identity.publicKey with
  | .ok loaded => identity.id = nodeID crypto loaded
  | .error _ => True

instance (identity : NodeIdentity) : Decidable (identity.OwnsID crypto) := by
  unfold NodeIdentity.OwnsID
  split <;> infer_instance

namespace TransportCalls

/-- Every handshake and every ack that the node reads in this step carries an
identity with its own ID, and the ack names the ID of the record it is read
into, if the registry holds that record. -/
def PresentsOwnID (s : TransportCalls) : TransportAction → Prop
  | .upgrade _ input =>
      match s.transport.presentedHandshake codec input with
      | some payload => payload.identity.OwnsID crypto
      | none => True
  | .dial _ held _ frame =>
      Transport.AckKeepsIDs codec held frame ∧
        match Transport.readHandshakeAck codec frame with
        | .returned ackPayload => ackPayload.identity.OwnsID crypto
        | _ => True
  | _ => True

instance (s : TransportCalls) : DecidablePred (s.PresentsOwnID crypto codec)
  | .upgrade _ input => by
      dsimp only [PresentsOwnID]
      match s.transport.presentedHandshake codec input with
      | some payload => dsimp only; infer_instance
      | none => exact .isTrue trivial
  | .dial _ held _ frame => by
      dsimp only [PresentsOwnID]
      match Transport.readHandshakeAck codec frame with
      | .returned ackPayload => dsimp only; infer_instance
      | .failed _ | .panicked | .unfinished => dsimp only; infer_instance
  | .arrive | .connect _ _ | .requestClose _ | .close _ _ | .announce _ _ _
  | .finishAnnounce _ | .operate _ => .isTrue trivial

/-- Every entry of `conns` stands under the node ID of the key from which the
secret of its connection was derived. -/
def KeyBound (s : TransportCalls) : Prop :=
  ∀ ⦃i n⦄, s.transport.conns.lookup i = some n →
    ∃ pc publicKey, s.transport.connections[n]? = some pc ∧
      s.keys[n]? = some publicKey ∧
      BoundKey crypto s.transport.node i publicKey pc.sharedSecret

end TransportCalls

/-- The call has read a handshake and not yet answered it. -/
def UpgradeStage.holdsPayload : UpgradeStage → Bool
  | .presented | .screened | .authorised | .unregistered | .named
  | .acknowledged => true
  | _ => false

def UpgradeStage.holdsPeer : UpgradeStage → Bool
  | .named | .acknowledged => true
  | _ => false

/-- What a call of `handleWSUpgrade` knows about the peer it talks to. -/
structure UpgradeCall.Bound (node : NodeManager) (call : UpgradeCall) :
    Prop where
  payload : call.stage.holdsPayload = true →
    BoundKey crypto node call.payload.identity.id
      call.payload.identity.publicKey call.sharedSecret
  peer : call.stage.holdsPeer = true →
    call.peer.id = call.payload.identity.id

structure TransportCalls.Bound (s : TransportCalls) : Prop where
  keyed : s.transport.registry.Keyed
  upgrades : ∀ call ∈ s.upgrades, call.Bound crypto s.transport.node
  connects : ∀ call ∈ s.connects,
    BoundKey crypto s.transport.node call.peer.id call.peer.publicKey
      call.sharedSecret
  length : s.keys.length = s.transport.connections.length
  stored : s.KeyBound crypto

end

variable {crypto : NodePrimitives} {codec : Codec}

theorem UpgradeCall.Bound.of_idle {node : NodeManager} {call : UpgradeCall}
    (hidle : call.stage.holdsPayload = false) : call.Bound crypto node := by
  have hpeer : call.stage.holdsPeer = false := by
    cases hstage : call.stage <;> simp_all [UpgradeStage.holdsPayload,
      UpgradeStage.holdsPeer]
  constructor
  · intro h
    rw [hidle] at h
    cases h
  · intro h
    rw [hpeer] at h
    cases h

namespace Transport

theorem loaded_of_deriveSharedSecret {node : NodeManager}
    {publicKey secret : Bytes}
    (hsecret : node.deriveSharedSecret crypto publicKey = .returned secret) :
    ∃ loaded, crypto.loadPublicKeyBase64 publicKey = .ok loaded := by
  unfold NodeManager.deriveSharedSecret at hsecret
  split at hsecret
  · cases hsecret
  · rcases Outcome.bind_eq_returned_iff.mp hsecret with ⟨loaded, hloaded, -⟩
    rw [Outcome.mapError_eq_returned_iff,
      Outcome.ofExcept_eq_returned_iff] at hloaded
    exact ⟨loaded, hloaded⟩

theorem boundKey_of_ownsID {node : NodeManager} {identity : NodeIdentity}
    {secret : Bytes} (howns : identity.OwnsID crypto)
    (hsecret : node.deriveSharedSecret crypto identity.publicKey =
      .returned secret) :
    BoundKey crypto node identity.id identity.publicKey secret := by
  rcases loaded_of_deriveSharedSecret hsecret with ⟨loaded, hloaded⟩
  unfold NodeIdentity.OwnsID at howns
  rw [hloaded] at howns
  exact ⟨loaded, hloaded, howns, hsecret⟩

/-! ### Inbound handshakes -/

theorem receivedHandshake_eq_some {t : Transport} {input : UpgradeInput}
    {payload : HandshakePayload} {sharedSecret : Bytes}
    (hreceived : t.receivedHandshake crypto codec input =
      some (payload, sharedSecret)) :
    t.presentedHandshake codec input = some payload ∧
      t.node.deriveSharedSecret crypto payload.identity.publicKey =
        .returned sharedSecret := by
  unfold receivedHandshake at hreceived
  split at hreceived
  · cases hreceived
  · split at hreceived
    · cases hreceived
    next presented hpresented =>
      split at hreceived
      · cases hreceived
      · split at hreceived
        next secret hsecret =>
          cases hreceived
          exact ⟨hpresented, hsecret⟩
        next => cases hreceived

theorem advanceUpgrade_bound {t : Transport} (hkeyed : t.registry.Keyed)
    {call : UpgradeCall} (hcall : call.Bound crypto t.node)
    {input : UpgradeInput}
    (howns : ∀ payload, t.presentedHandshake codec input = some payload →
      payload.identity.OwnsID crypto) :
    (t.advanceUpgrade crypto codec call input).2.Bound crypto t.node := by
  have hpayload := hcall.payload
  have hpeer := hcall.peer
  unfold advanceUpgrade
  cases hstage : call.stage with
  | counted =>
      dsimp only
      split <;> exact UpgradeCall.Bound.of_idle rfl
  | handshaking =>
      dsimp only
      split
      · exact UpgradeCall.Bound.of_idle rfl
      next payload sharedSecret hreceived =>
        rcases receivedHandshake_eq_some hreceived with ⟨hpresented, hsecret⟩
        have hbound := boundKey_of_ownsID (howns payload hpresented) hsecret
        exact ⟨fun _ => hbound, fun h => by cases h⟩
  | presented =>
      rw [hstage] at hpayload
      exact ⟨fun _ => hpayload rfl, fun h => by cases h⟩
  | screened =>
      rw [hstage] at hpayload
      dsimp only
      split
      · exact ⟨fun _ => hpayload rfl, fun h => by cases h⟩
      · split
        · exact ⟨fun _ => hpayload rfl, fun h => by cases h⟩
        · exact UpgradeCall.Bound.of_idle rfl
  | authorised =>
      rw [hstage] at hpayload
      dsimp only
      split
      next peer hfound => exact ⟨fun _ => hpayload rfl, fun _ => hkeyed hfound⟩
      next => exact ⟨fun _ => hpayload rfl, fun h => by cases h⟩
  | unregistered =>
      rw [hstage] at hpayload
      exact ⟨fun _ => hpayload rfl, fun _ => rfl⟩
  | named =>
      rw [hstage] at hpayload hpeer
      dsimp only
      split
      · exact ⟨fun _ => hpayload rfl, fun _ => hpeer rfl⟩
      · exact UpgradeCall.Bound.of_idle rfl
  | returned => exact UpgradeCall.Bound.of_idle (by rw [hstage]; rfl)
  | _ => exact UpgradeCall.Bound.of_idle rfl

/-! ### Outbound handshakes -/

theorem registryAfterAck_keyed {registry : PeerRegistry}
    (hkeyed : registry.Keyed) {held : List Bytes}
    {frame : Except CoreError Bytes} (hids : AckKeepsIDs codec held frame)
    (peer : Peer) :
    (registryAfterAck codec registry peer held frame).Keyed := by
  unfold registryAfterAck
  cases hack : readHandshakeAck codec frame with
  | returned ackPayload =>
      simp only [AckKeepsIDs, hack] at hids
      intro id record hrecord
      rw [getPeer_showing] at hrecord
      split_ifs at hrecord with hheld
      · cases hrecord
        exact (hids id hheld).symm
      · exact hkeyed hrecord
  | _ => exact hkeyed

theorem verifiedConnect_bound {t : Transport} {peer : Peer}
    {challenge : Bytes} {frame : Except CoreError Bytes} {call : ConnectCall}
    (hcall : t.verifiedConnect crypto codec peer challenge frame = some call)
    (howns : ∀ ackPayload, readHandshakeAck codec frame = .returned ackPayload →
      ackPayload.identity.OwnsID crypto) :
    BoundKey crypto t.node call.peer.id call.peer.publicKey
      call.sharedSecret := by
  unfold verifiedConnect at hcall
  split at hcall
  next ackPayload hack =>
    split at hcall
    next sharedSecret hverified =>
      cases hcall
      exact boundKey_of_ownsID (howns ackPayload hack)
        (verifyHandshakeAck_eq_returned_iff.mp hverified).1
    next => cases hcall
  next => cases hcall

end Transport

namespace TransportCalls

theorem KeyBound.of_le {s s' : TransportCalls} (hbound : s.KeyBound crypto)
    (hnode : s'.transport.node = s.transport.node)
    (hconns : ∀ ⦃i n⦄, s'.transport.conns.lookup i = some n →
      s.transport.conns.lookup i = some n)
    (hconnections : ∀ ⦃n : ℕ⦄ ⦃pc : PeerConnection⦄,
      s.transport.connections[n]? = some pc →
        ∃ pc' : PeerConnection, s'.transport.connections[n]? = some pc' ∧
          pc'.sharedSecret = pc.sharedSecret)
    (hkeys : s'.keys = s.keys) : s'.KeyBound crypto := by
  intro i n hlookup
  rcases hbound (hconns hlookup) with ⟨pc, publicKey, hpc, hkey, hpair⟩
  rcases hconnections hpc with ⟨pc', hpc', hsecret⟩
  refine ⟨pc', publicKey, hpc', ?_, ?_⟩
  · rw [hkeys]
    exact hkey
  · rw [hnode, hsecret]
    exact hpair

/-- A connection is added together with the key its secret came from. -/
theorem KeyBound.add {s s' : TransportCalls} (hbound : s.KeyBound crypto)
    (hlength : s.keys.length = s.transport.connections.length)
    {pc : PeerConnection} {publicKey : Bytes}
    (htransport : s'.transport = s.transport.addConnection pc)
    (hkeys : s'.keys = s.keys ++ [publicKey])
    (hpair : BoundKey crypto s.transport.node pc.peer.id publicKey
      pc.sharedSecret) : s'.KeyBound crypto := by
  intro i n hlookup
  rw [htransport] at hlookup ⊢
  dsimp only [Transport.addConnection] at hlookup ⊢
  rw [hkeys]
  by_cases h : i = pc.peer.id
  · subst h
    rw [Finmap.lookup_insert, Option.some.injEq] at hlookup
    subst hlookup
    refine ⟨pc, publicKey, ?_, ?_, hpair⟩
    · rw [List.getElem?_concat_length]
    · rw [← hlength, List.getElem?_concat_length]
  · rw [Finmap.lookup_insert_of_ne _ h] at hlookup
    rcases hbound hlookup with ⟨stored, key, hstored, hkey, hold⟩
    have hn := (List.getElem?_eq_some_iff.mp hstored).1
    refine ⟨stored, key, ?_, ?_, hold⟩
    · rw [List.getElem?_append_left hn]
      exact hstored
    · rw [List.getElem?_append_left (hlength ▸ hn)]
      exact hkey

/-! ### One step and a run -/

/-- The call stores a new connection together with its key, or leaves both
lists as they are. -/
theorem Bound.stored_of_step {s s' : TransportCalls} (hbound : s.Bound crypto)
    {stores : Prop} [Decidable stores] (pc : PeerConnection)
    {publicKey : Bytes} (hnode : s'.transport.node = s.transport.node)
    (hkeys : s'.keys = if stores then s.keys ++ [publicKey] else s.keys)
    (hadded : stores → s'.transport = s.transport.addConnection pc ∧
      BoundKey crypto s.transport.node pc.peer.id publicKey pc.sharedSecret)
    (hsame : ¬stores → Transport.SameConnections s.transport s'.transport) :
    s'.keys.length = s'.transport.connections.length ∧ s'.KeyBound crypto := by
  split_ifs at hkeys with hstores
  · obtain ⟨htransport, hpair⟩ := hadded hstores
    constructor
    · rw [htransport, hkeys]
      simp [Transport.addConnection, hbound.length]
    · exact hbound.stored.add hbound.length htransport hkeys hpair
  · have hsame := hsame hstores
    constructor
    · rw [hsame.connections, hkeys]
      exact hbound.length
    · apply hbound.stored.of_le hnode
      · intro i n hlookup
        rwa [hsame.conns] at hlookup
      · intro n pc hpc
        rw [hsame.connections]
        exact ⟨pc, hpc, rfl⟩
      · exact hkeys

theorem Bound.of_changes {s s' : TransportCalls} (hbound : s.Bound crypto)
    (hkeyed : s'.transport.registry.Keyed)
    (hnode : s'.transport.node = s.transport.node)
    (hupgrades : ∀ call ∈ s'.upgrades,
      call ∈ s.upgrades ∨ call.Bound crypto s.transport.node)
    (hconnects : ∀ call ∈ s'.connects,
      call ∈ s.connects ∨ BoundKey crypto s.transport.node call.peer.id
        call.peer.publicKey call.sharedSecret)
    (hlength : s'.keys.length = s'.transport.connections.length)
    (hstored : s'.KeyBound crypto) : s'.Bound crypto := by
  constructor
  · exact hkeyed
  · intro call hcall
    rw [hnode]
    rcases hupgrades call hcall with hold | hnew
    · exact hbound.upgrades call hold
    · exact hnew
  · intro call hcall
    rw [hnode]
    rcases hconnects call hcall with hold | hnew
    · exact hbound.connects call hold
    · exact hnew
  · exact hlength
  · exact hstored

theorem upgrade_bound {s s' : TransportCalls} (hbound : s.Bound crypto)
    {position : ℕ} {call : UpgradeCall}
    (hcall : s.upgrades[position]? = some call) {input : Transport.UpgradeInput}
    (howns : ∀ payload,
      s.transport.presentedHandshake codec input = some payload →
        payload.identity.OwnsID crypto)
    (htransport : s'.transport =
      (s.transport.advanceUpgrade crypto codec call input).1)
    (hupgrades : s'.upgrades = s.upgrades.set position
      (s.transport.advanceUpgrade crypto codec call input).2)
    (hconnects : s'.connects = s.connects)
    (hkeys : s'.keys = if call.stage = .acknowledged then
      s.keys ++ [call.payload.identity.publicKey] else s.keys) :
    s'.Bound crypto := by
  have hown := hbound.upgrades call (List.mem_of_getElem? hcall)
  have hkeyed : s'.transport.registry.Keyed := by
    rw [htransport]
    exact (s.transport.advanceUpgrade_registry call input).keyed hbound.keyed
  have hnode : s'.transport.node = s.transport.node := by
    rw [htransport]
    exact (Transport.advanceUpgrade_settings s.transport call input).node
  have hcalls : ∀ other ∈ s'.upgrades,
      other ∈ s.upgrades ∨ other.Bound crypto s.transport.node := by
    intro other hother
    rw [hupgrades] at hother
    rcases List.mem_or_eq_of_mem_set hother with hold | hnew
    · exact .inl hold
    · subst hnew
      exact .inr (Transport.advanceUpgrade_bound hbound.keyed hown howns)
  have hstored := hbound.stored_of_step
    (Transport.newConnection input.now call.peer call.sharedSecret) hnode hkeys
    (by
      intro hstage
      have hpayload := hown.payload (by rw [hstage]; rfl)
      have hpeer := hown.peer (by rw [hstage]; rfl)
      refine ⟨by rw [htransport]; simp [Transport.advanceUpgrade, hstage], ?_⟩
      dsimp only [Transport.newConnection]
      rwa [hpeer])
    (by
      intro hstage
      rw [htransport]
      exact Transport.advanceUpgrade_connections s.transport hstage input)
  exact hbound.of_changes hkeyed hnode hcalls (hconnects ▸ fun _ => .inl)
    hstored.1 hstored.2

theorem connect_bound {s s' : TransportCalls} (hbound : s.Bound crypto)
    {position : ℕ} {call : ConnectCall}
    (hcall : s.connects[position]? = some call) {now : Time}
    (htransport : s'.transport = (s.transport.advanceConnect call now).1)
    (hupgrades : s'.upgrades = s.upgrades)
    (hconnects : s'.connects =
      s.connects.set position (s.transport.advanceConnect call now).2)
    (hkeys : s'.keys = if call.stage = .recorded then
      s.keys ++ [call.peer.publicKey] else s.keys) : s'.Bound crypto := by
  have hown := hbound.connects call (List.mem_of_getElem? hcall)
  have hkeyed : s'.transport.registry.Keyed := by
    rw [htransport]
    exact (s.transport.advanceConnect_registry call now).keyed hbound.keyed
  have hnode : s'.transport.node = s.transport.node := by
    rw [htransport]
    exact (Transport.advanceConnect_settings s.transport call now).node
  rcases Transport.advanceConnect_call s.transport call now with
    ⟨hpeer, hsecret⟩
  have hcalls : ∀ other ∈ s'.connects, other ∈ s.connects ∨
      BoundKey crypto s.transport.node other.peer.id other.peer.publicKey
        other.sharedSecret := by
    intro other hother
    rw [hconnects] at hother
    rcases List.mem_or_eq_of_mem_set hother with hold | hnew
    · exact .inl hold
    · subst hnew
      rw [hpeer, hsecret]
      exact .inr hown
  have hstored := hbound.stored_of_step
    (Transport.newConnection now call.peer call.sharedSecret) hnode hkeys
    (by
      intro hstage
      exact ⟨by rw [htransport]; simp [Transport.advanceConnect, hstage], hown⟩)
    (by
      intro hstage
      rw [htransport]
      exact Transport.advanceConnect_connections s.transport hstage now)
  exact hbound.of_changes hkeyed hnode (hupgrades ▸ fun _ => .inl) hcalls
    hstored.1 hstored.2

theorem close_bound {s : TransportCalls} (hbound : s.Bound crypto)
    (call : CloseCall) (now : Time) (closes : List CloseCall) :
    TransportCalls.Bound crypto
      { s with
        transport := (s.transport.advanceClose call now).1
        closes := closes } := by
  have hkeyed := (s.transport.advanceClose_registry call now).keyed hbound.keyed
  have hnode := (Transport.advanceClose_settings s.transport call now).node
  refine hbound.of_changes hkeyed hnode (fun _ => .inl) (fun _ => .inl) ?_ ?_
  · dsimp only
    rw [hbound.length]
    unfold Transport.advanceClose
    split
    · rfl
    · cases call.stage <;> simp [Transport.setConnection]
  · apply hbound.stored.of_le hnode
    · intro i n
      exact Transport.advanceClose_lookup
    · intro n pc hpc
      rcases Transport.advanceClose_getElem? s.transport call now hpc with
        ⟨pc', hpc', -, hsecret⟩
      exact ⟨pc', hpc', hsecret⟩
    · rfl

theorem Bound.next {s : TransportCalls} (hbound : s.Bound crypto)
    {action : TransportAction} (howns : s.PresentsOwnID crypto codec action) :
    (s.next crypto codec action).Bound crypto := by
  have heffect : Effect crypto codec s action _ := s.next_effect action
  generalize s.next crypto codec action = s' at heffect ⊢
  cases heffect with
  | nothing => exact hbound
  | arrived =>
      refine hbound.of_changes hbound.keyed rfl ?_ (fun _ => .inl)
        hbound.length hbound.stored
      intro call hcall
      rcases List.mem_append.mp hcall with hold | hnew
      · exact .inl hold
      · rw [List.mem_singleton] at hnew
        subst hnew
        exact .inr (UpgradeCall.Bound.of_idle rfl)
  | upgraded haction hcall =>
      subst haction
      refine upgrade_bound hbound hcall ?_ rfl rfl rfl rfl
      intro payload hpayload
      simpa [PresentsOwnID, hpayload] using howns
  | dialled haction =>
      subst haction
      refine hbound.of_changes
        (Transport.registryAfterAck_keyed hbound.keyed howns.1 _) rfl
        (fun _ => .inl) ?_ hbound.length hbound.stored
      intro call hcall
      rcases List.mem_append.mp hcall with hold | hnew
      · exact .inl hold
      · rw [Option.mem_toList] at hnew
        apply Or.inr
        apply Transport.verifiedConnect_bound hnew
        intro ackPayload hack
        simpa [hack] using howns.2
  | connected _ hcall => exact connect_bound hbound hcall rfl rfl rfl rfl
  | closed => exact close_bound hbound _ _ _
  | finished | operated =>
      exact hbound.of_changes (RegistryCall.apply_keyed hbound.keyed _) rfl
        (fun _ => .inl) (fun _ => .inl) hbound.length hbound.stored
  | closeRequested | announced =>
      exact hbound.of_changes hbound.keyed rfl (fun _ => .inl) (fun _ => .inl)
        hbound.length hbound.stored

theorem run_bound {s : TransportCalls}
    (hrun : (machine crypto codec).Run (PresentsOwnID crypto codec) s) :
    s.Bound crypto := by
  apply hrun.invariant
  · intro start hinitial
    rcases hinitial with ⟨node, registry, config, hkeyed, -, rfl⟩
    constructor
    · exact hkeyed
    · intro call hcall
      cases hcall
    · intro call hcall
      cases hcall
    · rfl
    · intro i n hlookup
      cases hlookup
  · intro before action _ hbefore _ howns
    exact hbefore.next howns

/-- While every identity presented to the node has the ID of its own key,
`conns` maps an ID only to connections whose secret was derived from the key
with that ID, and `Send` encrypts under no other secret. -/
theorem conns_bound_to_keys (crypto : NodePrimitives) (codec : Codec)
    {s : TransportCalls}
    (hrun : (machine crypto codec).Run (PresentsOwnID crypto codec) s) :
    s.KeyBound crypto ∧
      ∀ peerID msg input frame,
        (s.transport.sendToPeer crypto codec peerID msg input).frame =
            some frame →
          ∃ publicKey secret,
            BoundKey crypto s.transport.node peerID publicKey secret ∧
            encryptMessage crypto codec msg secret input.nonce =
              .returned frame := by
  have hbound := (run_bound hrun).stored
  refine ⟨hbound, ?_⟩
  intro peerID msg input frame hframe
  unfold Transport.sendToPeer at hframe
  split at hframe
  · cases hframe
  next connection hlookup =>
    rcases Transport.send_frame hframe with ⟨pc, hpc, hencrypted⟩
    rcases hbound hlookup with ⟨stored, publicKey, hstored, -, hpair⟩
    have hsame : stored = pc := by
      rw [hstored] at hpc
      exact Option.some.inj hpc
    subst hsame
    exact ⟨publicKey, stored.sharedSecret, hpair, hencrypted⟩

/-! ### Sample runs -/

/-- A node with key 9 in open mode, and a client that presents key 2 under
the ID 1. -/
def sampleCalls : TransportCalls where
  transport := .newTransport (sampleNode 9) {} {}

theorem sampleCalls_initial : Initial sampleCalls := by
  refine ⟨sampleNode 9, {}, {}, ?_, ?_, rfl⟩
  · intro id peer hpeer
    cases hpeer
  · intro id peer hpeer
    cases hpeer

def sampleAccept : List TransportAction :=
  .arrive :: List.replicate 12 (.upgrade 0 sampleUpgrade)

/-- The client connects twice, then its first connection, which the second one
has replaced, is closed. -/
def sampleReconnect : List TransportAction :=
  sampleAccept ++ .arrive :: List.replicate 12 (.upgrade 1 sampleUpgrade) ++
    .requestClose 0 :: List.replicate 3 (.close 0 0)

/-- The connection that the client opened with key 2 is stored under the ID 1
it claimed. -/
theorem conns_not_bound_to_keys :
    ∃ s, (machine samplePrimitives (sampleCodec 1 2)).Reachable s ∧
      ¬s.KeyBound samplePrimitives := by
  have hreplays : (machine samplePrimitives (sampleCodec 1 2)).Replays
      (fun _ _ => True) sampleCalls sampleAccept := by decide
  refine ⟨_, Machine.Run.replay (.start sampleCalls_initial) hreplays, ?_⟩
  intro hbound
  have hlookup : ((machine samplePrimitives (sampleCodec 1 2)).replay
      sampleCalls sampleAccept).transport.conns.lookup [1] = some 0 := by
    decide
  rcases hbound hlookup with ⟨pc, publicKey, -, hkey, loaded, hloaded, hid, -⟩
  cases hkey
  cases hloaded
  revert hid
  decide

/-- The same client under its own ID. -/
def sampleOwnID : Bytes := nodeID samplePrimitives [2]

def sampleOwnCodec : Codec :=
  .ofTables
    [([1], { identity := { id := sampleOwnID, publicKey := [2] },
             version := protocolVersion })]
    [([2], { identity := { id := [9], publicKey := [9] }, accepted := true })]
    [([1], { type := .handshake, payload := some [1] }),
      ([2], { type := .handshakeAck, fromNode := [9], toNode := sampleOwnID,
              payload := some [2] })]

theorem conns_bound_to_keys_own_id :
    let s := (machine samplePrimitives sampleOwnCodec).replay sampleCalls
      sampleAccept
    s.transport.conns.lookup sampleOwnID = some 0 ∧
      s.KeyBound samplePrimitives := by
  refine ⟨by decide, ?_⟩
  exact (conns_bound_to_keys samplePrimitives sampleOwnCodec
    (Machine.Run.replay (.start sampleCalls_initial) (by decide))).1

end TransportCalls

end GoP2P.Node
