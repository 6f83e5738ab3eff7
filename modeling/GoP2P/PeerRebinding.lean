import GoP2P.OutboundConnect
import GoP2P.ConnectionBinding

/-!
# Handshakes and the keys of known peers

An inbound handshake leaves the record of a known peer as it is.  `Connect`
does not: it writes the identity of the ack into the record it was given, which
may be one that the registry holds, and after the verification it puts that
record into the registry under the ID the ack claims, whoever had this ID
before.  What the verification shows is that the server has the key it claims,
not that the key belongs to the ID.
-/

namespace GoP2P.Node

namespace PeerRegistry

/-- From `r` to `r'` every peer with a key keeps it. -/
def KeepsBindings (r r' : PeerRegistry) : Prop :=
  ∀ ⦃i peer⦄, r.getPeer i = some peer → peer.publicKey ≠ [] →
    ∃ peer', r'.getPeer i = some peer' ∧ peer'.publicKey = peer.publicKey

theorem KeepsBindings.refl (r : PeerRegistry) : KeepsBindings r r := by
  intro i peer hpeer _
  exact ⟨peer, hpeer, rfl⟩

theorem KeepsBindings.trans {r r' r'' : PeerRegistry}
    (hfirst : KeepsBindings r r') (hsecond : KeepsBindings r' r'') :
    KeepsBindings r r'' := by
  intro i peer hpeer hkey
  rcases hfirst hpeer hkey with ⟨peer', hpeer', hsame⟩
  rcases hsecond hpeer' (by rw [hsame]; exact hkey) with
    ⟨peer'', hpeer'', hsame'⟩
  exact ⟨peer'', hpeer'', hsame'.trans hsame⟩

/-- At most the record under `id` is replaced, and by one with the same key if
it had one. -/
theorem keepsBindings_insert {r : PeerRegistry} {id : Bytes} {new : Peer}
    (hkey : ∀ old, r.getPeer id = some old → old.publicKey ≠ [] →
      new.publicKey = old.publicKey) :
    KeepsBindings r { r with peers := r.peers.insert id new } := by
  intro i peer hpeer hnonempty
  rw [getPeer_insert]
  by_cases hi : i = id
  · subst hi
    rw [if_pos rfl]
    exact ⟨new, rfl, hkey peer hpeer hnonempty⟩
  · rw [if_neg hi]
    exact ⟨peer, hpeer, rfl⟩

theorem keepsBindings_setConnected (r : PeerRegistry) (now : Time) (id : Bytes)
    (connected : Bool) : KeepsBindings r (r.setConnected now id connected) := by
  unfold setConnected
  cases hfound : r.peers.lookup id with
  | none => exact .refl r
  | some peer =>
      apply keepsBindings_insert
      intro old hold _
      rw [getPeer, hfound, Option.some.injEq] at hold
      subst hold
      rfl

/-- `AddPeer` never touches a record that is there. -/
theorem keepsBindings_addPeer (r : PeerRegistry) (now : Time) (peer : Peer) :
    KeepsBindings r ((RegistryCall.addPeer now peer).apply r) := by
  unfold RegistryCall.apply
  split
  next added hadded =>
    unfold RegistryCall.run addPeer at hadded
    dsimp only at hadded
    split at hadded
    · cases hadded
    · rcases Outcome.bind_eq_returned_iff.mp hadded with ⟨_, -, hrest⟩
      split at hrest
      · cases hrest
      next hmissing =>
        cases hrest
        apply keepsBindings_insert
        intro old hold
        rw [getPeer] at hold
        rw [hold] at hmissing
        exact absurd rfl hmissing
  next => exact .refl r

theorem keepsBindings_updatePeer {r updated : PeerRegistry} {peer : Peer}
    (hupdated : r.updatePeer peer = .returned updated)
    (hkey : ∀ old, r.getPeer peer.id = some old → old.publicKey ≠ [] →
      peer.publicKey = old.publicKey) : KeepsBindings r updated := by
  unfold updatePeer at hupdated
  split at hupdated
  · cases hupdated
    exact keepsBindings_insert hkey
  · cases hupdated

theorem keepsBindings_showing {r : PeerRegistry} {held : List Bytes}
    {peer : Peer} (hshared : ∀ id ∈ held, r.getPeer id = some peer)
    {new : Peer} (hkey : held ≠ [] → peer.publicKey ≠ [] →
      new.publicKey = peer.publicKey) :
    KeepsBindings r (r.showing held new) := by
  intro i old hold hnonempty
  rw [getPeer_showing]
  by_cases hheld : i ∈ held
  · rw [hshared i hheld, Option.some.injEq] at hold
    subst hold
    rw [if_pos hheld]
    exact ⟨new, rfl, hkey (List.ne_nil_of_mem hheld) hnonempty⟩
  · rw [if_neg hheld]
    exact ⟨old, hold, rfl⟩

end PeerRegistry

open PeerRegistry

/-! ### Handshakes only -/

def TransportAction.isHandshake : TransportAction → Bool
  | .arrive | .upgrade _ _ | .dial _ _ _ _ | .connect _ _ | .requestClose _
  | .close _ _ => true
  | .announce _ _ _ | .finishAnnounce _ | .operate _ => false

namespace TransportCalls

section

variable (crypto : NodePrimitives) (codec : Codec)

def handshakeMachine : Machine TransportCalls TransportAction where
  initial := Initial
  enabled s action := action.isHandshake = true ∧ s.Enabled action
  next := next crypto codec

instance (s : TransportCalls) (action : TransportAction) :
    Decidable ((handshakeMachine crypto codec).enabled s action) :=
  inferInstanceAs (Decidable (action.isHandshake = true ∧ s.Enabled action))

/-- The identity that `Connect` reads or records has the key that the registry
knows for the record it replaces, if it knows one. -/
def ClaimsKnownKey (s : TransportCalls) : TransportAction → Prop
  | .dial peer held _ frame =>
      match Transport.readHandshakeAck codec frame with
      | .returned ackPayload => held ≠ [] → peer.publicKey ≠ [] →
          ackPayload.identity.publicKey = peer.publicKey
      | _ => True
  | .connect position _ =>
      ∀ call ∈ s.connects[position]?, call.stage = .verified →
        ∀ old ∈ s.transport.registry.getPeer call.peer.id,
          old.publicKey ≠ [] → call.peer.publicKey = old.publicKey
  | _ => True

instance (s : TransportCalls) : DecidablePred (s.ClaimsKnownKey codec)
  | .dial peer held _ frame => by
      dsimp only [ClaimsKnownKey]
      match Transport.readHandshakeAck codec frame with
      | .returned ackPayload => dsimp only; infer_instance
      | .failed _ | .panicked | .unfinished => exact .isTrue trivial
  | .connect position _ =>
      inferInstanceAs (Decidable (∀ call ∈ s.connects[position]?,
        call.stage = .verified →
          ∀ old ∈ s.transport.registry.getPeer call.peer.id,
            old.publicKey ≠ [] → call.peer.publicKey = old.publicKey))
  | .arrive | .upgrade _ _ | .requestClose _ | .close _ _ | .announce _ _ _
  | .finishAnnounce _ | .operate _ => .isTrue trivial

end

section

variable {crypto : NodePrimitives} {codec : Codec}

theorem advanceUpgrade_keepsBindings (t : Transport) (call : UpgradeCall)
    (input : Transport.UpgradeInput) :
    KeepsBindings t.registry
      (t.advanceUpgrade crypto codec call input).1.registry := by
  unfold Transport.advanceUpgrade
  cases call.stage with
  | unregistered => exact keepsBindings_addPeer _ _ _
  | stored => exact keepsBindings_setConnected _ _ _ _
  | counted | handshaking | screened | authorised =>
      dsimp only
      split <;> exact .refl _
  | _ => exact .refl _

/-- `UpdatePeer` is the one write of a handshake that replaces a record. -/
theorem advanceConnect_keepsBindings {t : Transport} {call : ConnectCall}
    (hclaims : call.stage = .verified →
      ∀ old ∈ t.registry.getPeer call.peer.id, old.publicKey ≠ [] →
        call.peer.publicKey = old.publicKey) (now : Time) :
    KeepsBindings t.registry (t.advanceConnect call now).1.registry := by
  unfold Transport.advanceConnect
  cases hstage : call.stage with
  | verified =>
      dsimp only
      split
      next updated hupdated =>
        exact keepsBindings_updatePeer hupdated (hclaims hstage)
      next => exact .refl _
  | unlisted => exact keepsBindings_addPeer _ _ _
  | stored => exact keepsBindings_setConnected _ _ _ _
  | _ => exact .refl _

theorem advanceClose_keepsBindings (t : Transport) (call : CloseCall)
    (now : Time) :
    KeepsBindings t.registry (t.advanceClose call now).1.registry := by
  unfold Transport.advanceClose
  split
  · exact .refl _
  · cases call.stage with
    | dropped => exact keepsBindings_setConnected _ _ _ _
    | _ => exact .refl _

theorem registryAfterAck_keepsBindings {registry : PeerRegistry} {peer : Peer}
    {held : List Bytes} (hshared : ∀ id ∈ held, registry.getPeer id = some peer)
    {frame : Except CoreError Bytes}
    (hclaims : ∀ ackPayload,
      Transport.readHandshakeAck codec frame = .returned ackPayload →
        held ≠ [] → peer.publicKey ≠ [] →
          ackPayload.identity.publicKey = peer.publicKey) :
    KeepsBindings registry
      (Transport.registryAfterAck codec registry peer held frame) := by
  unfold Transport.registryAfterAck
  split
  next ackPayload hack =>
    exact keepsBindings_showing hshared (hclaims ackPayload hack)
  next => exact .refl _

theorem next_keepsBindings {s : TransportCalls} {action : TransportAction}
    (hhandshake : action.isHandshake = true) (henabled : s.Enabled action)
    (hclaims : s.ClaimsKnownKey codec action) :
    KeepsBindings s.transport.registry
      (s.next crypto codec action).transport.registry := by
  have heffect : Effect crypto codec s action _ := s.next_effect action
  generalize s.next crypto codec action = s' at heffect ⊢
  cases heffect with
  | upgraded => exact advanceUpgrade_keepsBindings _ _ _
  | dialled haction =>
      subst haction
      apply registryAfterAck_keepsBindings henabled
      intro ackPayload hack
      simpa [ClaimsKnownKey, hack] using hclaims
  | @connected position now call haction hcall =>
      subst haction
      exact advanceConnect_keepsBindings (hclaims call hcall) now
  | closed => exact advanceClose_keepsBindings _ _ _
  | finished haction | operated haction =>
      rw [haction] at hhandshake
      cases hhandshake
  | nothing | arrived | closeRequested | announced => exact .refl _

/-- From any state on, in every run of handshakes in which `Connect` reads and
records no identity with another key than the registry knows, every peer with a
key keeps it. -/
theorem handshakes_keep_bindings (crypto : NodePrimitives) (codec : Codec)
    {s : TransportCalls} {actions : List TransportAction}
    (hactions : (handshakeMachine crypto codec).Replays
      (fun before => before.ClaimsKnownKey codec) s actions) :
    KeepsBindings s.transport.registry
      ((handshakeMachine crypto codec).replay s actions).transport.registry := by
  apply hactions.invariant fun _ after =>
    KeepsBindings s.transport.registry after.transport.registry
  · exact .refl _
  · intro before action hbefore henabled hclaims
    exact hbefore.trans (next_keepsBindings henabled.1 henabled.2 hclaims)

end

/-! ### A sample server -/

def sampleKnown : TransportCalls where
  transport := .newTransport (sampleNode 9)
    { peers := Finmap.singleton [1] { id := [1], publicKey := [1] } } {}

theorem sampleKnown_initial : Initial sampleKnown := by
  have hlookup : ∀ {id peer}, sampleKnown.transport.registry.getPeer id =
      some peer → id = [1] ∧ peer = { id := [1], publicKey := [1] } := by
    intro id peer hpeer
    by_cases hid : id = [1]
    · subst hid
      cases hpeer
      exact ⟨rfl, rfl⟩
    · have hnone : sampleKnown.transport.registry.getPeer id = none := by
        apply Finmap.lookup_eq_none.mpr
        exact mt (Finmap.mem_singleton _ _ _).mp hid
      rw [hnone] at hpeer
      cases hpeer
  refine ⟨_, _, _, ?_, ?_, rfl⟩
  · intro id peer hpeer
    rcases hlookup hpeer with ⟨rfl, rfl⟩
    rfl
  · intro id peer hpeer
    rcases hlookup hpeer with ⟨rfl, rfl⟩
    rfl

/-- A server with this key that claims the ID 1 and answers the challenge. -/
def sampleClaim (key : UInt8) : Codec :=
  .ofTables []
    [([2], { identity := { id := [1], publicKey := [key] }
             challengeResponse := signChallenge samplePrimitives
               (List.replicate challengeSize 7)
               ([min 9 key, max 9 key] ++ List.replicate 30 0)
             accepted := true })]
    [([2], { type := .handshakeAck, payload := some [2] })]

/-- `Connect` to a peer of which only the address is known. -/
def sampleOutbound : List TransportAction :=
  .dial { address := [8] } [] (List.replicate challengeSize 7) (.ok [2]) ::
    List.replicate 4 (.connect 0 0)

theorem handshakes_keep_bindings_own_key :
    let s := (handshakeMachine samplePrimitives (sampleClaim 1)).replay
      sampleKnown sampleOutbound
    s.transport.conns.lookup [1] = some 0 ∧
      ∃ peer, s.transport.registry.getPeer [1] = some peer ∧
        peer.publicKey = [1] := by
  have hreplays : (handshakeMachine samplePrimitives (sampleClaim 1)).Replays
      (fun before => before.ClaimsKnownKey (sampleClaim 1)) sampleKnown
      sampleOutbound := by decide +kernel
  have hknown : sampleKnown.transport.registry.getPeer [1] =
      some { id := [1], publicKey := [1] } := rfl
  refine ⟨by decide +kernel, ?_⟩
  exact handshakes_keep_bindings samplePrimitives (sampleClaim 1) hreplays
    hknown (by decide)

/-- A server with key 2 claims the ID of the peer known with key 1. -/
theorem handshake_rebinds_known_peer :
    let s := (handshakeMachine samplePrimitives (sampleClaim 2)).replay
      sampleKnown sampleOutbound
    (handshakeMachine samplePrimitives (sampleClaim 2)).Reachable s ∧
      (sampleKnown.transport.registry.getPeer [1]).map (·.publicKey) =
        some [1] ∧
      (s.transport.registry.getPeer [1]).map (·.publicKey) = some [2] := by
  have hreplays : (handshakeMachine samplePrimitives (sampleClaim 2)).Replays
      (fun _ _ => True) sampleKnown sampleOutbound := by decide +kernel
  exact ⟨Machine.Run.replay (.start sampleKnown_initial) hreplays,
    by decide +kernel, by decide +kernel⟩

end TransportCalls

end GoP2P.Node
