import GoP2P.Mesh

/-!
# Agreement of the responder with the initiator

A client session that succeeds with the key of an honest node knows that its
challenge was signed under the secret of the two.  Only the two nodes have that
secret, but the response names neither the signer's role nor its identity: the
client's own node would sign the challenge just as well, if it were presented
to it with the other node's key.  Runs without such a reflection are the ones
with agreement.
-/

namespace GoP2P.Node

open Transport

section

variable {ι : Type} {crypto : NodePrimitives} {codec : Codec}
variable {nodes : ι → NodeManager}

/-- A server session is handed, under the public key of another honest node, a
challenge that its own node issued. -/
def Mesh.Reflects (crypto : NodePrimitives) (codec : Codec)
    (nodes : ι → NodeManager) (mesh : Mesh ι) (action : MeshAction ι) : Prop :=
  ∃ node other input payload, action = .upgrade node input ∧
    (mesh.transport node).presentedHandshake codec input = some payload ∧
    .issued node payload.challenge ∈ mesh.events ∧
    other ≠ node ∧ CarriesKey crypto nodes payload.identity.publicKey other

/-- No node signed a challenge of its own for another honest node. -/
def Mesh.NoOwnSignature (crypto : NodePrimitives) (nodes : ι → NodeManager)
    (mesh : Mesh ι) : Prop :=
  ∀ ⦃node other payload secret⦄, .signed node payload secret ∈ mesh.events →
    other ≠ node → CarriesKey crypto nodes payload.identity.publicKey other →
      .issued node payload.challenge ∉ mesh.events

theorem Mesh.NoOwnSignature.step {mesh mesh' : Mesh ι}
    {action : MeshAction ι} {event : Option (MeshEvent ι)}
    (hnone : mesh.NoOwnSignature crypto nodes)
    (hstep : mesh.StepTo crypto codec nodes action mesh' event)
    (hreflects : ¬ mesh.Reflects crypto codec nodes action) :
    mesh'.NoOwnSignature crypto nodes := by
  intro node other payload secret hsigned hother hkey hissued
  rw [hstep.events, List.mem_append, Option.mem_toList] at hsigned hissued
  rcases hsigned with hnewSigned | hsigned
  · rcases hstep.justified _ hnewSigned with ⟨⟨input, haction, hpresented⟩, -⟩
    rcases hissued with hnewIssued | hissued
    · rw [hnewSigned] at hnewIssued
      cases hnewIssued
    · exact hreflects ⟨node, other, input, payload, haction, hpresented,
        hissued, hother, hkey⟩
  · rcases hissued with hnewIssued | hissued
    · -- a challenge that was signed before is not fresh
      have hfresh : mesh.Fresh payload.challenge :=
        hstep.justified _ hnewIssued
      exact hfresh.2 node payload secret hsigned rfl
    · exact hnone hsigned hother hkey hissued

variable [DecidableEq ι]

theorem Mesh.noOwnSignature_of_run {mesh : Mesh ι}
    (hrun : (meshMachine crypto codec nodes).Run
      (fun before action => ¬ before.Reflects crypto codec nodes action)
      mesh) :
    mesh.NoOwnSignature crypto nodes := by
  apply hrun.invariant
  · intro start hstart node other payload secret hsigned
    rw [hstart.2.2] at hsigned
    cases hsigned
  · intro before action _ hnone henabled hreflects
    rcases Mesh.stepTo_next henabled with ⟨event, hstep⟩
    exact hnone.step hstep hreflects

end

/-- Whenever a client session of `a` succeeded with the key of `b`, a server
session of `b` received a handshake with the key of `a` and that challenge and
signed the challenge. -/
def Mesh.Agreement {ι : Type} (crypto : NodePrimitives)
    (nodes : ι → NodeManager) (mesh : Mesh ι) : Prop :=
  ∀ (a b : ι) (challenge publicKey : Bytes), a ≠ b →
    CarriesKey crypto nodes publicKey b →
    .authenticated a challenge publicKey ∈ mesh.events →
    ∃ payload secret, .signed b payload secret ∈ mesh.events ∧
      CarriesKey crypto nodes payload.identity.publicKey a ∧
      payload.challenge = challenge

theorem handshake_agreement
    {ι : Type} [DecidableEq ι] (crypto : NodePrimitives) (codec : Codec)
    (nodes : ι → NodeManager) (hsecrets : ExclusiveSecrets crypto nodes)
    (mesh : Mesh ι)
    (hrun : (meshMachine crypto codec nodes).Run
      (fun before action => ¬ before.Reflects crypto codec nodes action)
      mesh) :
    mesh.Agreement crypto nodes := by
  intro a b challenge publicKey hne hkey hsucceeded
  have hsound := Mesh.sound_of_run hrun
  rcases hsound.authenticated hsucceeded with
    ⟨hissued, secret, hsecret, hcause⟩
  have hpair : PairSecret crypto nodes a b secret := ⟨publicKey, hkey, hsecret⟩
  rcases hcause ⟨a, b, hne, hpair⟩ with ⟨signer, payload, hsigned, rfl⟩
  rcases hsecrets hne hpair (hsound.signed hsigned) with
    ⟨rfl, hother⟩ | ⟨rfl, hown⟩
  · exact absurd hissued
      (Mesh.noOwnSignature_of_run hrun hsigned hne.symm hother)
  · exact ⟨payload, secret, hsigned, hown, rfl⟩

/-! ### Two sample nodes -/

def sampleKey : Bool → UInt8
  | false => 1
  | true => 2

def sampleNodes (node : Bool) : NodeManager := sampleNode (sampleKey node)

def sampleSecret : Bytes := [1, 2] ++ List.replicate 30 0

theorem sampleNode_deriveSharedSecret_iff
    {key : UInt8} {publicKey secret : Bytes} :
    (sampleNode key).deriveSharedSecret samplePrimitives publicKey =
        .returned secret ↔
      ∃ other, publicKey = [other] ∧
        secret = [min key other, max key other] ++ List.replicate 30 0 := by
  constructor
  · intro h
    cases publicKey with
    | nil => cases h
    | cons other rest =>
        cases rest with
        | nil =>
            cases h
            exact ⟨other, rfl, rfl⟩
        | cons next rest =>
            simp [NodeManager.deriveSharedSecret, sampleNode, samplePrimitives,
              Outcome.ofExcept, Outcome.mapError] at h
  · intro h
    rcases h with ⟨other, rfl, rfl⟩
    rfl

theorem sampleNodes_carriesKey_iff {publicKey : Bytes} {node : Bool} :
    CarriesKey samplePrimitives sampleNodes publicKey node ↔
      publicKey = [sampleKey node] := by
  constructor
  · intro h
    rcases h with ⟨identity, loaded, hidentity, hloaded, hkey⟩
    cases hidentity
    cases hloaded
    change (if publicKey.length = 1 then _ else _) = _ at hkey
    split at hkey
    · exact Except.ok.inj hkey
    · cases hkey
  · intro h
    subst h
    exact ⟨_, _, rfl, rfl, rfl⟩

theorem sampleNodes_pairSecret {first second : Bool} {secret : Bytes}
    (hne : first ≠ second)
    (hpair : PairSecret samplePrimitives sampleNodes first second secret) :
    secret = sampleSecret := by
  rcases hpair with ⟨publicKey, hkey, hsecret⟩
  rw [sampleNodes_carriesKey_iff] at hkey
  subst hkey
  rcases sampleNode_deriveSharedSecret_iff.mp hsecret with ⟨other, hother, rfl⟩
  cases hother
  cases first <;> cases second
  · exact absurd rfl hne
  · rfl
  · rfl
  · exact absurd rfl hne

theorem sampleNodes_exclusiveSecrets :
    ExclusiveSecrets samplePrimitives sampleNodes := by
  intro first second holder secret publicKey hne hpair hsecret
  cases sampleNodes_pairSecret hne hpair
  rcases sampleNode_deriveSharedSecret_iff.mp hsecret with
    ⟨other, rfl, hshared⟩
  have hkeys : [1, 2] = [min (sampleKey holder) other,
      max (sampleKey holder) other] :=
    List.append_cancel_right hshared
  have hother : other = sampleKey (!holder) := by
    revert other
    cases holder <;> decide +kernel
  subst hother
  simp only [sampleNodes_carriesKey_iff]
  clear hpair hsecret hshared hkeys
  revert first second holder
  decide

/-! ### An honest run and a reflected one -/

def sampleChallenge : List.Vector UInt8 challengeSize :=
  List.Vector.replicate challengeSize 7

def sampleIdentity (node : Bool) : NodeIdentity :=
  { id := [sampleKey node], publicKey := [sampleKey node] }

def sampleHandshake (node : Bool) : HandshakePayload :=
  { identity := sampleIdentity node, challenge := sampleChallenge.toList,
    version := protocolVersion }

def sampleAck (node : Bool) : HandshakeAckPayload :=
  { identity := sampleIdentity node
    challengeResponse :=
      signChallenge samplePrimitives sampleChallenge.toList sampleSecret
    accepted := true }

def meshCodec : Codec :=
  .ofTables [([1], sampleHandshake false), ([2], sampleHandshake true)]
    [([3], sampleAck false), ([4], sampleAck true)]
    [([1], { type := .handshake, fromNode := [1], toNode := [2],
             payload := some [1] }),
      ([2], { type := .handshake, fromNode := [2], toNode := [1],
              payload := some [2] }),
      ([3], { type := .handshakeAck, fromNode := [1], toNode := [2],
              payload := some [3] }),
      ([4], { type := .handshakeAck, fromNode := [2], toNode := [1],
              payload := some [4] }),
      ([5], { id := [5], type := .ping })]

def sampleMesh : Mesh Bool where
  transport := fun node => newTransport (sampleNodes node) {} {}

def samplePeer : Peer := { id := [2] }

def sampleConnect : MeshAction Bool :=
  .connect false samplePeer
    { random := .ok sampleChallenge, now := 0, messageID := [] }

def sampleServe (node : Bool) (handshake : UInt8) : MeshAction Bool :=
  .upgrade node { frame := .ok [handshake], now := 0, messageID := [] }

def sampleAcknowledge : MeshAction Bool :=
  .acknowledge ⟨false, samplePeer, sampleChallenge.toList⟩ 0 (.ok [4])

def honestHandshake : List (MeshAction Bool) :=
  [sampleConnect, sampleServe true 1, sampleAcknowledge]

def reflectedHandshake : List (MeshAction Bool) :=
  [sampleConnect, sampleServe false 2, sampleAcknowledge]

abbrev sampleMachine : Machine (Mesh Bool) (MeshAction Bool) :=
  meshMachine samplePrimitives meshCodec sampleNodes

theorem sampleMesh_starts : sampleMachine.initial sampleMesh :=
  ⟨fun _ => ⟨_, _, rfl⟩, rfl, rfl⟩

/-- The response that the ack of text 4 carries answers the challenge once a
node signed it. -/
theorem sampleAcknowledge_unforged {mesh : Mesh Bool} {signer : Bool}
    {payload : HandshakePayload}
    (hsigned : .signed signer payload sampleSecret ∈ mesh.events)
    (hchallenge : payload.challenge = sampleChallenge.toList) :
    mesh.UnforgedResponse samplePrimitives meshCodec sampleNodes
      (.ok [4]) := by
  intro ackPayload secret subKeys challenge hack hhonest hkeys hverified
  rcases hhonest with ⟨first, second, hne, hpair⟩
  cases sampleNodes_pairSecret hne hpair
  cases hkeys
  cases hack
  have hresponse : sampleSecret ++ sampleChallenge.toList =
      sampleSecret ++ challenge := beq_iff_eq.mp hverified
  refine ⟨signer, payload, hsigned, ?_⟩
  rw [hchallenge]
  exact List.append_cancel_left hresponse

theorem sampleConnect_enabled : sampleMesh.Enabled samplePrimitives meshCodec
    sampleNodes sampleConnect := by
  intro random _
  exact ⟨nofun, nofun⟩

theorem honestHandshake_replays : sampleMachine.Replays
    (fun before action =>
      ¬ before.Reflects samplePrimitives meshCodec sampleNodes action)
    sampleMesh honestHandshake := by
  refine ⟨sampleConnect_enabled, ?_, trivial, ?_, ⟨?_, ?_⟩, ?_, trivial⟩
  · intro hreflects
    rcases hreflects with ⟨node, other, input, payload, haction, -⟩
    cases haction
  · intro hreflects
    rcases hreflects with ⟨node, other, input, payload, haction, -, hissued, -⟩
    cases haction
    have hevent : (.issued true payload.challenge : MeshEvent Bool) ∈
        [.issued false sampleChallenge.toList] := hissued
    simp at hevent
  · exact List.mem_singleton.mpr rfl
  · exact sampleAcknowledge_unforged List.mem_cons_self rfl
  · intro hreflects
    rcases hreflects with ⟨node, other, input, payload, haction, -⟩
    cases haction

theorem handshake_agreement_honest_run :
    ∃ payload secret, .signed true payload secret ∈
        (sampleMachine.replay sampleMesh honestHandshake).events ∧
      CarriesKey samplePrimitives sampleNodes payload.identity.publicKey
        false ∧
      payload.challenge = sampleChallenge.toList :=
  handshake_agreement samplePrimitives meshCodec sampleNodes
    sampleNodes_exclusiveSecrets _
    ((Machine.Run.start sampleMesh_starts).replay honestHandshake_replays)
    false true sampleChallenge.toList [2] (by decide)
    (sampleNodes_carriesKey_iff.mpr rfl) List.mem_cons_self

/-- The reflected run ends with a client session that took its own node for
the other one, which did nothing. -/
theorem reflected_handshake_breaks_agreement :
    ExclusiveSecrets samplePrimitives sampleNodes ∧
      sampleMachine.Reachable
        (sampleMachine.replay sampleMesh reflectedHandshake) ∧
      ¬ (sampleMachine.replay sampleMesh reflectedHandshake).Agreement
        samplePrimitives sampleNodes := by
  refine ⟨sampleNodes_exclusiveSecrets, ?_, ?_⟩
  · apply (Machine.Run.start sampleMesh_starts).replay
    refine ⟨sampleConnect_enabled, trivial, trivial, trivial, ⟨?_, ?_⟩,
      trivial, trivial⟩
    · exact List.mem_singleton.mpr rfl
    · exact sampleAcknowledge_unforged List.mem_cons_self rfl
  · intro hagreement
    have hevents :
        (sampleMachine.replay sampleMesh reflectedHandshake).events =
          [.authenticated false sampleChallenge.toList [2],
            .signed false (sampleHandshake true) sampleSecret,
            .issued false sampleChallenge.toList] := rfl
    rcases hagreement false true sampleChallenge.toList [2] (by decide)
        (sampleNodes_carriesKey_iff.mpr rfl) (by rw [hevents]; simp) with
      ⟨payload, secret, hsigned, -⟩
    rw [hevents] at hsigned
    simp at hsigned

end GoP2P.Node
