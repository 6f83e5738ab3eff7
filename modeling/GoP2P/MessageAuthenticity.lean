import GoP2P.HandshakeAgreement

/-!
# Where handled messages come from

Every connection between the same two nodes, in either direction, encrypts
under one key with constant additional data.  So a message that a read loop
handles under the secret of two honest nodes was sent by one of the two, but a
node's own frame, handed back to it, opens as well.
-/

namespace GoP2P.Node

open Transport

/-- A message handled by `a` on a connection whose secret it shares with the
honest node `b` was passed to `Send` on a connection with that secret, by `b`,
who shares the secret with `a`, or by `a` itself. -/
theorem handled_message_was_sent
    {ι : Type} [DecidableEq ι] (crypto : NodePrimitives) (codec : Codec)
    (nodes : ι → NodeManager) (hsecrets : ExclusiveSecrets crypto nodes)
    (haead : crypto.SealsAndOpens) (mesh : Mesh ι)
    (hreachable : (meshMachine crypto codec nodes).Reachable mesh)
    (a b : ι) (hne : a ≠ b) (secret : Bytes)
    (hpair : PairSecret crypto nodes a b secret) (msg : Message)
    (hhandled : .handled a secret msg ∈ mesh.events) :
    ∃ sender sentMsg frame,
      .sent sender secret sentMsg frame ∈ mesh.events ∧
      sentMsg.ArrivesAs crypto codec msg ∧
      (sender = b ∧ PairSecret crypto nodes b a secret ∨ sender = a) := by
  have hsound := Mesh.sound_of_run hreachable
  rcases hsound.handled hhandled ⟨a, b, hne, hpair⟩ with
    ⟨sender, sentMsg, frame, hsent, hreceived⟩
  rcases hsound.sent hsent with ⟨⟨publicKey, hderived⟩, nonce, hencrypted⟩
  refine ⟨sender, sentMsg, frame, hsent,
    arrivesAs_of_decryptMessage haead hencrypted hreceived, ?_⟩
  rcases hsecrets hne hpair hderived with ⟨hown, -⟩ | ⟨hother, hkey⟩
  · exact .inr hown
  · rw [hother] at hderived
    exact .inl ⟨hother, publicKey, hkey, hderived⟩

/-! ### Sample runs -/

theorem samplePrimitives_sealsAndOpens : samplePrimitives.SealsAndOpens where
  opens := by
    intro key nonce plaintext data
    simp [samplePrimitives]
  length := by
    intro key nonce plaintext data
    simp [samplePrimitives, aeadOverhead]
    omega

def samplePing : Message := { id := [5], type := .ping }

def connectedMesh : Mesh Bool := sampleMachine.replay sampleMesh honestHandshake

def sampleFrame : Bytes :=
  1 :: List.replicate 12 0 ++ sampleSecret.take 16 ++ [5]

def pingRun (sender : Bool) : List (MeshAction Bool) :=
  [.operate false {} true,
    .send sender 0 samplePing
      { nonce := .ok (List.Vector.replicate aeadNonceSize 0), now := 0 },
    .receive false 0 0 (.ok sampleFrame)]

theorem pingRun_events (sender : Bool) :
    (sampleMachine.replay connectedMesh (pingRun sender)).events =
      .handled false sampleSecret samplePing ::
        .sent sender sampleSecret samplePing sampleFrame ::
          connectedMesh.events := by
  cases sender <;> rfl

theorem pingRun_reachable (sender : Bool) : sampleMachine.Reachable
    (sampleMachine.replay connectedMesh (pingRun sender)) := by
  have hconnected : sampleMachine.Reachable connectedMesh :=
    ((Machine.Run.start sampleMesh_starts).replay
      honestHandshake_replays).reachable
  apply hconnected.replay
  refine ⟨trivial, trivial, trivial, trivial, ?_, trivial, trivial⟩
  intro pc data plaintext hpc _ hdata _
  cases hdata
  have hsecret : pc.sharedSecret = sampleSecret := by
    cases sender <;> cases hpc <;> rfl
  rw [hsecret]
  refine ⟨sender, samplePing, ?_⟩
  cases sender <;> exact List.mem_cons_self

theorem sampleNodes_share : PairSecret samplePrimitives sampleNodes false true
    sampleSecret :=
  ⟨[2], sampleNodes_carriesKey_iff.mpr rfl, rfl⟩

theorem handled_message_was_sent_by_peer :
    ∃ sender sentMsg frame,
      .sent sender sampleSecret sentMsg frame ∈
        (sampleMachine.replay connectedMesh (pingRun true)).events ∧
      sentMsg.ArrivesAs samplePrimitives meshCodec samplePing ∧
      (sender = true ∧
          PairSecret samplePrimitives sampleNodes true false sampleSecret ∨
        sender = false) :=
  handled_message_was_sent samplePrimitives meshCodec sampleNodes
    sampleNodes_exclusiveSecrets samplePrimitives_sealsAndOpens _
    (pingRun_reachable true) false true (by decide) sampleSecret
    sampleNodes_share samplePing (by rw [pingRun_events]; simp)

/-- Node `false` handles its own ping, handed back to it, as a message of node
`true`, which never sent anything. -/
theorem reflected_ping_is_handled :
    ∃ mesh, sampleMachine.Reachable mesh ∧
      .handled false sampleSecret samplePing ∈ mesh.events ∧
      PairSecret samplePrimitives sampleNodes false true sampleSecret ∧
      ∀ secret msg frame, .sent true secret msg frame ∉ mesh.events := by
  refine ⟨_, pingRun_reachable false, ?_, sampleNodes_share, ?_⟩
  · rw [pingRun_events]
    exact List.mem_cons_self
  · intro secret msg frame hsent
    have hconnected : connectedMesh.events =
        [.authenticated false sampleChallenge.toList [2],
          .signed true (sampleHandshake false) sampleSecret,
          .issued false sampleChallenge.toList] := rfl
    rw [pingRun_events, hconnected] at hsent
    simp at hsent

end GoP2P.Node
