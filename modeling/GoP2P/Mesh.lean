import GoP2P.Runs
import GoP2P.TransportKeys

/-!
# Honest nodes on an adversarial network

Any number of honest nodes run client sessions, server sessions and read
loops.  The network is the adversary: it hands any frame to any session or
connection, so reading, dropping, replaying and redirecting need no actions of
their own.  What it cannot do is the business of `enabled`: a challenge was
never seen before it is drawn, a response that verifies under the secret of two
honest nodes was computed by a node that signed that challenge under that
secret, and a frame that opens under such a secret was encrypted under it.
-/

namespace GoP2P.Node

open Transport

/-- What happened, as far as the statements about runs refer to it. -/
inductive MeshEvent (ι : Type) where
  | issued (node : ι) (challenge : Bytes)
  | signed (node : ι) (payload : HandshakePayload) (sharedSecret : Bytes)
  | authenticated (node : ι) (challenge publicKey : Bytes)
  | sent (node : ι) (sharedSecret : Bytes) (msg : Message) (frame : Bytes)
  | handled (node : ι) (sharedSecret : Bytes) (msg : Message)
  deriving DecidableEq

structure ClientSession (ι : Type) where
  node : ι
  peer : Peer
  challenge : Bytes
  deriving DecidableEq

structure Mesh (ι : Type) where
  transport : ι → Transport
  sessions : List (ClientSession ι) := []
  events : List (MeshEvent ι) := []

inductive MeshAction (ι : Type) where
  | connect (node : ι) (peer : Peer) (input : ConnectInput)
  | acknowledge (session : ClientSession ι) (now : Time)
      (frame : Except CoreError Bytes)
  | upgrade (node : ι) (input : UpgradeInput)
  | send (node : ι) (connection : ℕ) (msg : Message) (input : SendInput)
  | receive (node : ι) (connection : ℕ) (now : Time)
      (frame : Except CoreError Bytes)
  | close (node : ι) (connection : ℕ) (now : Time)
  /-- Whatever else the program does with its registry and handler. -/
  | operate (node : ι) (registry : PeerRegistry) (hasHandler : Bool)

section

variable {ι : Type} (crypto : NodePrimitives) (codec : Codec)
variable (nodes : ι → NodeManager)

/-- `publicKey` is a spelling of the public key of `node`. -/
def CarriesKey (publicKey : Bytes) (node : ι) : Prop :=
  ∃ identity loaded, (nodes node).identity = some identity ∧
    crypto.loadPublicKeyBase64 identity.publicKey = .ok loaded ∧
    crypto.loadPublicKeyBase64 publicKey = .ok loaded

/-- `secret` is what `first` derives from the public key of `second`. -/
def PairSecret (first second : ι) (secret : Bytes) : Prop :=
  ∃ publicKey, CarriesKey crypto nodes publicKey second ∧
    (nodes first).deriveSharedSecret crypto publicKey = .returned secret

/-- The secret of two honest nodes can be derived only by one of the two, and
only from the public key of the other. -/
def ExclusiveSecrets : Prop :=
  ∀ ⦃first second holder : ι⦄ ⦃secret publicKey : Bytes⦄, first ≠ second →
    PairSecret crypto nodes first second secret →
    (nodes holder).deriveSharedSecret crypto publicKey = .returned secret →
      (holder = first ∧ CarriesKey crypto nodes publicKey second) ∨
        (holder = second ∧ CarriesKey crypto nodes publicKey first)

def HonestSecret (secret : Bytes) : Prop :=
  ∃ first second, first ≠ second ∧ PairSecret crypto nodes first second secret

/-! ### What the adversary cannot do -/

def Mesh.Fresh (mesh : Mesh ι) (challenge : Bytes) : Prop :=
  (∀ node, .issued node challenge ∉ mesh.events) ∧
    ∀ node payload secret, .signed node payload secret ∈ mesh.events →
      payload.challenge ≠ challenge

def Mesh.UnforgedResponse (mesh : Mesh ι) (frame : Except CoreError Bytes) :
    Prop :=
  ∀ ackPayload secret subKeys challenge,
    readHandshakeAck codec frame = .returned ackPayload →
    HonestSecret crypto nodes secret →
    deriveSubKeys crypto secret = .returned subKeys →
    verifyChallenge crypto challenge ackPayload.challengeResponse
      subKeys.chlKey = true →
    ∃ node payload, .signed node payload secret ∈ mesh.events ∧
      payload.challenge = challenge

def Mesh.UnforgedFrame (mesh : Mesh ι) (node : ι) (connection : ℕ)
    (frame : Except CoreError Bytes) : Prop :=
  ∀ pc data plaintext,
    (mesh.transport node).connections[connection]? = some pc →
    HonestSecret crypto nodes pc.sharedSecret →
    frame = .ok data →
    decryptTransportPayload crypto data pc.sharedSecret =
      .returned plaintext →
    ∃ sender msg, .sent sender pc.sharedSecret msg data ∈ mesh.events

def Mesh.Enabled (mesh : Mesh ι) : MeshAction ι → Prop
  | .connect _ _ input =>
      ∀ random, input.random = .ok random → mesh.Fresh random.toList
  | .acknowledge session _ frame =>
      session ∈ mesh.sessions ∧ mesh.UnforgedResponse crypto codec nodes frame
  | .receive node connection _ frame =>
      mesh.UnforgedFrame crypto nodes node connection frame
  | .upgrade _ _ => True
  | .send _ _ _ _ => True
  | .close _ _ _ => True
  | .operate _ _ _ => True

/-! ### Steps -/

variable [DecidableEq ι]

def Mesh.setTransport (mesh : Mesh ι) (node : ι) (t : Transport) : Mesh ι :=
  { mesh with transport := Function.update mesh.transport node t }

def Mesh.record (mesh : Mesh ι) (event : Option (MeshEvent ι)) : Mesh ι :=
  { mesh with events := event.toList ++ mesh.events }

def Mesh.secretOf (mesh : Mesh ι) (node : ι) (connection : ℕ) : Bytes :=
  ((mesh.transport node).connections[connection]?.map
    (·.sharedSecret)).getD []

def Mesh.next (mesh : Mesh ι) : MeshAction ι → Mesh ι
  | .connect node peer input =>
      match (mesh.transport node).startConnect codec peer input with
      | .returned started =>
          { mesh with
            sessions := ⟨node, peer, started.1⟩ :: mesh.sessions
            events := .issued node started.1 :: mesh.events }
      | _ => mesh
  | .acknowledge session now frame =>
      let done := (mesh.transport session.node).completeConnect crypto codec
        session.peer session.challenge now frame
      let mesh := { mesh with sessions := mesh.sessions.erase session }
      (mesh.setTransport session.node done.transport).record
        (done.verified.map (.authenticated session.node session.challenge))
  | .upgrade node input =>
      let done := (mesh.transport node).handleWSUpgrade crypto codec input
      (mesh.setTransport node done.transport).record
        (done.signed.map fun signed => .signed node signed.1 signed.2)
  | .send node connection msg input =>
      let done := (mesh.transport node).send crypto codec connection msg input
      (mesh.setTransport node done.transport).record
        (done.frame.map (.sent node (mesh.secretOf node connection) msg))
  | .receive node connection now frame =>
      let done := (mesh.transport node).readLoopTurn crypto codec connection
        now frame
      (mesh.setTransport node done.transport).record
        (done.handled.map (.handled node (mesh.secretOf node connection)))
  | .close node connection now =>
      mesh.setTransport node
        ((mesh.transport node).dropConnection now connection)
  | .operate node registry hasHandler =>
      mesh.setTransport node
        { mesh.transport node with
          registry := registry, hasHandler := hasHandler }

def Mesh.Starts (mesh : Mesh ι) : Prop :=
  (∀ node, ∃ registry config,
    mesh.transport node = newTransport (nodes node) registry config) ∧
  mesh.sessions = [] ∧ mesh.events = []

def meshMachine : Machine (Mesh ι) (MeshAction ι) where
  initial := Mesh.Starts nodes
  enabled := Mesh.Enabled crypto codec nodes
  next := Mesh.next crypto codec

end

/-! ### What one step does -/

section

variable {ι : Type} {crypto : NodePrimitives} {codec : Codec}
variable {nodes : ι → NodeManager}

def Mesh.Justifies (crypto : NodePrimitives) (codec : Codec)
    (nodes : ι → NodeManager) (mesh : Mesh ι) (action : MeshAction ι) :
    MeshEvent ι → Prop
  | .issued _ challenge => mesh.Fresh challenge
  | .signed node payload secret =>
      (∃ input, action = .upgrade node input ∧
        (mesh.transport node).presentedHandshake codec input = some payload) ∧
      (mesh.transport node).node.deriveSharedSecret crypto
        payload.identity.publicKey = .returned secret
  | .authenticated node challenge publicKey =>
      (∃ session ∈ mesh.sessions,
        session.node = node ∧ session.challenge = challenge) ∧
      ∃ frame ackPayload secret,
        mesh.UnforgedResponse crypto codec nodes frame ∧
        readHandshakeAck codec frame = .returned ackPayload ∧
        publicKey = ackPayload.identity.publicKey ∧
        verifyHandshakeAck crypto (mesh.transport node).node challenge
          ackPayload = .returned secret
  | .sent node secret msg frame =>
      ∃ pc ∈ (mesh.transport node).connections, secret = pc.sharedSecret ∧
        ∃ nonce, encryptMessage crypto codec msg secret nonce = .returned frame
  | .handled _ secret msg =>
      ∃ data, decryptMessage crypto codec data secret = .returned msg ∧
        (HonestSecret crypto nodes secret →
          ∃ sender sentMsg, .sent sender secret sentMsg data ∈ mesh.events)

/-- Everything a step can change. -/
structure Mesh.StepTo (crypto : NodePrimitives) (codec : Codec)
    (nodes : ι → NodeManager) (mesh : Mesh ι) (action : MeshAction ι)
    (mesh' : Mesh ι) (event : Option (MeshEvent ι)) : Prop where
  events : mesh'.events = event.toList ++ mesh.events
  keys : ∀ node, KeepsKeys crypto (mesh.transport node) (mesh'.transport node)
  sessions : ∀ session ∈ mesh'.sessions, session ∈ mesh.sessions ∨
    event = some (.issued session.node session.challenge)
  justified : ∀ new, event = some new →
    mesh.Justifies crypto codec nodes action new

theorem Mesh.secretOf_eq {mesh : Mesh ι} {node : ι} {connection : ℕ}
    {pc : PeerConnection}
    (hpc : (mesh.transport node).connections[connection]? = some pc) :
    mesh.secretOf node connection = pc.sharedSecret := by
  simp [Mesh.secretOf, hpc]

theorem Mesh.stepTo_self (mesh : Mesh ι) (action : MeshAction ι) :
    mesh.StepTo crypto codec nodes action mesh none where
  events := rfl
  keys := fun _ => .refl _
  sessions := fun _ hsession => .inl hsession
  justified := nofun

/-! ### What holds along every run -/

/-- Keys stay where they belong, and every event has its cause among the
events before it. -/
structure Mesh.Sound (crypto : NodePrimitives) (codec : Codec)
    (nodes : ι → NodeManager) (mesh : Mesh ι) : Prop where
  node : ∀ i, (mesh.transport i).node = nodes i
  secrets : ∀ i, (mesh.transport i).SecretsDerived crypto
  session : ∀ session ∈ mesh.sessions,
    .issued session.node session.challenge ∈ mesh.events
  signed : ∀ ⦃i payload secret⦄, .signed i payload secret ∈ mesh.events →
    (nodes i).deriveSharedSecret crypto payload.identity.publicKey =
      .returned secret
  authenticated : ∀ ⦃i challenge publicKey⦄,
    .authenticated i challenge publicKey ∈ mesh.events →
    .issued i challenge ∈ mesh.events ∧ ∃ secret,
      (nodes i).deriveSharedSecret crypto publicKey = .returned secret ∧
      (HonestSecret crypto nodes secret → ∃ signer payload,
        .signed signer payload secret ∈ mesh.events ∧
          payload.challenge = challenge)
  sent : ∀ ⦃i secret msg frame⦄, .sent i secret msg frame ∈ mesh.events →
    (∃ publicKey,
      (nodes i).deriveSharedSecret crypto publicKey = .returned secret) ∧
    ∃ nonce, encryptMessage crypto codec msg secret nonce = .returned frame
  handled : ∀ ⦃i secret msg⦄, .handled i secret msg ∈ mesh.events →
    HonestSecret crypto nodes secret → ∃ sender sentMsg frame,
      .sent sender secret sentMsg frame ∈ mesh.events ∧
        decryptMessage crypto codec frame secret = .returned msg

theorem Mesh.Starts.sound {mesh : Mesh ι} (hstarts : mesh.Starts nodes) :
    mesh.Sound crypto codec nodes := by
  rcases hstarts with ⟨htransports, hsessions, hevents⟩
  constructor
  case node =>
    intro i
    rcases htransports i with ⟨registry, config, htransport⟩
    rw [htransport]
    rfl
  case secrets =>
    intro i pc hpc
    rcases htransports i with ⟨registry, config, htransport⟩
    rw [htransport] at hpc
    cases hpc
  all_goals simp [hsessions, hevents]

theorem Mesh.Sound.step {mesh mesh' : Mesh ι} {action : MeshAction ι}
    {event : Option (MeshEvent ι)}
    (hsound : mesh.Sound crypto codec nodes)
    (hstep : mesh.StepTo crypto codec nodes action mesh' event) :
    mesh'.Sound crypto codec nodes := by
  have hold : ∀ {e}, e ∈ mesh.events → e ∈ mesh'.events := by
    intro e he
    rw [hstep.events]
    exact List.mem_append_right _ he
  have hcases : ∀ {e}, e ∈ mesh'.events →
      mesh.Justifies crypto codec nodes action e ∨ e ∈ mesh.events := by
    intro e he
    rw [hstep.events, List.mem_append, Option.mem_toList] at he
    rcases he with hnew | hmem
    · exact .inl (hstep.justified e hnew)
    · exact .inr hmem
  constructor
  case node =>
    intro i
    rw [(hstep.keys i).node, hsound.node i]
  case secrets =>
    intro i
    exact (hstep.keys i).secrets (hsound.secrets i)
  case session =>
    intro session hsession
    rcases hstep.sessions session hsession with hmem | hnew
    · exact hold (hsound.session session hmem)
    · rw [hstep.events, hnew]
      exact List.mem_cons_self
  case signed =>
    intro i payload secret he
    rcases hcases he with ⟨-, hsecret⟩ | hmem
    · rwa [hsound.node] at hsecret
    · exact hsound.signed hmem
  case authenticated =>
    intro i challenge publicKey he
    rcases hcases he with ⟨⟨session, hsession, rfl, rfl⟩, hack⟩ | hmem
    · rcases hack with
        ⟨frame, ackPayload, secret, hunforged, hread, rfl, hverified⟩
      rw [hsound.node] at hverified
      rcases verifyHandshakeAck_eq_returned_iff.mp hverified with
        ⟨hsecret, subKeys, hkeys, -, hresponse⟩
      refine ⟨hold (hsound.session session hsession), secret, hsecret, ?_⟩
      intro hhonest
      rcases hunforged ackPayload secret subKeys session.challenge hread
          hhonest hkeys hresponse with ⟨signer, payload, hsigned, hchallenge⟩
      exact ⟨signer, payload, hold hsigned, hchallenge⟩
    · rcases hsound.authenticated hmem with ⟨hissued, secret, hsecret, hcause⟩
      refine ⟨hold hissued, secret, hsecret, ?_⟩
      intro hhonest
      rcases hcause hhonest with ⟨signer, payload, hsigned, hchallenge⟩
      exact ⟨signer, payload, hold hsigned, hchallenge⟩
  case sent =>
    intro i secret msg frame he
    rcases hcases he with ⟨pc, hpc, rfl, hnonce⟩ | hmem
    · rcases hsound.secrets i pc hpc with ⟨publicKey, hsecret⟩
      rw [hsound.node] at hsecret
      exact ⟨⟨publicKey, hsecret⟩, hnonce⟩
    · exact hsound.sent hmem
  case handled =>
    intro i secret msg he hhonest
    rcases hcases he with ⟨data, hmsg, hcause⟩ | hmem
    · rcases hcause hhonest with ⟨sender, sentMsg, hsent⟩
      exact ⟨sender, sentMsg, data, hold hsent, hmsg⟩
    · rcases hsound.handled hmem hhonest with
        ⟨sender, sentMsg, frame, hsent, hmsg⟩
      exact ⟨sender, sentMsg, frame, hold hsent, hmsg⟩

variable [DecidableEq ι]

theorem Mesh.setTransport_keys {mesh : Mesh ι} {node : ι} {t : Transport}
    (hkeys : KeepsKeys crypto (mesh.transport node) t) (other : ι) :
    KeepsKeys crypto (mesh.transport other)
      ((mesh.setTransport node t).transport other) := by
  unfold Mesh.setTransport
  by_cases hnode : other = node
  · subst hnode
    simpa using hkeys
  · simpa [Function.update_of_ne hnode] using
      KeepsKeys.refl (mesh.transport other)

theorem Mesh.stepTo_next {mesh : Mesh ι} {action : MeshAction ι}
    (henabled : mesh.Enabled crypto codec nodes action) :
    ∃ event, mesh.StepTo crypto codec nodes action
      (mesh.next crypto codec action) event := by
  cases action with
  | connect node peer input =>
      cases hstarted :
          (mesh.transport node).startConnect codec peer input with
      | returned started =>
          rcases startConnect_challenge hstarted with
            ⟨random, hrandom, hchallenge⟩
          refine ⟨some (.issued node started.1), ?_⟩
          simp only [Mesh.next, hstarted]
          refine ⟨rfl, fun other => .refl _, ?_, ?_⟩
          · intro session hsession
            rcases List.mem_cons.mp hsession with rfl | hold
            · exact .inr rfl
            · exact .inl hold
          · intro new hnew
            cases hnew
            rw [Mesh.Justifies, hchallenge]
            exact henabled random hrandom
      | failed | panicked | unfinished =>
          exact ⟨none, by simpa only [Mesh.next, hstarted] using stepTo_self ..⟩
  | acknowledge session now frame =>
      rcases henabled with ⟨hsession, hunforged⟩
      refine ⟨_, rfl, setTransport_keys (completeConnect_keepsKeys ..), ?_, ?_⟩
      · intro other hother
        exact .inl (List.mem_of_mem_erase hother)
      · intro new hnew
        rcases Option.map_eq_some_iff.mp hnew with ⟨publicKey, hverified, rfl⟩
        rcases completeConnect_verified hverified with
          ⟨ackPayload, secret, hack, hkey, hsecret⟩
        exact ⟨⟨session, hsession, rfl, rfl⟩, frame, ackPayload, secret,
          hunforged, hack, hkey, hsecret⟩
  | upgrade node input =>
      refine ⟨_, rfl, setTransport_keys (handleWSUpgrade_keepsKeys ..),
        fun _ h => .inl h, ?_⟩
      intro new hnew
      rcases Option.map_eq_some_iff.mp hnew with ⟨signed, hsigned, rfl⟩
      rcases handleWSUpgrade_signed hsigned with ⟨hpresented, hsecret⟩
      exact ⟨⟨input, rfl, hpresented⟩, hsecret⟩
  | send node connection msg input =>
      refine ⟨_, rfl, setTransport_keys (send_keepsKeys ..),
        fun _ h => .inl h, ?_⟩
      intro new hnew
      rcases Option.map_eq_some_iff.mp hnew with ⟨frame, hframe, rfl⟩
      rcases send_frame hframe with ⟨pc, hpc, hencrypted⟩
      refine ⟨pc, List.mem_of_getElem? hpc, secretOf_eq hpc, input.nonce, ?_⟩
      rw [secretOf_eq hpc]
      exact hencrypted
  | receive node connection now frame =>
      refine ⟨_, rfl, setTransport_keys (readLoopTurn_keepsKeys ..),
        fun _ h => .inl h, ?_⟩
      intro new hnew
      rcases Option.map_eq_some_iff.mp hnew with ⟨msg, hhandled, rfl⟩
      rcases readLoopTurn_handled hhandled with ⟨pc, data, hpc, hdata, hmsg⟩
      refine ⟨data, ?_, ?_⟩
      · rw [secretOf_eq hpc]
        exact hmsg
      · intro hhonest
        rw [secretOf_eq hpc] at hhonest ⊢
        rcases Outcome.bind_eq_returned_iff.mp hmsg with
          ⟨plaintext, hplaintext, -⟩
        exact henabled pc data plaintext hpc hhonest hdata hplaintext
  | close node connection now =>
      exact ⟨none, rfl, setTransport_keys (dropConnection_keepsKeys ..),
        fun _ h => .inl h, nofun⟩
  | operate node registry hasHandler =>
      exact ⟨none, rfl, setTransport_keys (.of_eq rfl rfl),
        fun _ h => .inl h, nofun⟩

theorem Mesh.sound_of_run {allowed : Mesh ι → MeshAction ι → Prop}
    {mesh : Mesh ι}
    (hrun : (meshMachine crypto codec nodes).Run allowed mesh) :
    mesh.Sound crypto codec nodes := by
  apply hrun.invariant
  · intro start hstart
    exact Mesh.Starts.sound hstart
  · intro before action _ hsound henabled _
    rcases Mesh.stepTo_next henabled with ⟨event, hstep⟩
    exact hsound.step hstep

end

end GoP2P.Node
