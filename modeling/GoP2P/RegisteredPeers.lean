import GoP2P.PeerRecords
import GoP2P.PeerRebinding

/-!
# What gets registered

A registry that starts out empty is filled by `AddPeer`, `UpdatePeer`, the
announcements of the HTTP provider and the handshakes.  Each step makes at most
one call on the registry, and a dial may in addition write an identity into a
record that the registry holds.  `AddPeer` checks the name it is given;
nothing checks a score, and nothing but `AddPeer` checks a name.
-/

namespace GoP2P.Node

open PeerRegistry

/-! ### The call that a step makes -/

def UpgradeCall.registryCall (call : UpgradeCall)
    (input : Transport.UpgradeInput) : Option RegistryCall :=
  match call.stage with
  | .unregistered =>
      some (.addPeer input.now
        (Transport.peerOf input.now call.payload.identity))
  | .stored => some (.setConnected input.now call.peer.id true)
  | _ => none

def ConnectCall.registryCall (call : ConnectCall) (now : Time) :
    Option RegistryCall :=
  match call.stage with
  | .verified => some (.updatePeer call.peer)
  | .unlisted => some (.addPeer now call.peer)
  | .stored => some (.setConnected now call.peer.id true)
  | _ => none

def CloseCall.registryCall (call : CloseCall) (pc : PeerConnection)
    (now : Time) : Option RegistryCall :=
  match call.stage with
  | .dropped => some (.setConnected now pc.peer.id false)
  | _ => none

def AnnounceCall.registryCall (call : AnnounceCall) : Option RegistryCall :=
  if call.returned then none else some call.call

/-- The registry after the call, if there is one. -/
def PeerRegistry.applied (r : PeerRegistry) (call : Option RegistryCall) :
    PeerRegistry :=
  call.elim r fun call => call.apply r

namespace TransportCalls

def registryCall (s : TransportCalls) : TransportAction → Option RegistryCall
  | .upgrade position input =>
      s.upgrades[position]?.bind fun call => call.registryCall input
  | .connect position now =>
      s.connects[position]?.bind fun call => call.registryCall now
  | .close position now =>
      s.closes[position]?.bind fun call =>
        s.transport.connections[call.connection]?.bind fun pc =>
          call.registryCall pc now
  | .finishAnnounce position =>
      s.announcements[position]?.bind AnnounceCall.registryCall
  | .operate call => some call
  | _ => none

section

variable {crypto : NodePrimitives} {codec : Codec}

theorem advanceUpgrade_applied (t : Transport) (call : UpgradeCall)
    (input : Transport.UpgradeInput) :
    (t.advanceUpgrade crypto codec call input).1.registry =
      t.registry.applied (call.registryCall input) := by
  unfold Transport.advanceUpgrade UpgradeCall.registryCall
  cases call.stage with
  | counted | handshaking | screened | authorised =>
      dsimp only
      split <;> rfl
  | _ => rfl

theorem advanceConnect_applied (t : Transport) (call : ConnectCall)
    (now : Time) :
    (t.advanceConnect call now).1.registry =
      t.registry.applied (call.registryCall now) := by
  unfold Transport.advanceConnect ConnectCall.registryCall
  cases call.stage with
  | verified =>
      dsimp only [applied, Option.elim, RegistryCall.apply, RegistryCall.run]
      cases t.registry.updatePeer call.peer <;> rfl
  | _ => rfl

theorem advanceClose_applied (t : Transport) (call : CloseCall) (now : Time) :
    (t.advanceClose call now).1.registry =
      t.registry.applied (t.connections[call.connection]?.bind fun pc =>
        call.registryCall pc now) := by
  unfold Transport.advanceClose CloseCall.registryCall
  cases t.connections[call.connection]? with
  | none => rfl
  | some pc => cases call.stage <;> rfl

/-- A step other than a dial changes the registry by the one call it makes. -/
theorem next_registry (s : TransportCalls) {action : TransportAction}
    (hdial : ∀ peer held challenge frame,
      action ≠ .dial peer held challenge frame) :
    (s.next crypto codec action).transport.registry =
      s.transport.registry.applied (s.registryCall action) := by
  cases action with
  | upgrade position input =>
      dsimp only [next, stepUpgrade, registryCall]
      cases s.upgrades[position]? with
      | none => rfl
      | some call => exact advanceUpgrade_applied s.transport call input
  | connect position now =>
      dsimp only [next, stepConnect, registryCall]
      cases s.connects[position]? with
      | none => rfl
      | some call => exact advanceConnect_applied s.transport call now
  | close position now =>
      dsimp only [next, stepClose, registryCall]
      cases s.closes[position]? with
      | none => rfl
      | some call => exact advanceClose_applied s.transport call now
  | announce now id body =>
      dsimp only [next]
      split <;> rfl
  | finishAnnounce position =>
      dsimp only [next, stepAnnounce, registryCall]
      cases s.announcements[position]? with
      | none => rfl
      | some call =>
          dsimp only [AnnounceCall.registryCall, Option.bind]
          split <;> rfl
  | dial => exact absurd rfl (hdial _ _ _ _)
  | arrive | requestClose | operate => rfl

end

/-! ### From an empty registry -/

section

variable (crypto : NodePrimitives) (codec : Codec)

/-- A new transport over a registry without peers. -/
def StartsEmpty (s : TransportCalls) : Prop :=
  ∃ node registry config, registry.peers = ∅ ∧
    s = { transport := Transport.newTransport node registry config }

/-- Handshakes, closes, announcements and direct calls on the registry, in any
interleaving, from an empty registry on. -/
def registryMachine : Machine TransportCalls TransportAction where
  initial := StartsEmpty
  enabled := Enabled
  next := next crypto codec

instance (s : TransportCalls) (action : TransportAction) :
    Decidable ((registryMachine crypto codec).enabled s action) :=
  inferInstanceAs (Decidable (s.Enabled action))

/-- The record that a dial leaves where the registry held the one it was
given. -/
def rewrites : TransportAction → Option Peer
  | .dial peer (_ :: _) _ frame =>
      match Transport.readHandshakeAck codec frame with
      | .returned ackPayload =>
          some (Transport.adoptIdentity peer ackPayload.identity)
      | _ => none
  | _ => none

/-- Every record that the step puts into the registry has the property. -/
def StoresOnly (P : Peer → Prop) (s : TransportCalls)
    (action : TransportAction) : Prop :=
  (∀ call ∈ s.registryCall action, call.StoresOnly P s.transport.registry) ∧
    ∀ peer ∈ rewrites codec action, P peer

instance (P : Peer → Prop) [DecidablePred P] (s : TransportCalls) :
    DecidablePred (StoresOnly codec P s) :=
  fun _ => inferInstanceAs (Decidable (_ ∧ _))

end

end TransportCalls

theorem PeerRegistry.Everywhere.showing_iff {P : Peer → Prop}
    {r : PeerRegistry} (hall : Everywhere P r) {held : List Bytes}
    {new : Peer} :
    Everywhere P (r.showing held new) ↔ (held ≠ [] → P new) := by
  constructor
  · intro hshowing hheld
    rcases List.exists_mem_of_ne_nil held hheld with ⟨id, hid⟩
    have hfound : (r.showing held new).getPeer id = some new := by
      rw [getPeer_showing, if_pos hid]
    exact hshowing hfound
  · intro hnew id peer hpeer
    rw [getPeer_showing] at hpeer
    split_ifs at hpeer with hid
    · cases hpeer
      exact hnew (List.ne_nil_of_mem hid)
    · exact hall hpeer

/-- What every change in place keeps. -/
def KeptInPlace (P : Peer → Prop) : Prop :=
  ∀ ⦃call : RegistryCall⦄ ⦃id change⦄, call.touches = some (id, change) →
    ∀ peer, P peer → P (change peer)

namespace TransportCalls

section

variable {crypto : NodePrimitives} {codec : Codec}

theorem dial_everywhere_iff {P : Peer → Prop} {s : TransportCalls}
    (hall : Everywhere P s.transport.registry) (peer : Peer)
    (held : List Bytes) (challenge : Bytes) (frame : Except CoreError Bytes) :
    Everywhere P (s.next crypto codec
        (.dial peer held challenge frame)).transport.registry ↔
      StoresOnly codec P s (.dial peer held challenge frame) := by
  dsimp only [next, Transport.registryAfterAck, StoresOnly, registryCall]
  cases hack : Transport.readHandshakeAck codec frame with
  | returned ackPayload =>
      refine hall.showing_iff.trans ?_
      cases held <;> simp [rewrites, hack]
  | _ =>
      refine iff_of_true hall ⟨by simp, ?_⟩
      cases held <;> simp [rewrites, hack]

theorem next_everywhere_iff {P : Peer → Prop} (hkept : KeptInPlace P)
    {s : TransportCalls} (hall : Everywhere P s.transport.registry)
    (action : TransportAction) :
    Everywhere P (s.next crypto codec action).transport.registry ↔
      StoresOnly codec P s action := by
  by_cases hdial : ∃ peer held challenge frame,
      action = .dial peer held challenge frame
  · rcases hdial with ⟨peer, held, challenge, frame, rfl⟩
    exact dial_everywhere_iff hall peer held challenge frame
  · push Not at hdial
    have hrewrites : rewrites codec action = none := by
      cases action with
      | dial => exact absurd rfl (hdial _ _ _ _)
      | _ => rfl
    rw [s.next_registry hdial, StoresOnly, hrewrites]
    cases s.registryCall action with
    | none => exact iff_of_true hall (by simp)
    | some call =>
        simp only [Option.mem_def, Option.some.injEq, forall_eq', reduceCtorEq,
          false_imp_iff, implies_true, and_true]
        exact RegistryCall.apply_everywhere_iff hall fun _ _ hcall =>
          hkept hcall

/-- A property that changes in place keep holds of every record all along a
run exactly if it holds of every record that the run stores. -/
theorem everywhere_iff_stores {P : Peer → Prop} (hkept : KeptInPlace P)
    {start : TransportCalls} (hstart : StartsEmpty start)
    {actions : List TransportAction}
    (hactions : (registryMachine crypto codec).Replays (fun _ _ => True) start
      actions) :
    (∀ part, part <+: actions →
        Everywhere P ((registryMachine crypto codec).replay start
          part).transport.registry) ↔
      (registryMachine crypto codec).Replays (StoresOnly codec P) start
        actions := by
  apply Machine.Replays.forall_prefix_iff
    (fun s => Everywhere P s.transport.registry) _ _ hactions
  · intro s action hall _
    exact next_everywhere_iff hkept hall action
  · rcases hstart with ⟨node, registry, config, hempty, rfl⟩
    exact everywhere_of_empty hempty P

end

/-- From an empty registry on, every registered score is in the range from 0
to 100 after every step exactly if every score that `AddPeer` and `UpdatePeer`
are made to store is. -/
theorem registered_scores_in_range_iff (crypto : NodePrimitives)
    (codec : Codec) {start : TransportCalls} (hstart : StartsEmpty start)
    {actions : List TransportAction}
    (hactions : (registryMachine crypto codec).Replays (fun _ _ => True) start
      actions) :
    (∀ part, part <+: actions →
        ∀ ⦃id peer⦄, ((registryMachine crypto codec).replay start
            part).transport.registry.getPeer id = some peer →
          0 ≤ peer.score ∧ peer.score ≤ 100) ↔
      (registryMachine crypto codec).Replays
        (StoresOnly codec Peer.ScoreInRange) start actions := by
  apply everywhere_iff_stores _ hstart hactions
  intro call id change hcall
  exact RegistryCall.touches_scoreInRange hcall

/-! ### Sample runs -/

def sampleEmpty : TransportCalls where
  transport := .newTransport (sampleNode 9) {} {}

theorem sampleEmpty_starts : StartsEmpty sampleEmpty :=
  ⟨_, _, _, rfl, rfl⟩

/-- Peer 1 is added, announced again and has a failure. -/
def sampleRegistration (score : ℚ) (name : Bytes) : List TransportAction :=
  [.operate (.addPeer 1 { id := [1], name := text "node-1" }),
    .announce 2 [1] (.ok { name := name, score := score }),
    .finishAnnounce 0,
    .operate (.recordFailure 3 [1])]

abbrev sampleRegistryMachine : Machine TransportCalls TransportAction :=
  registryMachine samplePrimitives (.ofTables [] [] [])

abbrev sampleRegistered (actions : List TransportAction) : PeerRegistry :=
  (sampleRegistryMachine.replay sampleEmpty actions).transport.registry

theorem registered_scores_in_range_iff_announced :
    ((sampleRegistered (sampleRegistration 100 (text "node 1"))).getPeer
        [1]).map (·.score) = some 95 ∧
      ∀ part, part <+: sampleRegistration 100 (text "node 1") →
        ∀ ⦃id peer⦄, (sampleRegistered part).getPeer id = some peer →
          0 ≤ peer.score ∧ peer.score ≤ 100 := by
  refine ⟨by decide +kernel, ?_⟩
  apply (registered_scores_in_range_iff samplePrimitives (.ofTables [] [] [])
    sampleEmpty_starts (by decide +kernel)).mpr
  decide +kernel

/-- An announcement with score 1000 stores it, and a failure only takes 5 off. -/
theorem announced_score_is_stored :
    sampleRegistryMachine.Reachable (sampleRegistryMachine.replay sampleEmpty
        (sampleRegistration 1000 (text "node 1"))) ∧
      ((sampleRegistered (sampleRegistration 1000 (text "node 1"))).getPeer
        [1]).map (·.score) = some 995 := by
  refine ⟨?_, by decide +kernel⟩
  apply Machine.Run.replay (.start sampleEmpty_starts)
  decide +kernel

/-- `validatePeerName` accepts exactly the names its comment describes.  From
an empty registry on, every registered name is one of these after every step
exactly if every name is that `UpdatePeer` is made to store, or that a dial
writes into a record of the registry. -/
theorem registered_names_valid_iff (crypto : NodePrimitives) (codec : Codec)
    {start : TransportCalls} (hstart : StartsEmpty start)
    {actions : List TransportAction}
    (hactions : (registryMachine crypto codec).Replays (fun _ _ => True) start
      actions) :
    (∀ name, validatePeerName name = .returned () ↔ ValidPeerName name) ∧
      ((∀ part, part <+: actions →
          ∀ ⦃id peer⦄, ((registryMachine crypto codec).replay start
              part).transport.registry.getPeer id = some peer →
            ValidPeerName peer.name) ↔
        (registryMachine crypto codec).Replays
          (StoresOnly codec fun peer => ValidPeerName peer.name) start
          actions) := by
  refine ⟨validatePeerName_eq_returned_iff, ?_⟩
  apply everywhere_iff_stores _ hstart hactions
  intro call id change hcall peer hname
  rw [RegistryCall.touches_name hcall]
  exact hname

theorem registered_names_valid_iff_announced :
    ((sampleRegistered (sampleRegistration 100 (text "node 1"))).getPeer
        [1]).map (·.name) = some (text "node 1") ∧
      ∀ part, part <+: sampleRegistration 100 (text "node 1") →
        ∀ ⦃id peer⦄, (sampleRegistered part).getPeer id = some peer →
          ValidPeerName peer.name := by
  refine ⟨by decide +kernel, ?_⟩
  apply (registered_names_valid_iff samplePrimitives (.ofTables [] [] [])
    sampleEmpty_starts (by decide +kernel)).2.mpr
  decide +kernel

/-- A second announcement is an `UpdatePeer`, which takes any name. -/
theorem announced_name_is_stored :
    sampleRegistryMachine.Reachable (sampleRegistryMachine.replay sampleEmpty
        (sampleRegistration 100 (text "!"))) ∧
      ((sampleRegistered (sampleRegistration 100 (text "!"))).getPeer
        [1]).map (·.name) = some (text "!") ∧
      ¬ ValidPeerName (text "!") := by
  refine ⟨?_, by decide +kernel, by decide +kernel⟩
  apply Machine.Run.replay (.start sampleEmpty_starts)
  decide +kernel

end TransportCalls

end GoP2P.Node
