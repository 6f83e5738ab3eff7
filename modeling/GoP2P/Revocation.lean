import GoP2P.ConnectionBinding

/-!
# What revoking a key takes away

Revoking a key takes it off the allowlist and nothing else.  A handshake that
presents the key later is let in only through the other half of the gate, the
registered ID; but an ID is registered for good by the first handshake that
was let in under it, so the holder of the key keeps that way in.
-/

namespace GoP2P.Node

/-- The call has not read the allowlist yet. -/
def UpgradeStage.unscreened : UpgradeStage → Bool
  | .arrived | .counted | .admitted | .handshaking | .presented => true
  | _ => false

/-- The call is past `IsPeerAllowed` and about to accept the peer. -/
def UpgradeStage.passed : UpgradeStage → Bool
  | .authorised | .unregistered | .named | .acknowledged | .stored => true
  | _ => false

/-- What is known of a call that reads the allowlist while `publicKey` is not
on it; `registered` are the IDs that the call may have found registered. -/
structure UpgradeCall.Screened (publicKey : Bytes) (registered : Bytes → Prop)
    (call : UpgradeCall) : Prop where
  unscreened : call.stage.unscreened = true → call.connection = none
  screened : call.stage = .screened →
    call.connection = none ∧ call.authMode = .allowlist ∧
      (call.payload.identity.publicKey = publicKey → call.keyAllowed = false)
  passed : call.stage.passed = true →
    call.payload.identity.publicKey = publicKey →
      registered call.payload.identity.id
  accepted : call.connection ≠ none →
    call.payload.identity.publicKey = publicKey →
      registered call.payload.identity.id

variable {crypto : NodePrimitives} {codec : Codec}
variable {publicKey : Bytes} {registered : Bytes → Prop}

theorem UpgradeCall.Screened.of_unscreened {call : UpgradeCall}
    (hunscreened : call.stage.unscreened = true)
    (hconnection : call.connection = none) :
    call.Screened publicKey registered := by
  constructor
  · intro _
    exact hconnection
  · intro h
    rw [h] at hunscreened
    cases hunscreened
  · intro h
    cases hstage : call.stage <;>
      simp_all [UpgradeStage.unscreened, UpgradeStage.passed]
  · intro h
    exact absurd hconnection h

theorem UpgradeCall.Screened.of_rejected {call : UpgradeCall}
    (hstage : call.stage = .leaving ∨ call.stage = .returned)
    (hconnection : call.connection = none) :
    call.Screened publicKey registered := by
  rcases hstage with h | h
  all_goals
    constructor
    all_goals simp [h, hconnection, UpgradeStage.unscreened,
      UpgradeStage.passed]

theorem UpgradeCall.Screened.of_registered {call : UpgradeCall}
    (hunscreened : call.stage.unscreened = false)
    (hscreened : call.stage ≠ .screened)
    (hregistered : call.payload.identity.publicKey = publicKey →
      registered call.payload.identity.id) :
    call.Screened publicKey registered := by
  constructor
  · intro h
    rw [hunscreened] at h
    cases h
  · intro h
    exact absurd h hscreened
  · intro _
    exact hregistered
  · intro _
    exact hregistered

theorem UpgradeCall.Screened.mono {call : UpgradeCall}
    (hcall : call.Screened publicKey registered) {registered' : Bytes → Prop}
    (hmono : ∀ id, registered id → registered' id) :
    call.Screened publicKey registered' := by
  constructor
  · exact hcall.unscreened
  · exact hcall.screened
  · intro hstage hkey
    exact hmono _ (hcall.passed hstage hkey)
  · intro hconnection hkey
    exact hmono _ (hcall.accepted hconnection hkey)

/-- With the key off the list, only a registered peer gets past the check. -/
theorem Transport.advanceUpgrade_of_screened {t : Transport}
    {call : UpgradeCall} (hcall : call.Screened publicKey registered)
    (hstage : call.stage = .screened)
    (hnow : ∀ peer, t.registry.getPeer call.payload.identity.id = some peer →
      registered call.payload.identity.id)
    (input : UpgradeInput) :
    (t.advanceUpgrade crypto codec call input).2.Screened publicKey
      registered := by
  rcases hcall.screened hstage with ⟨hconnection, hlisted, hkeyAllowed⟩
  unfold advanceUpgrade
  rw [hstage]
  dsimp only
  rw [if_neg (by simp [hlisted])]
  by_cases hregistered :
      (t.registry.peers.lookup call.payload.identity.id).isSome = true
  · rcases Option.isSome_iff_exists.mp hregistered with ⟨peer, hpeer⟩
    apply UpgradeCall.Screened.of_registered
    · simp [hregistered, UpgradeStage.unscreened]
    · simp [hregistered]
    · intro _
      exact hnow peer hpeer
  · by_cases hkey : call.payload.identity.publicKey = publicKey
    · apply UpgradeCall.Screened.of_rejected
      · simp [hregistered, hkeyAllowed hkey]
      · exact hconnection
    · apply UpgradeCall.Screened.of_registered
      · dsimp only
        split <;> rfl
      · dsimp only
        split <;> simp
      · intro h
        exact absurd h hkey

/-- One step of a call, while the node is in allowlist mode and the key is not
on the list. -/
theorem Transport.advanceUpgrade_screened {t : Transport}
    (hmode : t.registry.authMode = .allowlist)
    (hrevoked : publicKey ∉ t.registry.allowedPublicKeys)
    {call : UpgradeCall} (hcall : call.Screened publicKey registered)
    (hnow : call.stage = .screened → ∀ peer,
      t.registry.getPeer call.payload.identity.id = some peer →
        registered call.payload.identity.id)
    (input : UpgradeInput) :
    (t.advanceUpgrade crypto codec call input).2.Screened publicKey
      registered := by
  by_cases hscreened : call.stage = .screened
  · exact advanceUpgrade_of_screened hcall hscreened (hnow hscreened) input
  have hunscreened := hcall.unscreened
  have hpassed := hcall.passed
  unfold advanceUpgrade
  cases hstage : call.stage with
  | arrived | admitted =>
      rw [hstage] at hunscreened
      exact .of_unscreened rfl (hunscreened rfl)
  | counted =>
      rw [hstage] at hunscreened
      dsimp only
      split
      · exact .of_rejected (.inr rfl) (hunscreened rfl)
      · exact .of_unscreened rfl (hunscreened rfl)
  | handshaking =>
      rw [hstage] at hunscreened
      dsimp only
      split
      · exact .of_rejected (.inl rfl) (hunscreened rfl)
      · exact .of_unscreened rfl (hunscreened rfl)
  | presented =>
      rw [hstage] at hunscreened
      have hconnection := hunscreened rfl
      dsimp only
      constructor
      · intro h
        cases h
      · intro _
        refine ⟨hconnection, hmode, ?_⟩
        intro hkey
        dsimp only at hkey ⊢
        rw [hkey]
        simp [PeerRegistry.isPublicKeyAllowed, hrevoked]
      · intro h
        cases h
      · intro h
        exact absurd hconnection h
  | screened => exact absurd hstage hscreened
  | authorised | named =>
      rw [hstage] at hpassed
      dsimp only
      split <;> exact .of_registered rfl (by simp) (hpassed rfl)
  | unregistered | acknowledged | stored =>
      rw [hstage] at hpassed
      exact .of_registered rfl (by simp) (hpassed rfl)
  | leaving =>
      dsimp only
      constructor
      · intro h
        cases h
      · intro h
        cases h
      · intro h
        cases h
      · exact hcall.accepted
  | returned => exact hcall

/-- A call that has not read the allowlist has not accepted anyone. -/
theorem Transport.advanceUpgrade_unscreened (t : Transport)
    {call : UpgradeCall}
    (hcall : call.stage.unscreened = true → call.connection = none)
    (input : UpgradeInput) :
    (t.advanceUpgrade crypto codec call input).2.stage.unscreened = true →
      (t.advanceUpgrade crypto codec call input).2.connection = none := by
  unfold advanceUpgrade
  cases hstage : call.stage with
  | arrived | admitted =>
      rw [hstage] at hcall
      intro _
      exact hcall rfl
  | counted | handshaking =>
      rw [hstage] at hcall
      dsimp only
      split <;> (intro _; exact hcall rfl)
  | screened =>
      dsimp only
      split
      · intro h
        cases h
      · split <;> (intro h; cases h)
  | authorised | named =>
      dsimp only
      split <;> (intro h; cases h)
  | returned =>
      intro h
      exact hcall h
  | _ =>
      intro h
      cases h

namespace TransportCalls

theorem reachable_unscreened {s : TransportCalls}
    (hreachable : (machine crypto codec).Reachable s) :
    ∀ ⦃position : ℕ⦄ ⦃call : UpgradeCall⦄, s.upgrades[position]? = some call →
      call.stage.unscreened = true → call.connection = none := by
  apply hreachable.invariant
  · intro start hinitial position call hcall
    rcases hinitial with ⟨node, registry, config, -, -, rfl⟩
    simp at hcall
  · intro before action _ hbefore _ _ position call hcall
    rcases next_upgrades hcall with hold | ⟨-, rfl⟩ | ⟨old, input, hold, rfl⟩
    · exact hbefore hold
    · intro _
      rfl
    · exact before.transport.advanceUpgrade_unscreened (hbefore hold) input

/-- The step neither allows the key again nor leaves allowlist mode. -/
def KeepsRevoked (publicKey : Bytes) (_ : TransportCalls) :
    TransportAction → Prop
  | .operate (.allowPublicKey key) => key ≠ publicKey
  | .operate (.setAuthMode mode) => mode = .allowlist
  | _ => True

instance (publicKey : Bytes) (s : TransportCalls) (action : TransportAction) :
    Decidable (KeepsRevoked publicKey s action) := by
  unfold KeepsRevoked
  split <;> infer_instance

/-- Of the calls in `before`, the one at `position` had not read the
allowlist, or it had not arrived. -/
def Unscreened (before : TransportCalls) (position : ℕ) : Prop :=
  ∀ ⦃call : UpgradeCall⦄, before.upgrades[position]? = some call →
    call.stage.unscreened = true

/-- Along `actions`, the call at `position` looked up the ID when it was
registered. -/
def FoundRegistered (crypto : NodePrimitives) (codec : Codec)
    (start : TransportCalls) (actions : List TransportAction) (position : ℕ)
    (id : Bytes) : Prop :=
  ∃ earlier rest call peer, actions = earlier ++ rest ∧
    ((machine crypto codec).replay start earlier).upgrades[position]? =
      some call ∧
    call.stage = .screened ∧ call.payload.identity.id = id ∧
    ((machine crypto codec).replay start
      earlier).transport.registry.getPeer id = some peer

structure RevokedSince (publicKey : Bytes) (before : TransportCalls)
    (registered : ℕ → Bytes → Prop) (s : TransportCalls) : Prop where
  announcements : ∀ call ∈ s.announcements, call.call.keepsGate = true
  mode : s.transport.registry.authMode = .allowlist
  revoked : publicKey ∉ s.transport.registry.allowedPublicKeys
  calls : ∀ ⦃position : ℕ⦄ ⦃call : UpgradeCall⦄,
    s.upgrades[position]? = some call → before.Unscreened position →
      call.Screened publicKey (registered position)

theorem KeepsRevoked.next {s : TransportCalls}
    (hannounced : ∀ call ∈ s.announcements, call.call.keepsGate = true)
    (hmode : s.transport.registry.authMode = .allowlist)
    (hrevoked : publicKey ∉ s.transport.registry.allowedPublicKeys)
    {action : TransportAction} (hkeeps : KeepsRevoked publicKey s action) :
    (s.next crypto codec action).transport.registry.authMode = .allowlist ∧
      publicKey ∉
        (s.next crypto codec action).transport.registry.allowedPublicKeys := by
  by_cases hoperator : ∀ call, action = .operate call → call.keepsGate = true
  · have hsame : PeerRegistry.SameGate s.transport.registry
        (s.next crypto codec action).transport.registry :=
      next_sameGate hannounced hoperator
    rw [hsame.authMode, hsame.allowed]
    exact ⟨hmode, hrevoked⟩
  · push Not at hoperator
    rcases hoperator with ⟨call, rfl, hcall⟩
    cases call with
    | setAuthMode mode => exact ⟨hkeeps, hrevoked⟩
    | allowPublicKey key =>
        refine ⟨hmode, ?_⟩
        intro hmem
        rcases Finset.mem_insert.mp hmem with h | h
        · exact hkeeps h.symm
        · exact hrevoked h
    | revokePublicKey key =>
        refine ⟨hmode, ?_⟩
        intro hmem
        exact hrevoked (Finset.mem_of_mem_erase hmem)
    | _ => exact absurd rfl hcall

theorem FoundRegistered.append {start : TransportCalls}
    {actions : List TransportAction} {position : ℕ} {id : Bytes}
    (hfound : FoundRegistered crypto codec start actions position id)
    (more : List TransportAction) :
    FoundRegistered crypto codec start (actions ++ more) position id := by
  rcases hfound with ⟨earlier, rest, call, peer, rfl, hcall⟩
  exact ⟨earlier, rest ++ more, call, peer, by simp, hcall⟩

theorem replays_revokedSince {before : TransportCalls}
    (hreachable : (machine crypto codec).Reachable before)
    (hmode : before.transport.registry.authMode = .allowlist)
    {actions : List TransportAction}
    (hactions : (machine crypto codec).Replays (KeepsRevoked publicKey)
      (before.operate (.revokePublicKey publicKey)) actions) :
    RevokedSince publicKey before
      (FoundRegistered crypto codec
        (before.operate (.revokePublicKey publicKey)) actions)
      ((machine crypto codec).replay
        (before.operate (.revokePublicKey publicKey)) actions) := by
  apply Machine.Replays.invariant (fun actions s =>
    RevokedSince publicKey before
      (FoundRegistered crypto codec
        (before.operate (.revokePublicKey publicKey)) actions) s) ?_ ?_ hactions
  · have hannounced := reachable_announcements hreachable
    constructor
    · exact hannounced
    · exact hmode
    · exact Finset.notMem_erase publicKey _
    · intro position call hcall hlate
      exact .of_unscreened (hlate hcall)
        (reachable_unscreened hreachable hcall (hlate hcall))
  · intro earlier action hsince _ hkeeps
    rcases hkeeps.next hsince.announcements hsince.mode hsince.revoked with
      ⟨hmode', hrevoked'⟩
    constructor
    · exact next_announcements hsince.announcements action
    · exact hmode'
    · exact hrevoked'
    · intro position call hcall hlate
      rcases next_upgrades hcall with hold | ⟨-, rfl⟩ | ⟨old, input, hold, rfl⟩
      · apply (hsince.calls hold hlate).mono
        intro id hfound
        exact hfound.append [action]
      · exact .of_unscreened rfl rfl
      · have hscreened := (hsince.calls hold hlate).mono
          fun id hfound => hfound.append [action]
        apply Transport.advanceUpgrade_screened hsince.mode hsince.revoked
          hscreened
        intro hstage peer hpeer
        exact ⟨earlier, [action], old, peer, rfl, hold, hstage, rfl, hpeer⟩

/-- After `RevokePublicKey`, and until the key is allowed again, a handshake
that presents the key is accepted only if the ID it claims was registered when
`IsPeerAllowed` looked it up. -/
theorem revoked_key_needs_registered_id (crypto : NodePrimitives)
    (codec : Codec) {publicKey : Bytes} {before : TransportCalls}
    (hreachable : (machine crypto codec).Reachable before)
    (hmode : before.transport.registry.authMode = .allowlist)
    {actions : List TransportAction}
    (hactions : (machine crypto codec).Replays (KeepsRevoked publicKey)
      (before.operate (.revokePublicKey publicKey)) actions)
    {position connection : ℕ} {call : UpgradeCall}
    (hcall : ((machine crypto codec).replay
      (before.operate (.revokePublicKey publicKey))
        actions).upgrades[position]? = some call)
    (hlate : before.Unscreened position)
    (haccepted : call.connection = some connection)
    (hkey : call.payload.identity.publicKey = publicKey) :
    FoundRegistered crypto codec (before.operate (.revokePublicKey publicKey))
      actions position call.payload.identity.id := by
  have hsince := replays_revokedSince hreachable hmode hactions
  apply (hsince.calls hcall hlate).accepted
  · rw [haccepted]
    simp
  · exact hkey

/-! ### A revoked key that comes back -/

/-- The operator names a peer with the key. -/
def NamesPeer (publicKey : Bytes) : TransportAction → Bool
  | .operate (.addPeer _ peer) => peer.publicKey = publicKey
  | .operate (.updatePeer peer) => peer.publicKey = publicKey
  | .announce _ _ (.ok body) => body.publicKey = publicKey
  | _ => false

/-- Key 2 is allowed, and its holder connects under the ID 1. -/
def sampleAllowed : List TransportAction :=
  [.operate (.setAuthMode .allowlist), .operate (.allowPublicKey [2]), .arrive] ++
    List.replicate 12 (.upgrade 0 sampleUpgrade)

/-- It connects once more. -/
def sampleReturn : List TransportAction :=
  .arrive :: List.replicate 12 (.upgrade 1 sampleUpgrade)

def sampleMachine : Machine TransportCalls TransportAction :=
  machine samplePrimitives (sampleCodec 1 2)

def sampleBefore : TransportCalls := sampleMachine.replay sampleCalls sampleAllowed

theorem sampleBefore_reachable : sampleMachine.Reachable sampleBefore := by
  have hreplays : (machine samplePrimitives (sampleCodec 1 2)).Replays
      (fun _ _ => True) sampleCalls sampleAllowed := by decide
  exact Machine.Run.replay (.start sampleCalls_initial) hreplays

theorem sampleReturn_replays :
    (machine samplePrimitives (sampleCodec 1 2)).Replays (KeepsRevoked [2])
      (sampleBefore.operate (.revokePublicKey [2])) sampleReturn := by
  decide

/-- The key was authorised by `AllowPublicKey` only, and after it was revoked
its holder is accepted again: the first handshake registered the ID. -/
theorem revoked_key_is_accepted :
    sampleMachine.Reachable sampleBefore ∧
      sampleBefore.transport.registry.authMode = .allowlist ∧
      sampleMachine.Replays (KeepsRevoked [2])
        (sampleBefore.operate (.revokePublicKey [2])) sampleReturn ∧
      (∀ action ∈ sampleAllowed ++ sampleReturn,
        NamesPeer [2] action = false) ∧
      sampleBefore.upgrades[1]? = none ∧
      ∃ call, (sampleMachine.replay
          (sampleBefore.operate (.revokePublicKey [2]))
            sampleReturn).upgrades[1]? = some call ∧
        call.payload.identity.publicKey = [2] ∧
        call.connection = some 1 := by
  refine ⟨sampleBefore_reachable, by decide, sampleReturn_replays, ?_,
    by decide, _, rfl, by decide, by decide⟩
  decide

theorem revoked_key_needs_registered_id_sample :
    ∃ call, (sampleMachine.replay
          (sampleBefore.operate (.revokePublicKey [2]))
            sampleReturn).upgrades[1]? = some call ∧
      call.connection = some 1 ∧
      FoundRegistered samplePrimitives (sampleCodec 1 2)
        (sampleBefore.operate (.revokePublicKey [2])) sampleReturn 1
        call.payload.identity.id := by
  have hnew : sampleBefore.upgrades[1]? = none := by decide
  refine ⟨_, rfl, by decide, ?_⟩
  apply revoked_key_needs_registered_id samplePrimitives (sampleCodec 1 2)
    sampleBefore_reachable (by decide) sampleReturn_replays rfl
  · intro call hcall
    rw [hnew] at hcall
    cases hcall
  · rfl
  · rfl

end TransportCalls

end GoP2P.Node
