import GoP2P.PeerRegistry

/-!
# The calls that change the registry

Each method of the registry changes its maps inside one critical section, so a
call is one step.  The lemmas say what a call can do to the record under an ID,
to its connection flag and to the settings of the gate.
-/

namespace GoP2P.Node

namespace PeerRegistry

def scoreSuccessIncrement : ℚ := 1
def scoreFailureDecrement : ℚ := 5
def scoreTimeoutDecrement : ℚ := 3
def scoreMinimum : ℚ := 0
def scoreMaximum : ℚ := 100

def removePeer (r : PeerRegistry) (id : Bytes) :
    Outcome CoreError PeerRegistry :=
  if (r.peers.lookup id).isSome then
    .returned { r with peers := r.peers.erase id }
  else
    .failed (.op "PeerRegistry.RemovePeer"
      (text "peer " ++ id ++ text " not found"))

/-- The record under `id` changed in place, if there is one. -/
def touchPeer (r : PeerRegistry) (id : Bytes) (change : Peer → Peer) :
    PeerRegistry :=
  match r.peers.lookup id with
  | none => r
  | some peer => { r with peers := r.peers.insert id (change peer) }

def changePeer (r : PeerRegistry) (operation : String) (id : Bytes)
    (change : Peer → Peer) : Outcome CoreError PeerRegistry :=
  if (r.peers.lookup id).isSome then
    .returned (r.touchPeer id change)
  else
    .failed (.op operation (text "peer " ++ id ++ text " not found"))

def updateMetrics (r : PeerRegistry) (now : Time) (id : Bytes)
    (pingMS geoKM : ℚ) (hops : ℤ) : Outcome CoreError PeerRegistry :=
  r.changePeer "PeerRegistry.UpdateMetrics" id fun peer =>
    { peer with pingMS := pingMS, geoKM := geoKM, hops := hops, lastSeen := now }

def updateScore (r : PeerRegistry) (id : Bytes) (score : ℚ) :
    Outcome CoreError PeerRegistry :=
  r.changePeer "PeerRegistry.UpdateScore" id fun peer =>
    { peer with score := max 0 (min score 100) }

def markSeen (r : PeerRegistry) (now : Time) (id : Bytes) : PeerRegistry :=
  r.touchPeer id fun peer => { peer with lastSeen := now }

def recordSuccess (r : PeerRegistry) (now : Time) (id : Bytes) :
    PeerRegistry :=
  r.touchPeer id fun peer =>
    { peer with
      score := min (peer.score + scoreSuccessIncrement) scoreMaximum
      lastSeen := now }

def recordFailure (r : PeerRegistry) (now : Time) (id : Bytes) :
    PeerRegistry :=
  r.touchPeer id fun peer =>
    { peer with
      score := max (peer.score - scoreFailureDecrement) scoreMinimum
      lastSeen := now }

def recordTimeout (r : PeerRegistry) (now : Time) (id : Bytes) :
    PeerRegistry :=
  r.touchPeer id fun peer =>
    { peer with
      score := max (peer.score - scoreTimeoutDecrement) scoreMinimum
      lastSeen := now }

end PeerRegistry

inductive RegistryCall where
  | addPeer (now : Time) (peer : Peer)
  | updatePeer (peer : Peer)
  | removePeer (id : Bytes)
  | updateMetrics (now : Time) (id : Bytes) (pingMS geoKM : ℚ) (hops : ℤ)
  | updateScore (id : Bytes) (score : ℚ)
  | setConnected (now : Time) (id : Bytes) (connected : Bool)
  | markSeen (now : Time) (id : Bytes)
  | recordSuccess (now : Time) (id : Bytes)
  | recordFailure (now : Time) (id : Bytes)
  | recordTimeout (now : Time) (id : Bytes)
  | setAuthMode (mode : PeerAuthMode)
  | allowPublicKey (publicKey : Bytes)
  | revokePublicKey (publicKey : Bytes)
  deriving DecidableEq, Repr

namespace RegistryCall

def run (r : PeerRegistry) : RegistryCall → Outcome CoreError PeerRegistry
  | .addPeer now peer => r.addPeer now peer
  | .updatePeer peer => r.updatePeer peer
  | .removePeer id => r.removePeer id
  | .updateMetrics now id pingMS geoKM hops =>
      r.updateMetrics now id pingMS geoKM hops
  | .updateScore id score => r.updateScore id score
  | .setConnected now id connected => .returned (r.setConnected now id connected)
  | .markSeen now id => .returned (r.markSeen now id)
  | .recordSuccess now id => .returned (r.recordSuccess now id)
  | .recordFailure now id => .returned (r.recordFailure now id)
  | .recordTimeout now id => .returned (r.recordTimeout now id)
  | .setAuthMode mode => .returned (r.setAuthMode mode)
  | .allowPublicKey publicKey => .returned (r.allowPublicKey publicKey)
  | .revokePublicKey publicKey => .returned (r.revokePublicKey publicKey)

/-- The registry after the call; a call that fails leaves it as it was. -/
def apply (r : PeerRegistry) (call : RegistryCall) : PeerRegistry :=
  match call.run r with
  | .returned changed => changed
  | _ => r

/-- The ID whose connection flag the call writes, and the flag. -/
def flagWritten : RegistryCall → Option (Bytes × Bool)
  | .addPeer _ peer => some (peer.id, peer.connected)
  | .updatePeer peer => some (peer.id, peer.connected)
  | .setConnected _ id connected => some (id, connected)
  | _ => none

/-- The call is about peers and not about whom to let in. -/
def keepsGate : RegistryCall → Bool
  | .setAuthMode _ | .allowPublicKey _ | .revokePublicKey _ => false
  | _ => true

end RegistryCall

/-! ### Announcements

The provider's `announcePeer`: it reads the registered peer and then makes one
call.  `id` is the trimmed path parameter and `body` what the request's JSON
decodes to. -/

inductive AnnounceResponse where
  | error (status : ℕ) (code message : Bytes)
  | ok (action : Bytes) (peer : Peer)
  deriving DecidableEq, Repr

/-- The record that is announced.  `Connected` has no JSON form, so it is
false whatever the body says. -/
def announcedPeer (now : Time) (id : Bytes) (body : Peer) : Peer :=
  { body with
    id := id
    lastSeen := if body.lastSeen = 0 then now else body.lastSeen
    connected := false }

def announceCall (r : PeerRegistry) (now : Time) (id : Bytes)
    (body : Except Unit Peer) : Except AnnounceResponse RegistryCall :=
  let invalid message := AnnounceResponse.error 400 (text "invalid_request")
    (text message)
  if id = [] then
    .error (invalid "peer id is required")
  else
    match body with
    | .error _ => .error (invalid "peer announcement body must be valid JSON")
    | .ok body =>
        if body.id ≠ [] ∧ body.id ≠ id then
          .error (.error 400 (text "peer_id_mismatch")
            (text "peer id in path and body must match"))
        else
          let peer := announcedPeer now id body
          match r.getPeer id with
          | some existing =>
              .ok (.updatePeer
                { peer with
                  addedAt :=
                    if peer.addedAt = 0 then existing.addedAt else peer.addedAt
                  score :=
                    if peer.score = 0 then existing.score else peer.score })
          | none => .ok (.addPeer now peer)

namespace PeerRegistry

/-! ### What a call does to the records -/

@[simp] theorem getPeer_insert (r : PeerRegistry) (id i : Bytes)
    (peer : Peer) :
    PeerRegistry.getPeer { r with peers := r.peers.insert id peer } i =
      if i = id then some peer else r.getPeer i := by
  unfold getPeer
  by_cases h : i = id
  · subst h
    simp
  · simp [h, Finmap.lookup_insert_of_ne]

theorem getPeer_touchPeer (r : PeerRegistry) (id i : Bytes)
    (change : Peer → Peer) :
    (r.touchPeer id change).getPeer i =
      if i = id then (r.getPeer i).map change else r.getPeer i := by
  unfold touchPeer
  cases hpeer : r.peers.lookup id with
  | none =>
      by_cases h : i = id
      · subst h
        simp [getPeer, hpeer]
      · simp [h]
  | some peer =>
      rw [getPeer_insert]
      by_cases h : i = id
      · subst h
        simp [getPeer, hpeer]
      · simp [h]

theorem touchPeer_eq_self {r : PeerRegistry} {id : Bytes}
    (habsent : (r.peers.lookup id).isSome = false) (change : Peer → Peer) :
    r.touchPeer id change = r := by
  unfold touchPeer
  cases hpeer : r.peers.lookup id with
  | none => rfl
  | some peer =>
      rw [hpeer] at habsent
      cases habsent

theorem setConnected_eq_touchPeer (r : PeerRegistry) (now : Time) (id : Bytes)
    (connected : Bool) :
    r.setConnected now id connected =
      r.touchPeer id fun peer =>
        { peer with
          connected := connected
          lastSeen := if connected then now else peer.lastSeen } := rfl

/-- Every record stands under its own ID. -/
def Keyed (r : PeerRegistry) : Prop :=
  ∀ ⦃id peer⦄, r.getPeer id = some peer → peer.id = id

/-- Every record `r'` has comes from the one `r` has under the same ID, with
the same ID field and the same flag. -/
def KeepsRecords (r r' : PeerRegistry) : Prop :=
  ∀ ⦃i peer'⦄, r'.getPeer i = some peer' →
    ∃ peer, r.getPeer i = some peer ∧ peer'.id = peer.id ∧
      peer'.connected = peer.connected

/-- From `r` to `r'` at most the record under `id` changed, and it carries the
flag `connected`. -/
structure Writes (r r' : PeerRegistry) (id : Bytes) (connected : Bool) :
    Prop where
  elsewhere : ∀ i, i ≠ id → r'.getPeer i = r.getPeer i
  flag : ∀ ⦃peer⦄, r'.getPeer id = some peer → peer.connected = connected
  keyed : r.Keyed → ∀ ⦃peer⦄, r'.getPeer id = some peer → peer.id = id
  authMode : r'.authMode = r.authMode
  allowed : r'.allowedPublicKeys = r.allowedPublicKeys

theorem KeepsRecords.refl (r : PeerRegistry) : KeepsRecords r r := by
  intro i peer hpeer
  exact ⟨peer, hpeer, rfl, rfl⟩

theorem Keyed.of_keepsRecords {r r' : PeerRegistry} (hkeyed : r.Keyed)
    (hkeeps : KeepsRecords r r') : r'.Keyed := by
  intro id peer' hpeer'
  rcases hkeeps hpeer' with ⟨peer, hpeer, hid, -⟩
  rw [hid]
  exact hkeyed hpeer

theorem Keyed.of_writes {r r' : PeerRegistry} {id : Bytes} {connected : Bool}
    (hkeyed : r.Keyed) (hwrites : Writes r r' id connected) : r'.Keyed := by
  intro i peer hpeer
  by_cases h : i = id
  · subst h
    exact hwrites.keyed hkeyed hpeer
  · rw [hwrites.elsewhere i h] at hpeer
    exact hkeyed hpeer

theorem touchPeer_keepsRecords (r : PeerRegistry) (id : Bytes)
    {change : Peer → Peer} (hid : ∀ peer, (change peer).id = peer.id)
    (hconnected : ∀ peer, (change peer).connected = peer.connected) :
    KeepsRecords r (r.touchPeer id change) := by
  intro i peer' hpeer'
  rw [getPeer_touchPeer] at hpeer'
  split at hpeer'
  · rcases Option.map_eq_some_iff.mp hpeer' with ⟨peer, hpeer, rfl⟩
    exact ⟨peer, hpeer, hid peer, hconnected peer⟩
  · exact ⟨peer', hpeer', rfl, rfl⟩

theorem touchPeer_authMode (r : PeerRegistry) (id : Bytes)
    (change : Peer → Peer) :
    (r.touchPeer id change).authMode = r.authMode := by
  unfold touchPeer
  split <;> rfl

theorem touchPeer_allowedPublicKeys (r : PeerRegistry) (id : Bytes)
    (change : Peer → Peer) :
    (r.touchPeer id change).allowedPublicKeys = r.allowedPublicKeys := by
  unfold touchPeer
  split <;> rfl

theorem removePeer_keepsRecords {r r' : PeerRegistry} {id : Bytes}
    (hremoved : r.removePeer id = .returned r') : KeepsRecords r r' := by
  unfold removePeer at hremoved
  split at hremoved
  · cases hremoved
    intro i peer' hpeer'
    have hne : i ≠ id := by
      intro h
      subst h
      simp [getPeer] at hpeer'
    refine ⟨peer', ?_, rfl, rfl⟩
    simpa [getPeer, Finmap.lookup_erase_ne hne] using hpeer'
  · cases hremoved

theorem setConnected_writes (r : PeerRegistry) (now : Time) (id : Bytes)
    (connected : Bool) :
    Writes r (r.setConnected now id connected) id connected := by
  rw [setConnected_eq_touchPeer]
  constructor
  · intro i h
    rw [getPeer_touchPeer, if_neg h]
  · intro peer' hpeer'
    rw [getPeer_touchPeer, if_pos rfl] at hpeer'
    rcases Option.map_eq_some_iff.mp hpeer' with ⟨peer, -, rfl⟩
    rfl
  · intro hkeyed peer' hpeer'
    rw [getPeer_touchPeer, if_pos rfl] at hpeer'
    rcases Option.map_eq_some_iff.mp hpeer' with ⟨peer, hpeer, rfl⟩
    have hown := hkeyed hpeer
    exact hown
  · exact touchPeer_authMode r id _
  · exact touchPeer_allowedPublicKeys r id _

theorem insert_writes (r : PeerRegistry) (peer : Peer) :
    Writes r { r with peers := r.peers.insert peer.id peer } peer.id
      peer.connected := by
  constructor
  · intro i h
    rw [getPeer_insert, if_neg h]
  · intro stored hstored
    rw [getPeer_insert, if_pos rfl] at hstored
    cases hstored
    rfl
  · intro _ stored hstored
    rw [getPeer_insert, if_pos rfl] at hstored
    cases hstored
    rfl
  · rfl
  · rfl

theorem addPeer_writes {r r' : PeerRegistry} {now : Time} {peer : Peer}
    (hadded : r.addPeer now peer = .returned r') :
    Writes r r' peer.id peer.connected := by
  unfold addPeer at hadded
  split at hadded
  · cases hadded
  · rcases Outcome.bind_eq_returned_iff.mp hadded with ⟨_, -, hrest⟩
    split at hrest
    · cases hrest
    · cases hrest
      exact insert_writes r
        { peer with
          addedAt := if peer.addedAt = 0 then now else peer.addedAt
          score := if peer.score = 0 then 50 else peer.score }

theorem updatePeer_writes {r r' : PeerRegistry} {peer : Peer}
    (hupdated : r.updatePeer peer = .returned r') :
    Writes r r' peer.id peer.connected := by
  unfold updatePeer at hupdated
  split at hupdated
  · cases hupdated
    exact insert_writes r peer
  · cases hupdated

theorem changePeer_keepsRecords {r r' : PeerRegistry} {operation : String}
    {id : Bytes} {change : Peer → Peer}
    (hchanged : r.changePeer operation id change = .returned r')
    (hid : ∀ peer, (change peer).id = peer.id)
    (hconnected : ∀ peer, (change peer).connected = peer.connected) :
    KeepsRecords r r' := by
  unfold changePeer at hchanged
  split at hchanged
  · cases hchanged
    exact touchPeer_keepsRecords r id hid hconnected
  · cases hchanged

/-- From `r` to `r'` the settings that decide whom to let in are the same. -/
structure SameGate (r r' : PeerRegistry) : Prop where
  authMode : r'.authMode = r.authMode
  allowed : r'.allowedPublicKeys = r.allowedPublicKeys

theorem Writes.sameGate {r r' : PeerRegistry} {id : Bytes} {connected : Bool}
    (hwrites : Writes r r' id connected) : SameGate r r' :=
  ⟨hwrites.authMode, hwrites.allowed⟩

theorem touchPeer_sameGate (r : PeerRegistry) (id : Bytes)
    (change : Peer → Peer) : SameGate r (r.touchPeer id change) :=
  ⟨touchPeer_authMode r id change, touchPeer_allowedPublicKeys r id change⟩

theorem changePeer_sameGate {r r' : PeerRegistry} {operation : String}
    {id : Bytes} {change : Peer → Peer}
    (hchanged : r.changePeer operation id change = .returned r') :
    SameGate r r' := by
  unfold changePeer at hchanged
  split at hchanged
  · cases hchanged
    exact touchPeer_sameGate r id change
  · cases hchanged

theorem removePeer_sameGate {r r' : PeerRegistry} {id : Bytes}
    (hremoved : r.removePeer id = .returned r') : SameGate r r' := by
  unfold removePeer at hremoved
  split at hremoved
  · cases hremoved
    exact ⟨rfl, rfl⟩
  · cases hremoved

end PeerRegistry

open PeerRegistry

theorem RegistryCall.apply_eq_self {r : PeerRegistry} {call : RegistryCall}
    (hfailed : ∀ changed, call.run r ≠ .returned changed) :
    call.apply r = r := by
  unfold apply
  split
  next changed hrun => exact absurd hrun (hfailed changed)
  next => rfl

theorem RegistryCall.apply_sameGate (call : RegistryCall)
    (hkeeps : call.keepsGate = true) (r : PeerRegistry) :
    SameGate r (call.apply r) := by
  unfold apply
  split
  next r' hrun =>
    cases call with
    | addPeer now peer => exact (addPeer_writes hrun).sameGate
    | updatePeer peer => exact (updatePeer_writes hrun).sameGate
    | removePeer id => exact removePeer_sameGate hrun
    | updateMetrics | updateScore => exact changePeer_sameGate hrun
    | setConnected now id connected =>
        cases hrun
        exact (setConnected_writes r now id connected).sameGate
    | markSeen | recordSuccess | recordFailure | recordTimeout =>
        cases hrun
        exact touchPeer_sameGate r _ _
    | setAuthMode | allowPublicKey | revokePublicKey => cases hkeeps
  next => exact ⟨rfl, rfl⟩

theorem announceCall_keepsGate {r : PeerRegistry} {now : Time} {id : Bytes}
    {body : Except Unit Peer} {call : RegistryCall}
    (hcall : announceCall r now id body = .ok call) :
    call.keepsGate = true := by
  unfold announceCall at hcall
  dsimp only at hcall
  split at hcall
  · cases hcall
  · split at hcall
    · cases hcall
    · split at hcall
      · cases hcall
      · split at hcall <;> cases hcall <;> rfl

/-- A call either writes one flag, the one it says, or keeps every record's ID
and flag. -/
theorem RegistryCall.run_effect {r r' : PeerRegistry} {call : RegistryCall}
    (hrun : call.run r = .returned r') :
    (∃ id connected, call.flagWritten = some (id, connected) ∧
        Writes r r' id connected) ∨
      KeepsRecords r r' := by
  cases call with
  | addPeer now peer =>
      exact .inl ⟨peer.id, peer.connected, rfl, addPeer_writes hrun⟩
  | updatePeer peer =>
      exact .inl ⟨peer.id, peer.connected, rfl, updatePeer_writes hrun⟩
  | setConnected now id connected =>
      cases hrun
      exact .inl ⟨id, connected, rfl, setConnected_writes r now id connected⟩
  | removePeer id => exact .inr (removePeer_keepsRecords hrun)
  | updateMetrics | updateScore =>
      exact .inr (changePeer_keepsRecords hrun (fun _ => rfl) fun _ => rfl)
  | markSeen | recordSuccess | recordFailure | recordTimeout =>
      cases hrun
      exact .inr (touchPeer_keepsRecords r _ (fun _ => rfl) fun _ => rfl)
  | setAuthMode | allowPublicKey | revokePublicKey =>
      cases hrun
      exact .inr (KeepsRecords.refl r)

theorem RegistryCall.apply_effect (r : PeerRegistry) (call : RegistryCall) :
    (∃ id connected, call.flagWritten = some (id, connected) ∧
        Writes r (call.apply r) id connected) ∨
      KeepsRecords r (call.apply r) := by
  unfold apply
  split
  next changed hrun => exact run_effect hrun
  next => exact .inr (KeepsRecords.refl r)

/-- The flag of a record after a call is the one the call says it writes, or
the one that was there. -/
theorem RegistryCall.apply_flag {call : RegistryCall} {r : PeerRegistry}
    {id : Bytes} {peer' : Peer}
    (hpeer' : (call.apply r).getPeer id = some peer') :
    call.flagWritten = some (id, peer'.connected) ∨
      ∃ peer, r.getPeer id = some peer ∧ peer'.connected = peer.connected := by
  rcases call.apply_effect r with ⟨i, connected, hwritten, hwrites⟩ | hkeeps
  · by_cases h : id = i
    · subst h
      rw [hwrites.flag hpeer']
      exact .inl hwritten
    · rw [hwrites.elsewhere id h] at hpeer'
      exact .inr ⟨peer', hpeer', rfl⟩
  · rcases hkeeps hpeer' with ⟨peer, hpeer, -, hflag⟩
    exact .inr ⟨peer, hpeer, hflag⟩

theorem RegistryCall.apply_keyed {r : PeerRegistry} (hkeyed : r.Keyed)
    (call : RegistryCall) : (call.apply r).Keyed := by
  rcases call.apply_effect r with ⟨_, _, -, hwrites⟩ | hkeeps
  · exact hkeyed.of_writes hwrites
  · exact hkeyed.of_keepsRecords hkeeps

/-- `r'` is `r` after at most one call about peers. -/
def PeerStep (r r' : PeerRegistry) : Prop :=
  r' = r ∨ ∃ call : RegistryCall, call.keepsGate = true ∧ r' = call.apply r

theorem PeerStep.sameGate {r r' : PeerRegistry} (hstep : PeerStep r r') :
    SameGate r r' := by
  rcases hstep with rfl | ⟨call, hkeeps, rfl⟩
  · exact ⟨rfl, rfl⟩
  · exact call.apply_sameGate hkeeps r

theorem PeerStep.keyed {r r' : PeerRegistry} (hstep : PeerStep r r')
    (hkeyed : r.Keyed) : r'.Keyed := by
  rcases hstep with rfl | ⟨call, -, rfl⟩
  · exact hkeyed
  · exact call.apply_keyed hkeyed

end GoP2P.Node
