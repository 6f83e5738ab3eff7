import GoP2P.PeerOperations
import GoP2P.Tables

/-!
# Records in the registry

What a call makes of the records, one case for each way it can go: it puts a
new record in, replaces one, takes one out, changes one in place, or leaves
them alone.  A property of all records survives exactly the calls whose own
record has it.
-/

namespace GoP2P.Node

/-- The record that `AddPeer` stores. -/
def Peer.registered (peer : Peer) (now : Time) : Peer :=
  { peer with
    addedAt := if peer.addedAt = 0 then now else peer.addedAt
    score := if peer.score = 0 then 50 else peer.score }

namespace PeerRegistry

theorem addPeer_eq_returned_iff {r r' : PeerRegistry} {now : Time}
    {peer : Peer} :
    r.addPeer now peer = .returned r' ↔
      peer.id ≠ [] ∧ validatePeerName peer.name = .returned () ∧
        r.getPeer peer.id = none ∧
        r' = { r with peers := r.peers.insert peer.id (peer.registered now) } := by
  unfold addPeer getPeer
  split
  next hid => simp [hid]
  next hid =>
    cases hname : validatePeerName peer.name with
    | returned =>
        cases hlookup : r.peers.lookup peer.id with
        | none => simp [hid, Outcome.bind, Peer.registered, eq_comm]
        | some old => simp [Outcome.bind]
    | _ => simp [Outcome.bind]

theorem updatePeer_eq_returned_iff {r r' : PeerRegistry} {peer : Peer} :
    r.updatePeer peer = .returned r' ↔
      (r.getPeer peer.id).isSome ∧
        r' = { r with peers := r.peers.insert peer.id peer } := by
  unfold updatePeer getPeer
  split_ifs with hknown
  · simp [hknown, eq_comm]
  · simp [hknown]

end PeerRegistry

namespace RegistryCall

open PeerRegistry

/-- The ID of the record that the call changes in place, and the change. -/
def touches : RegistryCall → Option (Bytes × (Peer → Peer))
  | .updateMetrics now id pingMS geoKM hops => some (id, fun peer =>
      { peer with pingMS := pingMS, geoKM := geoKM, hops := hops, lastSeen := now })
  | .updateScore id score => some (id, fun peer =>
      { peer with score := max 0 (min score 100) })
  | .setConnected now id connected => some (id, fun peer =>
      { peer with
        connected := connected
        lastSeen := if connected then now else peer.lastSeen })
  | .markSeen now id => some (id, fun peer => { peer with lastSeen := now })
  | .recordSuccess now id => some (id, fun peer =>
      { peer with
        score := min (peer.score + scoreSuccessIncrement) scoreMaximum
        lastSeen := now })
  | .recordFailure now id => some (id, fun peer =>
      { peer with
        score := max (peer.score - scoreFailureDecrement) scoreMinimum
        lastSeen := now })
  | .recordTimeout now id => some (id, fun peer =>
      { peer with
        score := max (peer.score - scoreTimeoutDecrement) scoreMinimum
        lastSeen := now })
  | _ => none

/-- Every record that the call puts into the registry has the property. -/
def StoresOnly (P : Peer → Prop) (r : PeerRegistry) : RegistryCall → Prop
  | .addPeer now peer =>
      peer.id ≠ [] → validatePeerName peer.name = .returned () →
        r.getPeer peer.id = none → P (peer.registered now)
  | .updatePeer peer => (r.getPeer peer.id).isSome → P peer
  | _ => True

instance (P : Peer → Prop) [DecidablePred P] (r : PeerRegistry) :
    DecidablePred (StoresOnly P r)
  | .addPeer now peer =>
      inferInstanceAs (Decidable (peer.id ≠ [] →
        validatePeerName peer.name = .returned () →
          r.getPeer peer.id = none → P (peer.registered now)))
  | .updatePeer peer =>
      inferInstanceAs (Decidable ((r.getPeer peer.id).isSome → P peer))
  | .removePeer _ | .updateMetrics _ _ _ _ _ | .updateScore _ _
  | .setConnected _ _ _ | .markSeen _ _ | .recordSuccess _ _
  | .recordFailure _ _ | .recordTimeout _ _ | .setAuthMode _
  | .allowPublicKey _ | .revokePublicKey _ => .isTrue trivial

theorem StoresOnly.mono {P Q : Peer → Prop} {r : PeerRegistry}
    {call : RegistryCall} (hstores : call.StoresOnly P r)
    (himp : ∀ peer, P peer → Q peer) : call.StoresOnly Q r := by
  cases call with
  | addPeer now peer =>
      intro hid hname hmissing
      exact himp _ (hstores hid hname hmissing)
  | updatePeer peer =>
      intro hknown
      exact himp _ (hstores hknown)
  | _ => trivial

theorem storesOnly_of_touches {call : RegistryCall} {id : Bytes}
    {change : Peer → Peer} (hcall : call.touches = some (id, change))
    (P : Peer → Prop) (r : PeerRegistry) : call.StoresOnly P r := by
  cases call with
  | addPeer | updatePeer => cases hcall
  | _ => trivial

/-! ### What a call can do -/

/-- What a call makes of the registry. -/
inductive Effect (r : PeerRegistry) (call : RegistryCall) :
    PeerRegistry → Prop where
  | kept {r' : PeerRegistry} (hpeers : r'.peers = r.peers)
      (hnothing : call.StoresOnly (fun _ => False) r) : Effect r call r'
  | added {now : Time} {peer : Peer} (hcall : call = .addPeer now peer)
      (hid : peer.id ≠ []) (hname : validatePeerName peer.name = .returned ())
      (hmissing : r.getPeer peer.id = none) :
      Effect r call
        { r with peers := r.peers.insert peer.id (peer.registered now) }
  | updated {peer old : Peer} (hcall : call = .updatePeer peer)
      (hold : r.getPeer peer.id = some old) :
      Effect r call { r with peers := r.peers.insert peer.id peer }
  | removed {id : Bytes} {old : Peer} (hcall : call = .removePeer id)
      (hold : r.getPeer id = some old) :
      Effect r call { r with peers := r.peers.erase id }
  | touched {id : Bytes} {change : Peer → Peer} {old : Peer}
      (hcall : call.touches = some (id, change))
      (hold : r.getPeer id = some old) :
      Effect r call { r with peers := r.peers.insert id (change old) }

theorem apply_eq_touchPeer {call : RegistryCall} {id : Bytes}
    {change : Peer → Peer} (hcall : call.touches = some (id, change))
    (r : PeerRegistry) : call.apply r = r.touchPeer id change := by
  cases call with
  | updateMetrics | updateScore =>
      cases hcall
      dsimp only [apply, run, PeerRegistry.updateMetrics,
        PeerRegistry.updateScore, changePeer]
      split_ifs with hknown
      · rfl
      · rw [touchPeer_eq_self (by simpa using hknown)]
  | setConnected | markSeen | recordSuccess | recordFailure | recordTimeout =>
      cases hcall
      rfl
  | addPeer | updatePeer | removePeer | setAuthMode | allowPublicKey
  | revokePublicKey => cases hcall

theorem effect_of_touches (r : PeerRegistry) {call : RegistryCall}
    {id : Bytes} {change : Peer → Peer}
    (hcall : call.touches = some (id, change)) :
    Effect r call (call.apply r) := by
  rw [apply_eq_touchPeer hcall, touchPeer]
  split
  · exact .kept rfl (storesOnly_of_touches hcall _ r)
  next old hold => exact .touched hcall hold

theorem effect_addPeer (r : PeerRegistry) (now : Time) (peer : Peer) :
    Effect r (.addPeer now peer) ((RegistryCall.addPeer now peer).apply r) := by
  unfold apply
  split
  next added hadded =>
    rcases addPeer_eq_returned_iff.mp hadded with ⟨hid, hname, hmissing, rfl⟩
    exact .added rfl hid hname hmissing
  next hfails =>
    apply Effect.kept rfl
    intro hid hname hmissing
    exact hfails _ (addPeer_eq_returned_iff.mpr ⟨hid, hname, hmissing, rfl⟩)

theorem effect_updatePeer (r : PeerRegistry) (peer : Peer) :
    Effect r (.updatePeer peer) ((RegistryCall.updatePeer peer).apply r) := by
  unfold apply
  split
  next updated hupdated =>
    rcases updatePeer_eq_returned_iff.mp hupdated with ⟨hknown, rfl⟩
    rcases Option.isSome_iff_exists.mp hknown with ⟨old, hold⟩
    exact .updated rfl hold
  next hfails =>
    apply Effect.kept rfl
    intro hknown
    exact hfails _ (updatePeer_eq_returned_iff.mpr ⟨hknown, rfl⟩)

theorem effect_removePeer (r : PeerRegistry) (id : Bytes) :
    Effect r (.removePeer id) ((RegistryCall.removePeer id).apply r) := by
  unfold apply
  split
  next removed hremoved =>
    change r.removePeer id = .returned removed at hremoved
    unfold PeerRegistry.removePeer at hremoved
    split at hremoved
    next hknown =>
      rcases Option.isSome_iff_exists.mp hknown with ⟨old, hold⟩
      cases hremoved
      exact .removed rfl hold
    next => cases hremoved
  next => exact .kept rfl trivial

theorem apply_cases (r : PeerRegistry) (call : RegistryCall) :
    Effect r call (call.apply r) := by
  cases call with
  | addPeer now peer => exact effect_addPeer r now peer
  | updatePeer peer => exact effect_updatePeer r peer
  | removePeer id => exact effect_removePeer r id
  | updateMetrics | updateScore | setConnected | markSeen | recordSuccess
  | recordFailure | recordTimeout => exact effect_of_touches r rfl
  | setAuthMode | allowPublicKey | revokePublicKey => exact .kept rfl trivial

end RegistryCall

/-! ### Properties of all records -/

namespace PeerRegistry

def Everywhere (P : Peer → Prop) (r : PeerRegistry) : Prop :=
  ∀ ⦃id peer⦄, r.getPeer id = some peer → P peer

theorem everywhere_of_empty {r : PeerRegistry} (hempty : r.peers = ∅)
    (P : Peer → Prop) : Everywhere P r := by
  intro id peer hpeer
  rw [getPeer, hempty, Finmap.lookup_empty] at hpeer
  cases hpeer

theorem Everywhere.of_peers_eq {P : Peer → Prop} {r r' : PeerRegistry}
    (hall : Everywhere P r) (hpeers : r'.peers = r.peers) :
    Everywhere P r' := by
  intro id peer hpeer
  rw [getPeer, hpeers] at hpeer
  exact hall hpeer

theorem Everywhere.insert_iff {P : Peer → Prop} {r : PeerRegistry}
    (hall : Everywhere P r) {id : Bytes} {new : Peer} :
    Everywhere P { r with peers := r.peers.insert id new } ↔ P new := by
  constructor
  · intro hinserted
    have hfound : { r with peers := r.peers.insert id new }.getPeer id =
        some new := by
      rw [getPeer_insert, if_pos rfl]
    exact hinserted hfound
  · intro hnew i peer hpeer
    rw [getPeer_insert] at hpeer
    split_ifs at hpeer
    · cases hpeer
      exact hnew
    · exact hall hpeer

theorem Everywhere.erase {P : Peer → Prop} {r : PeerRegistry}
    (hall : Everywhere P r) (id : Bytes) :
    Everywhere P { r with peers := r.peers.erase id } := by
  intro i peer hpeer
  exact hall (lookup_of_lookup_erase hpeer).2

end PeerRegistry

open PeerRegistry

/-- A property that every change in place keeps survives a call exactly if
the record that the call stores has it. -/
theorem RegistryCall.apply_everywhere_iff {P : Peer → Prop} {r : PeerRegistry}
    (hall : Everywhere P r) {call : RegistryCall}
    (htouches : ∀ ⦃id change⦄, call.touches = some (id, change) →
      ∀ peer, P peer → P (change peer)) :
    Everywhere P (call.apply r) ↔ call.StoresOnly P r := by
  have heffect := call.apply_cases r
  generalize call.apply r = r' at heffect ⊢
  cases heffect with
  | kept hpeers hnothing =>
      exact iff_of_true (hall.of_peers_eq hpeers)
        (hnothing.mono fun _ => False.elim)
  | added hcall hid hname hmissing =>
      subst hcall
      rw [hall.insert_iff]
      constructor
      · intro hnew _ _ _
        exact hnew
      · intro hstores
        exact hstores hid hname hmissing
  | updated hcall hold =>
      subst hcall
      rw [hall.insert_iff]
      constructor
      · intro hnew _
        exact hnew
      · intro hstores
        exact hstores (by rw [hold]; rfl)
  | removed hcall =>
      subst hcall
      exact iff_of_true (hall.erase _) trivial
  | touched hcall hold =>
      rw [hall.insert_iff]
      exact iff_of_true (htouches hcall _ (hall hold))
        (storesOnly_of_touches hcall P r)

/-! ### Scores -/

/-- The range that the field's comment gives. -/
def Peer.ScoreInRange (peer : Peer) : Prop :=
  0 ≤ peer.score ∧ peer.score ≤ 100

instance : DecidablePred Peer.ScoreInRange := fun peer =>
  inferInstanceAs (Decidable (0 ≤ peer.score ∧ peer.score ≤ 100))

/-- Every change in place clamps the score on the side it moves it to. -/
theorem RegistryCall.touches_scoreInRange {call : RegistryCall} ⦃id : Bytes⦄
    ⦃change : Peer → Peer⦄ (hcall : call.touches = some (id, change))
    (peer : Peer) (hscore : peer.ScoreInRange) :
    (change peer).ScoreInRange := by
  rcases hscore with ⟨hlow, hhigh⟩
  cases call with
  | updateMetrics | setConnected | markSeen =>
      cases hcall
      exact ⟨hlow, hhigh⟩
  | updateScore =>
      cases hcall
      exact ⟨le_max_left _ _, max_le (by norm_num) (min_le_right _ _)⟩
  | recordSuccess =>
      cases hcall
      refine ⟨le_min ?_ (by norm_num [scoreMaximum]), min_le_right _ _⟩
      exact add_nonneg hlow (by norm_num [scoreSuccessIncrement])
  | recordFailure =>
      cases hcall
      refine ⟨le_max_right _ _, max_le ?_ (by norm_num [scoreMinimum])⟩
      exact (sub_le_self _ (by norm_num [scoreFailureDecrement])).trans hhigh
  | recordTimeout =>
      cases hcall
      refine ⟨le_max_right _ _, max_le ?_ (by norm_num [scoreMinimum])⟩
      exact (sub_le_self _ (by norm_num [scoreTimeoutDecrement])).trans hhigh
  | addPeer | updatePeer | removePeer | setAuthMode | allowPublicKey
  | revokePublicKey => cases hcall

/-! ### Names -/

/-- What the comment of `validatePeerName` asks of a name. -/
def ValidPeerName (name : Bytes) : Prop :=
  name = [] ∨
    (1 ≤ name.length ∧ name.length ≤ 64) ∧
      (∀ byte ∈ name.head?, isAlphanumeric byte = true) ∧
      (∀ byte ∈ name.getLast?, isAlphanumeric byte = true) ∧
      ∀ byte ∈ name, isNameByte byte = true

instance : DecidablePred ValidPeerName := fun name =>
  inferInstanceAs (Decidable (name = [] ∨
    (1 ≤ name.length ∧ name.length ≤ 64) ∧
      (∀ byte ∈ name.head?, isAlphanumeric byte = true) ∧
      (∀ byte ∈ name.getLast?, isAlphanumeric byte = true) ∧
      ∀ byte ∈ name, isNameByte byte = true))

theorem isNameByte_of_isAlphanumeric {byte : UInt8}
    (halpha : isAlphanumeric byte = true) : isNameByte byte = true := by
  simp [isNameByte, halpha]

theorem peerNameRegex_concat (first last : UInt8) (middle : Bytes) :
    peerNameRegex (first :: (middle ++ [last])) = true ↔
      isAlphanumeric first = true ∧ middle.length ≤ 62 ∧
        (∀ byte ∈ middle, isNameByte byte = true) ∧
        isAlphanumeric last = true := by
  cases middle with
  | nil => simp [peerNameRegex]
  | cons byte rest =>
      have hmiddle : (byte :: (rest ++ [last])).dropLast = byte :: rest := by
        rw [← List.cons_append, List.dropLast_concat]
      simp [peerNameRegex, hmiddle, and_assoc]

theorem validPeerName_concat (first last : UInt8) (middle : Bytes) :
    ValidPeerName (first :: (middle ++ [last])) ↔
      isAlphanumeric first = true ∧ middle.length ≤ 62 ∧
        (∀ byte ∈ middle, isNameByte byte = true) ∧
        isAlphanumeric last = true := by
  have hlength : (first :: (middle ++ [last])).length = middle.length + 2 := by
    simp
  have hlast : (first :: (middle ++ [last])).getLast? = some last := by
    rw [← List.cons_append, List.getLast?_concat]
  simp only [ValidPeerName, hlength, hlast, List.head?_cons, Option.mem_def,
    Option.some.injEq, forall_eq', reduceCtorEq, false_or]
  constructor
  · rintro ⟨⟨-, hshort⟩, hfirst, hend, hall⟩
    refine ⟨hfirst, by omega, ?_, hend⟩
    intro byte hbyte
    exact hall byte (by simp [hbyte])
  · rintro ⟨hfirst, hshort, hmiddle, hend⟩
    refine ⟨⟨by omega, by omega⟩, hfirst, hend, ?_⟩
    intro byte hbyte
    simp only [List.mem_cons, List.mem_append, List.not_mem_nil, or_false]
      at hbyte
    rcases hbyte with rfl | hbyte | rfl
    · exact isNameByte_of_isAlphanumeric hfirst
    · exact hmiddle byte hbyte
    · exact isNameByte_of_isAlphanumeric hend

theorem peerNameRegex_iff {name : Bytes} (hname : name ≠ []) :
    peerNameRegex name = true ↔ ValidPeerName name := by
  cases name with
  | nil => exact absurd rfl hname
  | cons first rest =>
      rcases List.eq_nil_or_concat' rest with rfl | ⟨middle, last, rfl⟩
      · change isAlphanumeric first = true ↔ ValidPeerName [first]
        simp only [ValidPeerName, reduceCtorEq, false_or, List.length_singleton,
          List.head?_cons, List.getLast?_singleton, Option.mem_def,
          Option.some.injEq, forall_eq', List.forall_mem_singleton]
        constructor
        · intro halpha
          exact ⟨by norm_num, halpha, halpha, isNameByte_of_isAlphanumeric halpha⟩
        · rintro ⟨-, halpha, -⟩
          exact halpha
      · rw [peerNameRegex_concat, validPeerName_concat]

theorem validatePeerName_eq_returned_iff (name : Bytes) :
    validatePeerName name = .returned () ↔ ValidPeerName name := by
  unfold validatePeerName
  split_ifs with hempty hlong hregex
  · exact iff_of_true rfl (.inl hempty)
  · apply iff_of_false nofun
    rintro (hnil | ⟨⟨-, hshort⟩, -⟩)
    · exact hempty hnil
    · exact absurd hshort (not_le.mpr hlong)
  · rw [← peerNameRegex_iff hempty]
    simpa using hregex
  · rw [← peerNameRegex_iff hempty]
    simpa using hregex

/-- No change in place touches a name. -/
theorem RegistryCall.touches_name {call : RegistryCall} {id : Bytes}
    {change : Peer → Peer} (hcall : call.touches = some (id, change))
    (peer : Peer) : (change peer).name = peer.name := by
  cases call with
  | addPeer | updatePeer | removePeer | setAuthMode | allowPublicKey
  | revokePublicKey => cases hcall
  | _ =>
      cases hcall
      rfl

end GoP2P.Node
