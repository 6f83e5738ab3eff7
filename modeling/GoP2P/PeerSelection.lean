import GoP2P.Runs
import GoP2P.NearestPoints
import GoP2P.PeerRecords
import GoP2P.RegistryClose

/-!
# Selecting peers

The registry keeps a KD-tree of its peers' metrics and rebuilds it inside the
critical section of every method that changes a metric.  `SetConnected` and
`MarkSeen` do not rebuild, and need not.  `load` does not rebuild either: its
only caller, the constructor, does so before it returns the registry.  The tree
is an index over the points that `rebuildKDTree` makes of the peers, in the
order in which the map is ranged over.
-/

namespace GoP2P.Node

open PeerRegistry

def pingWeight : ℚ := 1
def hopsWeight : ℚ := 7 / 10
def geoWeight : ℚ := 2 / 10
def scoreWeight : ℚ := 12 / 10

/-- The point of a peer: the score is inverted so that lower is better in all
four dimensions. -/
def Peer.point (peer : Peer) : Point Bytes where
  id := peer.id
  coords :=
    [peer.pingMS * pingWeight, peer.hops * hopsWeight, peer.geoKM * geoWeight,
      (100 - peer.score) * scoreWeight]
  value := peer.id

/-- The distance from the ideal peer, squared. -/
def Peer.cost (peer : Peer) : ℚ :=
  (1 * peer.pingMS) ^ 2 + (7 / 10 * peer.hops) ^ 2 +
    (2 / 10 * peer.geoKM) ^ 2 + (12 / 10 * (100 - peer.score)) ^ 2

def idealTarget : List ℚ := [0, 0, 0, 0]

theorem Peer.squaredDistance_point (peer : Peer) :
    squaredDistance peer.point.coords idealTarget = peer.cost := by
  simp only [squaredDistance, point, idealTarget, cost, pingWeight, hopsWeight,
    geoWeight, scoreWeight, List.zipWith_cons_cons, List.zipWith_nil_right,
    List.sum_cons, List.sum_nil]
  ring

/-! ### The registry and its tree -/

/-- `stale` is ghost: `load` has replaced the peers and the tree was not
rebuilt since. -/
structure IndexedRegistry (τ : Type*) where
  registry : PeerRegistry := {}
  kdTree : Option τ := none
  stale : Bool := false

/-- The method calls `rebuildKDTree` when it has made its change. -/
def RegistryCall.rebuilds (r : PeerRegistry) (call : RegistryCall) : Bool :=
  match call with
  | .addPeer _ _ | .updatePeer _ | .removePeer _ | .updateMetrics _ _ _ _ _
  | .updateScore _ _ =>
      match call.run r with
      | .returned _ => true
      | _ => false
  | .recordSuccess _ id | .recordFailure _ id | .recordTimeout _ id =>
      (r.peers.lookup id).isSome
  | .setConnected _ _ _ | .markSeen _ _ | .setAuthMode _ | .allowPublicKey _
  | .revokePublicKey _ => false

inductive SelectionAction where
  | call (call : RegistryCall) (order : List Peer)
  | load (content : Option (List Peer))
  | rebuild (order : List Peer)

namespace IndexedRegistry

variable {τ : Type*}

section

variable (index : SpatialIndex Bytes τ)

/-- A tree that cannot be built leaves the old one in place. -/
def rebuildKDTree (s : IndexedRegistry τ) (order : List Peer) :
    IndexedRegistry τ :=
  if s.registry.peers = ∅ then
    { s with kdTree := none, stale := false }
  else
    match index.build (order.map Peer.point) with
    | none => { s with stale := false }
    | some tree => { s with kdTree := some tree, stale := false }

/-- `content` is what the file unmarshals to, if it can be read. -/
def load (s : IndexedRegistry τ) (content : Option (List Peer)) :
    IndexedRegistry τ :=
  match content with
  | none => s
  | some peers =>
      { s with
        registry := { s.registry with peers := tabulate Peer.id peers }
        stale := true }

def call (s : IndexedRegistry τ) (call : RegistryCall) (order : List Peer) :
    IndexedRegistry τ :=
  let called := { s with registry := call.apply s.registry }
  if call.rebuilds s.registry then called.rebuildKDTree index order
  else called

/-- `NewPeerRegistryWithPath`; loading the allowlist does not concern the
tree. -/
def newPeerRegistryWithPath (content : Option (List Peer))
    (order : List Peer) : IndexedRegistry τ :=
  let loaded := ({} : IndexedRegistry τ).load content
  let indexed :=
    if content.isNone then loaded.rebuildKDTree index order else loaded
  indexed.rebuildKDTree index order

def selectOptimalPeer (s : IndexedRegistry τ) : Option Peer :=
  match s.kdTree with
  | none => none
  | some tree =>
      if s.registry.peers = ∅ then
        none
      else
        match index.nearest tree idealTarget with
        | none => none
        | some result => s.registry.getPeer result.value

def selectNearestPeers (s : IndexedRegistry τ) (n : ℤ) : List Peer :=
  match s.kdTree with
  | none => []
  | some tree =>
      if s.registry.peers = ∅ then
        []
      else
        (index.kNearest tree idealTarget n).filterMap fun result =>
          s.registry.getPeer result.value

def next (s : IndexedRegistry τ) : SelectionAction → IndexedRegistry τ
  | .call call order => s.call index call order
  | .load content => s.load content
  | .rebuild order => s.rebuildKDTree index order

/-- `order` is an order of the map that the method ranges over. -/
def Enabled (s : IndexedRegistry τ) : SelectionAction → Prop
  | .call call order => (call.apply s.registry).Lists order
  | .load _ => True
  | .rebuild order => s.registry.Lists order

instance (s : IndexedRegistry τ) : DecidablePred s.Enabled
  | .call call order =>
      inferInstanceAs (Decidable ((call.apply s.registry).Lists order))
  | .load _ => .isTrue trivial
  | .rebuild order => inferInstanceAs (Decidable (s.registry.Lists order))

def machine : Machine (IndexedRegistry τ) SelectionAction where
  initial s := s = {}
  enabled := Enabled
  next := next index

instance (s : IndexedRegistry τ) (action : SelectionAction) :
    Decidable ((machine index).enabled s action) :=
  inferInstanceAs (Decidable (s.Enabled action))

end

/-! ### The tree is that of the peers -/

/-- The points are those of the registered peers, one each. -/
structure Indexes (points : List (Point Bytes)) (r : PeerRegistry) : Prop where
  distinct : (points.map Point.id).Nodup
  mem_iff : ∀ point, point ∈ points ↔
    ∃ peer, r.getPeer point.id = some peer ∧ peer.point = point

theorem indexes_of_lists {r : PeerRegistry} (hkeyed : r.Keyed)
    {order : List Peer} (hlists : r.Lists order) :
    Indexes (order.map Peer.point) r := by
  constructor
  · rw [List.map_map]
    exact hlists.nodup hkeyed
  · intro point
    rw [List.mem_map]
    constructor
    · rintro ⟨peer, hpeer, rfl⟩
      exact ⟨peer, (hlists.mem_iff hkeyed).mpr ⟨hpeer, rfl⟩, rfl⟩
    · rintro ⟨peer, hpeer, rfl⟩
      exact ⟨peer, ((hlists.mem_iff hkeyed).mp hpeer).1, rfl⟩

theorem Indexes.of_getPeer_map_point {points : List (Point Bytes)}
    {r r' : PeerRegistry} (hindexes : Indexes points r)
    (hsame : ∀ id, (r'.getPeer id).map Peer.point =
      (r.getPeer id).map Peer.point) : Indexes points r' := by
  refine ⟨hindexes.distinct, ?_⟩
  intro point
  rw [hindexes.mem_iff, ← Option.map_eq_some_iff, ← Option.map_eq_some_iff,
    hsame]

/-- What a method changes without rebuilding leaves every point as it was. -/
theorem point_apply {r : PeerRegistry} {call : RegistryCall}
    (hsilent : call.rebuilds r = false) (id : Bytes) :
    ((call.apply r).getPeer id).map Peer.point =
      (r.getPeer id).map Peer.point := by
  cases call with
  | addPeer | updatePeer | removePeer | updateMetrics | updateScore =>
      rw [RegistryCall.apply_eq_self]
      intro changed hrun
      simp [RegistryCall.rebuilds, hrun] at hsilent
  | recordSuccess now target | recordFailure now target
  | recordTimeout now target =>
      change ((r.touchPeer target _).getPeer id).map _ = _
      rw [touchPeer_eq_self hsilent]
  | setConnected now target connected | markSeen now target =>
      change ((r.touchPeer target _).getPeer id).map _ = _
      rw [getPeer_touchPeer]
      by_cases hid : id = target
      · rw [if_pos hid, Option.map_map]
        rfl
      · rw [if_neg hid]
  | setAuthMode | allowPublicKey | revokePublicKey => rfl

theorem exists_getPeer {r : PeerRegistry} (hnonempty : r.peers ≠ ∅) :
    ∃ id peer, r.getPeer id = some peer := by
  by_contra hnone
  apply hnonempty
  apply Finmap.ext_lookup
  intro id
  rw [Finmap.lookup_empty]
  apply Option.eq_none_iff_forall_ne_some.mpr
  intro peer hpeer
  exact hnone ⟨id, peer, hpeer⟩

theorem Indexes.mem_point {points : List (Point Bytes)} {r : PeerRegistry}
    (hindexes : Indexes points r) (hkeyed : r.Keyed) {id : Bytes} {peer : Peer}
    (hpeer : r.getPeer id = some peer) : peer.point ∈ points := by
  rw [hindexes.mem_iff]
  refine ⟨peer, ?_, rfl⟩
  have hid := hkeyed hpeer
  subst hid
  exact hpeer

theorem Indexes.indexable {points : List (Point Bytes)} {r : PeerRegistry}
    (hindexes : Indexes points r) (hkeyed : r.Keyed)
    (hnonempty : r.peers ≠ ∅) : Point.Indexable 4 points := by
  constructor
  · rcases exists_getPeer hnonempty with ⟨id, peer, hpeer⟩
    exact List.ne_nil_of_mem (hindexes.mem_point hkeyed hpeer)
  · exact hindexes.distinct
  · intro point hpoint
    rcases (hindexes.mem_iff point).mp hpoint with ⟨peer, -, rfl⟩
    rfl

/-- The tree was built from the points of the peers, if there are any, unless
`load` has replaced them since. -/
structure Current (index : SpatialIndex Bytes τ) (s : IndexedRegistry τ) :
    Prop where
  keyed : s.registry.Keyed
  indexed : s.stale = false → s.registry.peers ≠ ∅ →
    ∃ points tree, s.kdTree = some tree ∧ index.build points = some tree ∧
      Indexes points s.registry

section

variable {index : SpatialIndex Bytes τ} (hexact : index.Exact)

include hexact

theorem rebuildKDTree_current {s : IndexedRegistry τ}
    (hkeyed : s.registry.Keyed) {order : List Peer}
    (hlists : s.registry.Lists order) :
    Current index (s.rebuildKDTree index order) := by
  unfold rebuildKDTree
  split_ifs with hempty
  · exact ⟨hkeyed, fun _ hnonempty => absurd hempty hnonempty⟩
  · have hindexes := indexes_of_lists hkeyed hlists
    rcases hexact.builds (hindexes.indexable hkeyed hempty) with ⟨tree, htree⟩
    rw [htree]
    exact ⟨hkeyed, fun _ _ => ⟨_, tree, rfl, htree, hindexes⟩⟩

theorem call_current {s : IndexedRegistry τ} (hcurrent : Current index s)
    {call : RegistryCall} {order : List Peer}
    (hlists : (call.apply s.registry).Lists order) :
    Current index (s.call index call order) := by
  have hkeyed := call.apply_keyed hcurrent.keyed
  unfold IndexedRegistry.call
  dsimp only
  split_ifs with hrebuilds
  · exact rebuildKDTree_current hexact hkeyed hlists
  · rw [Bool.not_eq_true] at hrebuilds
    refine ⟨hkeyed, ?_⟩
    intro hfresh hnonempty
    have hsame := point_apply hrebuilds
    have hbefore : s.registry.peers ≠ ∅ := by
      rcases exists_getPeer hnonempty with ⟨id, peer, hpeer⟩
      intro hempty
      have hnone := hsame id
      rw [hpeer, getPeer, hempty, Finmap.lookup_empty] at hnone
      cases hnone
    rcases hcurrent.indexed hfresh hbefore with
      ⟨points, tree, htree, hbuild, hindexes⟩
    exact ⟨points, tree, htree, hbuild, hindexes.of_getPeer_map_point hsame⟩

theorem current_of_reachable {s : IndexedRegistry τ}
    (hreachable : (machine index).Reachable s) : Current index s := by
  apply hreachable.invariant
  · rintro s rfl
    refine ⟨?_, fun _ hnonempty => absurd rfl hnonempty⟩
    intro id peer hpeer
    exact absurd hpeer (by simp [getPeer])
  · intro s action _ hcurrent henabled _
    cases action with
    | call call order => exact call_current hexact hcurrent henabled
    | rebuild order =>
        exact rebuildKDTree_current hexact hcurrent.keyed henabled
    | load content =>
        cases content with
        | none => exact hcurrent
        | some peers =>
            refine ⟨?_, fun hfresh => by cases hfresh⟩
            intro id peer hpeer
            exact key_of_lookup_tabulate hpeer

end

/-- The constructor rebuilds after it has loaded, whatever came of that. -/
theorem newPeerRegistryWithPath_reachable (index : SpatialIndex Bytes τ)
    (content : Option (List Peer)) {order : List Peer}
    (hlists : (({} : IndexedRegistry τ).load content).registry.Lists order) :
    (machine index).Reachable (newPeerRegistryWithPath index content order) ∧
      (newPeerRegistryWithPath index content order).stale = false := by
  have hfresh : ∀ s : IndexedRegistry τ,
      (s.rebuildKDTree index order).stale = false := by
    intro s
    unfold rebuildKDTree
    split_ifs
    · rfl
    · split <;> rfl
  refine ⟨?_, hfresh _⟩
  cases content with
  | none =>
      have hrun : (machine index).Reachable ((machine index).replay {}
          [.load none, .rebuild order, .rebuild order]) :=
        Machine.Run.replay (.start rfl)
          ⟨trivial, trivial, hlists, trivial, hlists, trivial, trivial⟩
      exact hrun
  | some peers =>
      have hrun : (machine index).Reachable ((machine index).replay {}
          [.load (some peers), .rebuild order]) :=
        Machine.Run.replay (.start rfl)
          ⟨trivial, trivial, hlists, trivial, trivial⟩
      exact hrun

/-! ### What is selected -/

/-- As many registered peers as asked for, or all, and none of them beaten by
one that was left out. -/
structure BestPeers (r : PeerRegistry) (n : ℕ) (selected : List Peer) :
    Prop where
  length : selected.length = min n r.peers.keys.card
  distinct : (selected.map Peer.id).Nodup
  registered : ∀ peer ∈ selected, r.getPeer peer.id = some peer
  unbeaten : ∀ peer ∈ selected, ∀ ⦃id other⦄, r.getPeer id = some other →
    other ∉ selected → peer.cost ≤ other.cost

theorem bestPeers_of_empty {r : PeerRegistry} (hempty : r.peers = ∅) (n : ℕ) :
    BestPeers r n [] := by
  constructor
  · rw [hempty]
    simp
  · exact List.nodup_nil
  · intro peer hpeer
    cases hpeer
  · intro peer hpeer
    cases hpeer

theorem Indexes.length_eq {points : List (Point Bytes)} {r : PeerRegistry}
    (hindexes : Indexes points r) (hkeyed : r.Keyed) :
    points.length = r.peers.keys.card := by
  have hkeys : (points.map Point.id).toFinset = r.peers.keys := by
    ext id
    rw [List.mem_toFinset, List.mem_map, Finmap.mem_keys, ← Finmap.lookup_isSome,
      Option.isSome_iff_exists]
    constructor
    · rintro ⟨point, hpoint, rfl⟩
      rcases (hindexes.mem_iff point).mp hpoint with ⟨peer, hpeer, -⟩
      exact ⟨peer, hpeer⟩
    · rintro ⟨peer, hpeer⟩
      exact ⟨peer.point, hindexes.mem_point hkeyed hpeer, hkeyed hpeer⟩
  rw [← hkeys, List.toFinset_card_of_nodup hindexes.distinct, List.length_map]

/-- Looking the results up gives the peers they are the points of. -/
theorem Indexes.map_point_filterMap {points results : List (Point Bytes)}
    {r : PeerRegistry} (hindexes : Indexes points r)
    (hresults : results ⊆ points) :
    (results.filterMap fun result => r.getPeer result.value).map Peer.point =
      results := by
  induction results with
  | nil => rfl
  | cons point rest ih =>
      rw [List.cons_subset] at hresults
      rcases (hindexes.mem_iff point).mp hresults.1 with ⟨peer, hpeer, rfl⟩
      have hvalue : r.getPeer peer.point.value = some peer := hpeer
      simp only [List.filterMap_cons, hvalue, List.map_cons, ih hresults.2]

/-- The peers of the closest points are the best peers. -/
theorem Indexes.bestPeers {points results : List (Point Bytes)}
    {r : PeerRegistry} (hindexes : Indexes points r) (hkeyed : r.Keyed) {n : ℕ}
    (hnearest : Point.Nearest points idealTarget n results) :
    BestPeers r n (results.filterMap fun result => r.getPeer result.value) := by
  have hsubset : results ⊆ points := hnearest.subperm.subset
  have hpoints := hindexes.map_point_filterMap hsubset
  have hregistered : ∀ peer ∈ results.filterMap
      (fun result => r.getPeer result.value), r.getPeer peer.id = some peer := by
    intro peer hpeer
    rcases List.mem_filterMap.mp hpeer with ⟨point, -, hlookup⟩
    have hid := hkeyed hlookup
    rw [hid]
    exact hlookup
  constructor
  · rw [← hindexes.length_eq hkeyed, ← hnearest.length, ← hpoints,
      List.length_map, hpoints]
  · have hids : (results.filterMap
        fun result => r.getPeer result.value).map Peer.id =
          results.map Point.id := by
      conv_rhs => rw [← hpoints, List.map_map]
      rfl
    rw [hids]
    rcases hnearest.subperm with ⟨part, hperm, hsublist⟩
    have hpart := hindexes.distinct.sublist (hsublist.map Point.id)
    exact (hperm.map Point.id).nodup_iff.mp hpart
  · exact hregistered
  · intro peer hpeer id other hother homitted
    have hselected : peer.point ∈ results := by
      rw [← hpoints]
      exact List.mem_map_of_mem hpeer
    have hleft : other.point ∉ results := by
      intro hresult
      rw [← hpoints] at hresult
      rcases List.mem_map.mp hresult with ⟨same, hsame, hpoint⟩
      have hid : same.id = id :=
        (congrArg Point.id hpoint).trans (hkeyed hother)
      have hlookup := hregistered same hsame
      rw [hid, hother, Option.some.injEq] at hlookup
      subst hlookup
      exact homitted hsame
    rw [← peer.squaredDistance_point, ← other.squaredDistance_point]
    exact hnearest.closer _ hselected _ (hindexes.mem_point hkeyed hother) hleft

section

variable {index : SpatialIndex Bytes τ} (hexact : index.Exact)
  {s : IndexedRegistry τ} (hcurrent : Current index s)
  (hfresh : s.stale = false)

include hexact hcurrent hfresh

theorem selectOptimalPeer_spec (hnonempty : s.registry.peers ≠ ∅) :
    ∃ peer, s.selectOptimalPeer index = some peer ∧
      s.registry.getPeer peer.id = some peer ∧
      ∀ ⦃id other⦄, s.registry.getPeer id = some other →
        peer.cost ≤ other.cost := by
  rcases hcurrent.indexed hfresh hnonempty with
    ⟨points, tree, htree, hbuild, hindexes⟩
  have hindexable := hindexes.indexable hcurrent.keyed hnonempty
  have hdimension : idealTarget.length = 4 := rfl
  rcases hexact.nearest hindexable hbuild hdimension with
    ⟨point, hpoint, hnearest, hcloser⟩
  rcases (hindexes.mem_iff point).mp hpoint with ⟨peer, hpeer, rfl⟩
  refine ⟨peer, ?_, hpeer, ?_⟩
  · simp only [selectOptimalPeer, htree, if_neg hnonempty, hnearest]
    exact hpeer
  · intro id other hother
    rw [← peer.squaredDistance_point, ← other.squaredDistance_point]
    exact hcloser _ (hindexes.mem_point hcurrent.keyed hother)

theorem selectNearestPeers_spec (n : ℕ) :
    BestPeers s.registry n (s.selectNearestPeers index n) := by
  by_cases hempty : s.registry.peers = ∅
  · have hnone : s.selectNearestPeers index n = [] := by
      unfold selectNearestPeers
      cases s.kdTree with
      | none => rfl
      | some tree => simp only [if_pos hempty]
    rw [hnone]
    exact bestPeers_of_empty hempty n
  · rcases hcurrent.indexed hfresh hempty with
      ⟨points, tree, htree, hbuild, hindexes⟩
    have hindexable := hindexes.indexable hcurrent.keyed hempty
    have hdimension : idealTarget.length = 4 := rfl
    have hnearest := hexact.kNearest hindexable hbuild hdimension n
    simp only [selectNearestPeers, htree, if_neg hempty]
    exact hindexes.bestPeers hcurrent.keyed hnearest

end

theorem selectOptimalPeer_of_empty (index : SpatialIndex Bytes τ)
    {s : IndexedRegistry τ} (hempty : s.registry.peers = ∅) :
    s.selectOptimalPeer index = none := by
  unfold selectOptimalPeer
  cases s.kdTree with
  | none => rfl
  | some tree => simp only [if_pos hempty]

/-- In every state that a sequence of registry calls and loads leads to, if
the tree was rebuilt since the last load, selection goes by the current
metrics: the optimal peer is a registered peer of smallest cost, and the
nearest peers are the best ones. -/
theorem selection_is_current {index : SpatialIndex Bytes τ}
    (hexact : index.Exact) {s : IndexedRegistry τ}
    (hreachable : (machine index).Reachable s) (hfresh : s.stale = false) :
    (s.selectOptimalPeer index = none ↔ s.registry.peers = ∅) ∧
      (∀ peer, s.selectOptimalPeer index = some peer →
        s.registry.getPeer peer.id = some peer ∧
          ∀ ⦃id other⦄, s.registry.getPeer id = some other →
            peer.cost ≤ other.cost) ∧
      ∀ n : ℕ, BestPeers s.registry n (s.selectNearestPeers index n) := by
  have hcurrent := current_of_reachable hexact hreachable
  refine ⟨⟨?_, selectOptimalPeer_of_empty index⟩, ?_,
    selectNearestPeers_spec hexact hcurrent hfresh⟩
  · intro hnone
    by_contra hnonempty
    rcases selectOptimalPeer_spec hexact hcurrent hfresh hnonempty with
      ⟨peer, hpeer, -⟩
    rw [hnone] at hpeer
    cases hpeer
  · intro peer hpeer
    have hnonempty : s.registry.peers ≠ ∅ := by
      intro hempty
      rw [selectOptimalPeer_of_empty index hempty] at hpeer
      cases hpeer
    rcases selectOptimalPeer_spec hexact hcurrent hfresh hnonempty with
      ⟨best, hbest, hspec⟩
    rw [hbest, Option.some.injEq] at hpeer
    subst hpeer
    exact hspec

/-! ### Sample runs -/

def sampleNear : Peer := { id := [1], pingMS := 10, score := 50, addedAt := 1 }

def sampleFar : Peer := { id := [2], pingMS := 80, score := 50, addedAt := 1 }

def sampleCalls : List SelectionAction :=
  [.load (some [sampleNear]), .rebuild [sampleNear],
    .call (.addPeer 1 sampleFar) [sampleNear, sampleFar]]

theorem selection_is_current_sample :
    let s := (machine (.scan Bytes)).replay {} sampleCalls
    s.selectOptimalPeer (.scan Bytes) = some sampleNear ∧
      BestPeers s.registry 1 (s.selectNearestPeers (.scan Bytes) 1) := by
  have hrun : (machine (.scan Bytes)).Reachable
      ((machine (.scan Bytes)).replay {} sampleCalls) := by
    apply Machine.Run.replay (.start rfl)
    decide +kernel
  have hselection := selection_is_current SpatialIndex.scan_exact hrun
    (by decide +kernel)
  exact ⟨by decide +kernel, hselection.2.2 1⟩

/-- A load alone leaves the old tree: no peer is selected although there is
one. -/
theorem load_alone_selects_none :
    let s := (machine (.scan Bytes)).replay {}
      [.call (.addPeer 1 sampleNear) [sampleNear], .load (some [sampleFar])]
    (machine (.scan Bytes)).Reachable s ∧
      s.registry.getPeer [2] = some sampleFar ∧
      s.selectOptimalPeer (.scan Bytes) = none := by
  refine ⟨?_, by decide +kernel, by decide +kernel⟩
  apply Machine.Run.replay (.start rfl)
  decide +kernel

end IndexedRegistry

end GoP2P.Node
