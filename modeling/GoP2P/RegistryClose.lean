import GoP2P.RegistrySaving

/-!
# Closing the registry

`Close` trusts the dirty mark: when it is clear it writes nothing.  The mark is
cleared before the peers are written, so a clear mark means that they are on
disk only if whoever cleared it has finished, and has not failed.
-/

namespace GoP2P.Node

open PeerRegistry

/-! ### What the file says about the peers -/

theorem PeerRegistry.Lists.mem_iff {r : PeerRegistry} {order : List Peer}
    (hlists : r.Lists order) (hkeyed : r.Keyed) {id : Bytes} {peer : Peer} :
    r.getPeer id = some peer ↔ peer ∈ order ∧ peer.id = id := by
  have hmem : peer ∈ order ↔ ∃ i, ⟨i, peer⟩ ∈ r.peers.entries := by
    rw [← Multiset.mem_coe, hlists]
    simp
  constructor
  · intro hpeer
    have hentry := Finmap.mem_lookup_iff.mp hpeer
    exact ⟨hmem.mpr ⟨id, hentry⟩, hkeyed hpeer⟩
  · intro hpeer
    rcases hpeer with ⟨hin, hid⟩
    rcases hmem.mp hin with ⟨i, hentry⟩
    have hpeer := Finmap.mem_lookup_iff.mpr hentry
    have hi := hkeyed hpeer
    rw [← hid, hi]
    exact hpeer

theorem PeerRegistry.Lists.nodup {r : PeerRegistry} {order : List Peer}
    (hlists : r.Lists order) (hkeyed : r.Keyed) :
    (order.map Peer.id).Nodup := by
  have hkeys : (order.map Peer.id : Multiset Bytes) = r.peers.entries.keys := by
    rw [← Multiset.map_coe, hlists, Multiset.map_map]
    apply Multiset.map_congr rfl
    intro entry hentry
    exact hkeyed (Finmap.mem_lookup_iff.mpr hentry)
  rw [← Multiset.coe_nodup, hkeys, Multiset.nodup_keys]
  exact r.peers.nodupKeys

/-- The records of the registry, as the file keeps them. -/
def Holds (r : PeerRegistry) (peers : Finmap fun _ : Bytes => Peer) : Prop :=
  ∀ id, peers.lookup id = (r.getPeer id).map Peer.persisted

theorem holds_tabulate {r : PeerRegistry} (hkeyed : r.Keyed)
    {order : List Peer} (hlists : r.Lists order) :
    Holds r (tabulate Peer.id (order.map Peer.persisted)) := by
  intro id
  have hnodup : ((order.map Peer.persisted).map Peer.id).Nodup := by
    rw [List.map_map]
    exact hlists.nodup hkeyed
  apply Option.ext
  intro kept
  rw [lookup_tabulate_eq_some_iff hnodup, Option.map_eq_some_iff, List.mem_map]
  constructor
  · intro hkept
    rcases hkept with ⟨⟨peer, hmem, rfl⟩, hid⟩
    exact ⟨peer, (hlists.mem_iff hkeyed).mpr ⟨hmem, hid⟩, rfl⟩
  · intro hpeer
    rcases hpeer with ⟨peer, hpeer, rfl⟩
    rcases (hlists.mem_iff hkeyed).mp hpeer with ⟨hmem, hid⟩
    exact ⟨⟨peer, hmem, rfl⟩, hid⟩

variable {β : Type*}

theorem holds_loadPeers {codec : PeersCodec β} {disk : Directory β}
    {r : PeerRegistry} (hkeyed : r.Keyed) {order : List Peer}
    (hlists : r.Lists order)
    (hread : disk.read = some (codec.marshal order)) :
    Holds r (loadPeers codec disk) := by
  unfold loadPeers
  rw [hread, Option.bind_some, codec.roundTrip]
  exact holds_tabulate hkeyed hlists

/-- A method that does not save leaves what the file keeps of the records. -/
theorem RegistryCall.persisted_apply {r : PeerRegistry} {call : RegistryCall}
    (hsilent : call.saves r = false) (id : Bytes) :
    ((call.apply r).getPeer id).map Peer.persisted =
      (r.getPeer id).map Peer.persisted := by
  cases call with
  | setConnected now target connected =>
      simp only [saves, Bool.and_eq_false_iff] at hsilent
      change ((r.setConnected now target connected).getPeer id).map _ = _
      rw [setConnected_eq_touchPeer]
      rcases hsilent with hclear | habsent
      · subst hclear
        rw [getPeer_touchPeer]
        split
        · cases r.getPeer id <;> rfl
        · rfl
      · rw [touchPeer_eq_self habsent]
  | markSeen | recordSuccess | recordFailure | recordTimeout =>
      exact congrArg (fun r => (getPeer r id).map Peer.persisted)
        (touchPeer_eq_self hsilent _)
  | setAuthMode | allowPublicKey | revokePublicKey => rfl
  | _ =>
      unfold saves at hsilent
      dsimp only at hsilent
      split at hsilent
      · cases hsilent
      next hfailed => rw [apply_eq_self hfailed]

/-- The saver has cleared the mark and not yet written what it stood for. -/
def Saver.Unsaved (saver : Saver β) : Prop :=
  saver.stage = .flagged ∨ saver.writer? ≠ none

/-- A call of `Close` that has not returned. -/
def Saver.Closing (saver : Saver β) : Prop :=
  saver.isClose = true ∧ ∀ ok, saver.stage ≠ .returned ok

namespace RegistrySaving

def AnyUnsaved (s : RegistrySaving β) : Prop :=
  ∃ saver ∈ s.savers, saver.Unsaved

/-- `Close` is called when every method that changes peers has returned, none
is called before it returns, no two saves overlap, and `Close` looks at the
mark when nobody is about to write or writing, and the mark is set or the last
save went well. -/
def CloseSafe (s : RegistrySaving β) : SavingAction → Prop
  | .operate call =>
      call.saves s.registry = true → ∀ saver ∈ s.savers, ¬saver.Closing
  | .callClose => s.unscheduled = 0
  | .flag position =>
      match s.savers[position]? with
      | some ⟨true, .called⟩ =>
          ¬s.AnyUnsaved ∧ (s.dirty = true ∨ s.lastSaved = true)
      | _ => True
  | .lock _ _ => s.NoneSaving
  | _ => True

instance (saver : Saver β) : Decidable saver.Unsaved :=
  match h : saver.stage with
  | .flagged => .isTrue (.inl h)
  | .saving writer => .isTrue (.inr (by simp [Saver.writer?, h]))
  | .armed | .stopped | .called | .returned _ =>
      .isFalse (by simp [Saver.Unsaved, Saver.writer?, h])

instance (saver : Saver β) : Decidable saver.Closing :=
  match h : saver.stage with
  | .returned ok => .isFalse fun hclosing => hclosing.2 ok h
  | .armed | .stopped | .called | .flagged | .saving _ =>
      decidable_of_iff (saver.isClose = true) (by simp [Saver.Closing, h])

instance (s : RegistrySaving β) : Decidable s.AnyUnsaved :=
  inferInstanceAs (Decidable (∃ saver ∈ s.savers, saver.Unsaved))

instance [DecidableEq β] (s : RegistrySaving β) : DecidablePred s.CloseSafe
  | .operate call =>
      inferInstanceAs (Decidable
        (call.saves s.registry = true → ∀ saver ∈ s.savers, ¬saver.Closing))
  | .callClose => inferInstanceAs (Decidable (s.unscheduled = 0))
  | .flag position => by
      dsimp only [CloseSafe]
      match s.savers[position]? with
      | some ⟨true, .called⟩ => dsimp only; infer_instance
      | none | some ⟨false, _⟩ | some ⟨true, .armed⟩ | some ⟨true, .stopped⟩
      | some ⟨true, .flagged⟩ | some ⟨true, .saving _⟩
      | some ⟨true, .returned _⟩ => exact .isTrue trivial
  | .lock _ _ => inferInstanceAs (Decidable s.NoneSaving)
  | .scheduleSave | .fire _ | .write _ _ => .isTrue trivial

theorem CloseSafe.savesApart {s : RegistrySaving β} {action : SavingAction}
    (hsafe : s.CloseSafe action) : s.SavesApart action := by
  cases action with
  | lock position order => exact hsafe
  | _ => trivial

def OnDisk (codec : PeersCodec β) (s : RegistrySaving β) : Prop :=
  Holds s.registry (loadPeers codec s.disk)

/-- Nothing is left to write, and the last save went well. -/
structure Settled (s : RegistrySaving β) : Prop where
  clean : s.dirty = false
  scheduled : s.unscheduled = 0
  saved : ¬s.AnyUnsaved
  lastSaved : s.lastSaved = true

structure Kept (codec : PeersCodec β) (s : RegistrySaving β) : Prop where
  keyed : s.registry.Keyed
  alone : WritesAlone Saver.writer? s.savers s.disk
  snapshots : ∀ ⦃position : ℕ⦄ ⦃saver : Saver β⦄ ⦃writer : Writer β⦄,
    s.savers[position]? = some saver → saver.stage = .saving writer →
      (∀ ok, writer.stage ≠ .done ok) ∧
        ∃ order, s.registry.Lists order ∧ writer.data = codec.marshal order
  settled : s.Settled → s.OnDisk codec
  quiet : ∀ saver ∈ s.savers, saver.Closing → s.unscheduled = 0

theorem stopTimer_unsaved (s : RegistrySaving β) :
    (∃ saver ∈ s.stopTimer, saver.Unsaved) ↔ s.AnyUnsaved := by
  unfold stopTimer AnyUnsaved
  split
  · exact .rfl
  · split
    next harmed =>
      exact exists_mem_set_iff harmed (by simp [Saver.Unsaved, Saver.writer?])
    · exact .rfl

theorem stopTimer_called {s : RegistrySaving β} {position : ℕ}
    {isClose : Bool} (hcalled : s.savers[position]? = some ⟨isClose, .called⟩) :
    s.stopTimer[position]? = some ⟨isClose, .called⟩ := by
  unfold stopTimer
  split
  · exact hcalled
  next timer _ =>
    split
    next harmed =>
      have hother : timer ≠ position := by
        intro hsame
        subst hsame
        rw [hcalled] at harmed
        cases harmed
      rw [List.getElem?_set_ne hother]
      exact hcalled
    · exact hcalled

/-- The savers after `Close`, or a callback, has dealt with the timer. -/
theorem afterStop_facts {s : RegistrySaving β} {position : ℕ} {isClose : Bool}
    (hcalled : s.savers[position]? = some ⟨isClose, .called⟩) :
    let savers := if isClose then s.stopTimer else s.savers
    savers[position]? = some ⟨isClose, .called⟩ ∧
      ((∃ saver ∈ savers, saver.Unsaved) ↔ s.AnyUnsaved) := by
  dsimp only
  split
  · exact ⟨stopTimer_called hcalled, s.stopTimer_unsaved⟩
  · exact ⟨hcalled, .rfl⟩

variable {codec : PeersCodec β}

/-- A step that touches neither peers, mark nor file, and after which the same
savers have still to write. -/
theorem Kept.settled_of_same {s s' : RegistrySaving β} (hkept : s.Kept codec)
    (hregistry : s'.registry = s.registry) (hdisk : s'.disk = s.disk)
    (hdirty : s'.dirty = s.dirty) (hscheduled : s'.unscheduled = s.unscheduled)
    (hlast : s'.lastSaved = s.lastSaved)
    (hunsaved : s'.AnyUnsaved ↔ s.AnyUnsaved) (hsettled : s'.Settled) :
    s'.OnDisk codec := by
  rcases hsettled with ⟨hclean, hzero, hsaved, hok⟩
  rw [hdirty] at hclean
  rw [hscheduled] at hzero
  rw [hunsaved] at hsaved
  rw [hlast] at hok
  unfold OnDisk
  rw [hregistry, hdisk]
  exact hkept.settled ⟨hclean, hzero, hsaved, hok⟩

/-- What the file loads as stands under its own IDs, without a flag. -/
theorem lookup_loadPeers {disk : Directory β} {id : Bytes} {peer : Peer}
    (hlookup : (loadPeers codec disk).lookup id = some peer) :
    peer.id = id ∧ peer.persisted = peer := by
  unfold loadPeers at hlookup
  cases hpeers : disk.read.bind codec.unmarshal with
  | none => simp [hpeers] at hlookup
  | some peers =>
      obtain ⟨content, -, hcontent⟩ := Option.bind_eq_some_iff.mp hpeers
      rw [hpeers, Option.map_some, Option.getD_some] at hlookup
      exact ⟨key_of_lookup_tabulate hlookup,
        codec.persisted_of_unmarshal content peers hcontent peer
          (mem_of_lookup_tabulate hlookup)⟩

theorem Initial.kept {s : RegistrySaving β} (hinitial : Initial codec s) :
    s.Kept codec := by
  rcases hinitial with ⟨registry, disk, htidy, hloaded, rfl⟩
  refine ⟨?_, ⟨htidy, ?_, ?_⟩, ?_, ?_, ?_⟩
  · intro id peer hpeer
    rw [getPeer, hloaded] at hpeer
    exact (lookup_loadPeers hpeer).1
  · intro n saver writer hsaver
    cases hsaver
  · intro n m saver saver' hsaver
    cases hsaver
  · intro position saver writer hsaver
    cases hsaver
  · intro _ id
    dsimp only
    rw [getPeer, hloaded]
    cases hlookup : (loadPeers codec disk).lookup id with
    | none => rfl
    | some peer => rw [Option.map_some, (lookup_loadPeers hlookup).2]
  · intro saver hmem
    cases hmem

variable [Inhabited β]

theorem Kept.advances {s : RegistrySaving β} (hkept : s.Kept codec)
    {position : ℕ} {isClose : Bool} {writer : Writer β}
    (hsaving : s.savers[position]? = some ⟨isClose, .saving writer⟩)
    (event : WriterEvent) :
    writer.AdvancesAlone s.disk (writer.advance s.disk event) :=
  Writer.advance_alone hkept.alone.tidy (hkept.alone.owns hsaving rfl) event

theorem Kept.next_snapshots {s : RegistrySaving β} (hkept : s.Kept codec)
    {action : SavingAction} (henabled : s.Enabled action) {position : ℕ}
    {saver : Saver β} {writer : Writer β}
    (hsaver : (s.next codec action).savers[position]? = some saver)
    (hstage : saver.stage = .saving writer) :
    (∀ ok, writer.stage ≠ .done ok) ∧
      ∃ order, (s.next codec action).registry.Lists order ∧
        writer.data = codec.marshal order := by
  by_cases hcall : ∃ call, action = .operate call
  · rcases hcall with ⟨call, rfl⟩
    have hnone := henabled saver (List.mem_of_getElem? hsaver)
    simp [Saver.writer?, hstage] at hnone
  · push Not at hcall
    rw [(s.next_registry hcall).1]
    cases next_savers hsaver with
    | kept hold => exact hkept.snapshots hold hstage
    | timer hnew =>
        rw [hnew] at hstage
        cases hstage
    | close haction hnew =>
        rw [hnew] at hstage
        cases hstage
    | moved hold hmoves =>
        rw [hstage] at hmoves
        cases hmoves with
        | locked => exact ⟨by simp, _, henabled, rfl⟩
        | wrote hbusy =>
            rw [(hkept.advances hold _).data]
            exact ⟨hbusy, (hkept.snapshots hold rfl).2⟩

theorem Kept.next_quiet {s : RegistrySaving β} (hkept : s.Kept codec)
    {action : SavingAction} (hsafe : s.CloseSafe action) {saver : Saver β}
    (hmem : saver ∈ (s.next codec action).savers) (hclosing : saver.Closing) :
    (s.next codec action).unscheduled = 0 := by
  by_cases hcall : ∃ call, action = .operate call
  · rcases hcall with ⟨call, rfl⟩
    have hsilent : call.saves s.registry = false := by
      by_contra hsaves
      rw [Bool.not_eq_false] at hsaves
      exact hsafe hsaves saver hmem hclosing
    have hzero := hkept.quiet saver hmem hclosing
    simp [next, operate, hsilent, hzero]
  · push Not at hcall
    have hle : (s.next codec action).unscheduled ≤ s.unscheduled :=
      (s.next_registry hcall).2.2
    have hzero : s.unscheduled = 0 := by
      rcases List.getElem?_of_mem hmem with ⟨position, hsaver⟩
      cases next_savers hsaver with
      | kept hold => exact hkept.quiet saver (List.mem_of_getElem? hold) hclosing
      | timer hnew =>
          rw [hnew] at hclosing
          exact absurd hclosing.1 Bool.false_ne_true
      | close haction hnew =>
          subst haction
          exact hsafe
      | moved hold hmoves =>
          apply hkept.quiet _ (List.mem_of_getElem? hold)
          refine ⟨hclosing.1, ?_⟩
          intro ok hreturned
          dsimp only at hreturned
          rw [hreturned] at hmoves
          cases hmoves
    omega

/-- A save that ends well leaves the peers on disk. -/
theorem Kept.onDisk_of_written {s : RegistrySaving β} (hkept : s.Kept codec)
    {position : ℕ} {isClose : Bool} {writer : Writer β}
    (hsaving : s.savers[position]? = some ⟨isClose, .saving writer⟩)
    {event : WriterEvent}
    (hdone : (writer.advance s.disk event).2.stage = .done true) :
    Holds s.registry (loadPeers codec (writer.advance s.disk event).1) := by
  rcases hkept.snapshots hsaving rfl with ⟨hbusy, order, hlists, hdata⟩
  have hread := (hkept.advances hsaving event).written hdone (hbusy true)
  rw [hdata] at hread
  exact holds_loadPeers hkept.keyed hlists hread

theorem Kept.next_settled {s : RegistrySaving β} (hkept : s.Kept codec)
    (action : SavingAction) :
    (s.next codec action).Settled → (s.next codec action).OnDisk codec := by
  have heffect : Effect codec s action _ := s.next_effect action
  generalize s.next codec action = s' at heffect ⊢
  cases heffect with
  | nothing => exact hkept.settled
  | @operated call =>
      intro hsettled
      have hzero := hsettled.scheduled
      simp only [operate, Nat.add_eq_zero_iff] at hzero
      have hsilent : call.saves s.registry = false := by simpa using hzero.2
      have hbefore := hkept.settled
        ⟨hsettled.clean, hzero.1, hsettled.saved, hsettled.lastSaved⟩
      intro id
      exact (hbefore id).trans (RegistryCall.persisted_apply hsilent id).symm
  | dirtied | scheduled =>
      intro hsettled
      cases hsettled.clean
  | fired _ harmed =>
      refine hkept.settled_of_same ?_ ?_ ?_ ?_ ?_ ?_
      iterate 5 rfl
      exact exists_mem_set_iff harmed (by simp [Saver.Unsaved, Saver.writer?])
  | closeCalled =>
      refine hkept.settled_of_same ?_ ?_ ?_ ?_ ?_ ?_
      iterate 5 rfl
      exact exists_mem_append_iff (by simp [Saver.Unsaved, Saver.writer?])
  | flagged _ hcalled =>
      rcases afterStop_facts hcalled with ⟨hsaver, hunsaved⟩
      cases hdirty : s.dirty with
      | true =>
          intro hsettled
          refine absurd ⟨_, List.mem_set ?_ _, .inl ?_⟩ hsettled.saved
          · exact (List.getElem?_eq_some_iff.mp hsaver).1
          · rfl
      | false =>
          refine hkept.settled_of_same ?_ ?_ ?_ ?_ ?_ ?_
          iterate 2 rfl
          · exact hdirty.symm
          iterate 2 rfl
          · refine Iff.trans (exists_mem_set_iff hsaver ?_) hunsaved
            simp [Saver.Unsaved, Saver.writer?]
  | locked _ hflagged =>
      intro hsettled
      refine absurd ⟨_, List.mem_set ?_ _, .inr ?_⟩ hsettled.saved
      · exact (List.getElem?_eq_some_iff.mp hflagged).1
      · simp [Saver.writer?]
  | @wrote _ _ _ _ _ hsaving =>
      intro hsettled
      refine absurd ⟨_, List.mem_set ?_ _, .inr ?_⟩ hsettled.saved
      · exact (List.getElem?_eq_some_iff.mp hsaving).1
      · simp [Saver.writer?]
  | @ended _ _ _ ok _ _ hsaving hdone =>
      intro hsettled
      have hok : ok = true := hsettled.lastSaved
      subst hok
      exact hkept.onDisk_of_written hsaving hdone

theorem Kept.next {s : RegistrySaving β} (hkept : s.Kept codec)
    {action : SavingAction} (henabled : s.Enabled action)
    (hsafe : s.CloseSafe action) : (s.next codec action).Kept codec := by
  constructor
  · by_cases hcall : ∃ call, action = .operate call
    · rcases hcall with ⟨call, rfl⟩
      exact call.apply_keyed hkept.keyed
    · push Not at hcall
      rw [(s.next_registry hcall).1]
      exact hkept.keyed
  · exact next_alone hkept.alone hsafe.savesApart
  · intro position saver writer hsaver hstage
    exact hkept.next_snapshots henabled hsaver hstage
  · exact hkept.next_settled action
  · intro saver hmem hclosing
    exact hkept.next_quiet hsafe hmem hclosing

/-! ### Every run -/

/-- In every run of such steps, when `Close` returns with success, a new
registry would load exactly the peers in memory. -/
theorem close_saves_peers (codec : PeersCodec β) {s : RegistrySaving β}
    (hrun : (machine codec).Run CloseSafe s) {action : SavingAction}
    (henabled : s.Enabled action) (hsafe : s.CloseSafe action) {close : ℕ}
    (hbefore : s.savers[close]? ≠ some ⟨true, .returned true⟩)
    (hafter : (s.next codec action).savers[close]? =
      some ⟨true, .returned true⟩) :
    (s.next codec action).OnDisk codec := by
  have hkept : s.Kept codec := by
    apply hrun.invariant
    · intro start hinitial
      exact hinitial.kept
    · intro before action _ hbefore henabled hsafe
      exact hbefore.next henabled hsafe
  cases next_savers hafter with
  | kept hold => exact absurd hold hbefore
  | timer hnew => cases hnew
  | close haction hnew => cases hnew
  | moved hold hmoves =>
      cases hmoves with
      | clean hdirty =>
          simp only [CloseSafe, hold] at hsafe
          have hquiet := hkept.quiet _ (List.mem_of_getElem? hold)
            ⟨rfl, by simp⟩
          have hlast := hsafe.2.resolve_left (by simp [hdirty])
          have hdisk := hkept.settled ⟨hdirty, hquiet, hsafe.1, hlast⟩
          simp only [next, flag, hold]
          exact hdisk
      | ended hdone =>
          simp only [next, write, hold, hdone]
          exact hkept.onDisk_of_written hold hdone

/-! ### Sample runs -/

/-- The peer is saved by `Close`, which finds the mark set. -/
def sampleFlush : List SavingAction :=
  [.operate (.addPeer 1 (samplePeer 1)), .scheduleSave, .callClose, .flag 1,
    .lock 1 [samplePeer 1], .write 1 (.proceed 0), .write 1 (.proceed 1)]

theorem close_saves_peers_flush :
    let s := (machine samplePeersCodec).replay {} sampleFlush
    s.registry.getPeer [1] = some (samplePeer 1) ∧
      (s.next samplePeersCodec (.write 1 (.proceed 0))).OnDisk
        samplePeersCodec := by
  have hreplays : (machine samplePeersCodec).Replays CloseSafe {}
      sampleFlush := by decide
  have hafter : (((machine samplePeersCodec).replay {} sampleFlush).next
      samplePeersCodec (.write 1 (.proceed 0))).savers[1]? =
      some ⟨true, .returned true⟩ := by decide
  refine ⟨by decide, ?_⟩
  exact close_saves_peers samplePeersCodec
    (Machine.Run.replay (.start sample_initial) hreplays) trivial trivial
    (by decide) hafter

/-- The callback clears the mark and fails to write; `Close` finds the mark
clear. -/
def sampleLost : List SavingAction :=
  sampleAdded ++ [.lock 0 [samplePeer 1], .write 0 (.fail false), .callClose]

theorem close_loses_failed_save :
    ∃ s, (machine samplePeersCodec).Reachable s ∧ s.unscheduled = 0 ∧
      s.savers[1]? = some ⟨true, .called⟩ ∧
      (s.next samplePeersCodec (.flag 1)).savers[1]? =
        some ⟨true, .returned true⟩ ∧
      ¬(s.next samplePeersCodec (.flag 1)).OnDisk samplePeersCodec := by
  have hreplays : (machine samplePeersCodec).Replays (fun _ _ => True) {}
      sampleLost := by decide
  refine ⟨_, Machine.Run.replay (.start sample_initial) hreplays, by decide,
    by decide, by decide, ?_⟩
  intro hdisk
  have hpeer := hdisk [1]
  revert hpeer
  decide

end RegistrySaving

end GoP2P.Node
