import GoP2P.AtomicWrite
import GoP2P.PeerOperations
import GoP2P.Runs
import GoP2P.Tables

/-!
# Debounced saving of the registry

A method that changes the peers marks the registry dirty after it has released
the lock on them, and arms a timer unless one is running.  The timer's callback
and `Close` clear the mark first and write the peers afterwards, under a read
lock, which shuts out changes of the peers but not other writers.  What the
file is made of is left open: `β` is the type of its elements and the codec
says how peers are written.
-/

namespace GoP2P.Node

/-- The record as the file keeps it: `Connected` has no JSON form. -/
def Peer.persisted (peer : Peer) : Peer := { peer with connected := false }

instance : Inhabited Peer := ⟨{}⟩

structure PeersCodec (β : Type*) where
  marshal : List Peer → List β
  unmarshal : List β → Option (List Peer)
  roundTrip : ∀ peers,
    unmarshal (marshal peers) = some (peers.map Peer.persisted)
  persisted_of_unmarshal : ∀ content peers, unmarshal content = some peers →
    ∀ peer ∈ peers, peer.persisted = peer

/-- The method goes on to `save` when it has released the lock. -/
def RegistryCall.saves (r : PeerRegistry) (call : RegistryCall) : Bool :=
  match call with
  | .addPeer _ _ | .updatePeer _ | .removePeer _ | .updateMetrics _ _ _ _ _
  | .updateScore _ _ =>
      match call.run r with
      | .returned _ => true
      | _ => false
  | .setConnected _ id connected => connected && (r.peers.lookup id).isSome
  | .markSeen _ id | .recordSuccess _ id | .recordFailure _ id
  | .recordTimeout _ id => (r.peers.lookup id).isSome
  | .setAuthMode _ | .allowPublicKey _ | .revokePublicKey _ => false

/-- The peers in some order of the map. -/
def PeerRegistry.Lists (r : PeerRegistry) (order : List Peer) : Prop :=
  (order : Multiset Peer) = r.peers.entries.map Sigma.snd

instance (r : PeerRegistry) (order : List Peer) : Decidable (r.Lists order) :=
  inferInstanceAs (Decidable (_ = _))

/-- The peers of a new registry: none if the file is absent or unreadable. -/
def loadPeers {β : Type*} (codec : PeersCodec β) (disk : Directory β) :
    Finmap fun _ : Bytes => Peer :=
  ((disk.read.bind codec.unmarshal).map (tabulate Peer.id)).getD ∅

/-! ### The machine -/

/-- Where a timer with its callback, or a call of `Close`, stands. -/
inductive SaverStage (β : Type*) where
  | armed
  | stopped
  | called
  | flagged
  | saving (writer : Writer β)
  | returned (ok : Bool)
  deriving DecidableEq

structure Saver (β : Type*) where
  isClose : Bool := false
  stage : SaverStage β
  deriving DecidableEq

/-- The saver holds the read lock and is in `saveNow`. -/
def Saver.writer? {β : Type*} (saver : Saver β) : Option (Writer β) :=
  match saver.stage with
  | .saving writer => some writer
  | _ => none

/-- One registry with its savers.  `unscheduled` counts the methods that have
changed the peers and not yet run `scheduleSave`.  `lastSaved`, whether the
last `saveNow` to end was a success, `history`, the states of the registry
so far, and `found`, the file at the start, are ghost. -/
structure RegistrySaving (β : Type*) where
  registry : PeerRegistry := {}
  dirty : Bool := false
  saveTimer : Option ℕ := none
  unscheduled : ℕ := 0
  savers : List (Saver β) := []
  disk : Directory β := {}
  lastSaved : Bool := true
  history : List PeerRegistry := [registry]
  found : Option (List β) := disk.read

inductive SavingAction where
  | operate (call : RegistryCall)
  | scheduleSave
  | fire (timer : ℕ)
  | callClose
  | flag (saver : ℕ)
  | lock (saver : ℕ) (order : List Peer)
  | write (saver : ℕ) (event : WriterEvent)
  deriving DecidableEq

namespace RegistrySaving

variable {β : Type*}

def operate (s : RegistrySaving β) (call : RegistryCall) : RegistrySaving β :=
  let changed := call.apply s.registry
  { s with
    registry := changed
    unscheduled := s.unscheduled + (call.saves s.registry).toNat
    history := changed :: s.history }

def scheduleSave (s : RegistrySaving β) : RegistrySaving β :=
  let s := { s with dirty := true, unscheduled := s.unscheduled - 1 }
  match s.saveTimer with
  | some _ => s
  | none =>
      { s with
        savers := s.savers ++ [{ stage := .armed }]
        saveTimer := some s.savers.length }

/-- `Stop` has no effect on a timer that has fired. -/
def stopTimer (s : RegistrySaving β) : List (Saver β) :=
  match s.saveTimer with
  | none => s.savers
  | some timer =>
      match s.savers[timer]? with
      | some ⟨isClose, .armed⟩ => s.savers.set timer ⟨isClose, .stopped⟩
      | _ => s.savers

/-- The section under `saveMu`, of the callback or of `Close`. -/
def flag (s : RegistrySaving β) (position : ℕ) : RegistrySaving β :=
  match s.savers[position]? with
  | some ⟨isClose, .called⟩ =>
      let savers := if isClose then s.stopTimer else s.savers
      let stage := if s.dirty then .flagged else .returned true
      { s with
        dirty := false
        saveTimer := none
        savers := savers.set position ⟨isClose, stage⟩ }
  | _ => s

def lock (codec : PeersCodec β) (s : RegistrySaving β) (position : ℕ)
    (order : List Peer) : RegistrySaving β :=
  match s.savers[position]? with
  | some ⟨isClose, .flagged⟩ =>
      let writer := { data := codec.marshal order }
      { s with savers := s.savers.set position ⟨isClose, .saving writer⟩ }
  | _ => s

/-- One step of `saveNow`; the lock is released when it is done. -/
def write [Inhabited β] (s : RegistrySaving β) (position : ℕ)
    (event : WriterEvent) : RegistrySaving β :=
  match s.savers[position]? with
  | some ⟨isClose, .saving writer⟩ =>
      let result := writer.advance s.disk event
      match result.2.stage with
      | .done ok =>
          { s with
            disk := result.1
            savers := s.savers.set position ⟨isClose, .returned ok⟩
            lastSaved := ok }
      | _ =>
          { s with
            disk := result.1
            savers := s.savers.set position ⟨isClose, .saving result.2⟩ }
  | _ => s

def next [Inhabited β] (codec : PeersCodec β) (s : RegistrySaving β) :
    SavingAction → RegistrySaving β
  | .operate call => s.operate call
  | .scheduleSave => s.scheduleSave
  | .fire timer =>
      match s.savers[timer]? with
      | some ⟨isClose, .armed⟩ =>
          { s with savers := s.savers.set timer ⟨isClose, .called⟩ }
      | _ => s
  | .callClose =>
      { s with savers := s.savers ++ [{ isClose := true, stage := .called }] }
  | .flag saver => s.flag saver
  | .lock saver order => s.lock codec saver order
  | .write saver event => s.write saver event

/-- Nobody is in `saveNow`. -/
def NoneSaving (s : RegistrySaving β) : Prop :=
  ∀ saver ∈ s.savers, saver.writer? = none

/-- The peers do not change under the read lock. -/
def Enabled (s : RegistrySaving β) : SavingAction → Prop
  | .operate _ => s.NoneSaving
  | .scheduleSave => 0 < s.unscheduled
  | .lock _ order => s.registry.Lists order
  | _ => True

/-- A registry starts with the peers that it loads from its file; a temporary
file may be left from before. -/
def Initial (codec : PeersCodec β) (s : RegistrySaving β) : Prop :=
  ∃ registry disk, disk.Tidy ∧ registry.peers = loadPeers codec disk ∧
    s = { registry := registry, disk := disk }

def machine [Inhabited β] (codec : PeersCodec β) :
    Machine (RegistrySaving β) SavingAction where
  initial := Initial codec
  enabled := Enabled
  next := next codec

instance [DecidableEq β] (s : RegistrySaving β) : Decidable s.NoneSaving :=
  inferInstanceAs (Decidable (∀ saver ∈ s.savers, saver.writer? = none))

instance [DecidableEq β] (s : RegistrySaving β) (action : SavingAction) :
    Decidable (s.Enabled action) := by
  unfold Enabled
  split <;> infer_instance

instance [Inhabited β] [DecidableEq β] (codec : PeersCodec β)
    (s : RegistrySaving β) (action : SavingAction) :
    Decidable ((machine codec).enabled s action) :=
  inferInstanceAs (Decidable (s.Enabled action))

/-! ### What a step does to the file -/

/-- Two executions of `saveNow` do not overlap. -/
def SavesApart (s : RegistrySaving β) : SavingAction → Prop
  | .lock _ _ => s.NoneSaving
  | _ => True

instance [DecidableEq β] (s : RegistrySaving β) (action : SavingAction) :
    Decidable (s.SavesApart action) := by
  unfold SavesApart
  split <;> infer_instance

theorem stopTimer_alone {s : RegistrySaving β} {disk : Directory β}
    (halone : WritesAlone Saver.writer? s.savers disk) :
    WritesAlone Saver.writer? s.stopTimer disk := by
  unfold stopTimer
  split
  · exact halone
  · split
    · exact halone.set_none rfl _
    · exact halone

variable [Inhabited β] {codec : PeersCodec β}

/-- What a step makes of the state. -/
inductive Effect (codec : PeersCodec β) (s : RegistrySaving β)
    (action : SavingAction) : RegistrySaving β → Prop where
  | nothing : Effect codec s action s
  | operated {call : RegistryCall} (haction : action = .operate call) :
      Effect codec s action (s.operate call)
  | dirtied {timer : ℕ} (htimer : s.saveTimer = some timer) :
      Effect codec s action
        { s with dirty := true, unscheduled := s.unscheduled - 1 }
  | scheduled (htimer : s.saveTimer = none) :
      Effect codec s action
        { s with
          dirty := true
          unscheduled := s.unscheduled - 1
          savers := s.savers ++ [{ stage := .armed }]
          saveTimer := some s.savers.length }
  | fired {timer : ℕ} {isClose : Bool} (haction : action = .fire timer)
      (hsaver : s.savers[timer]? = some ⟨isClose, .armed⟩) :
      Effect codec s action
        { s with savers := s.savers.set timer ⟨isClose, .called⟩ }
  | closeCalled (haction : action = .callClose) :
      Effect codec s action
        { s with savers := s.savers ++ [{ isClose := true, stage := .called }] }
  | flagged {position : ℕ} {isClose : Bool} (haction : action = .flag position)
      (hsaver : s.savers[position]? = some ⟨isClose, .called⟩) :
      Effect codec s action
        { s with
          dirty := false
          saveTimer := none
          savers := (if isClose then s.stopTimer else s.savers).set position
            ⟨isClose, if s.dirty then .flagged else .returned true⟩ }
  | locked {position : ℕ} {order : List Peer} {isClose : Bool}
      (haction : action = .lock position order)
      (hsaver : s.savers[position]? = some ⟨isClose, .flagged⟩) :
      Effect codec s action
        { s with
          savers := s.savers.set position
            ⟨isClose, .saving { data := codec.marshal order }⟩ }
  | wrote {position : ℕ} {event : WriterEvent} {isClose : Bool}
      {writer : Writer β} (haction : action = .write position event)
      (hsaver : s.savers[position]? = some ⟨isClose, .saving writer⟩)
      (hbusy : ∀ ok, (writer.advance s.disk event).2.stage ≠ .done ok) :
      Effect codec s action
        { s with
          disk := (writer.advance s.disk event).1
          savers := s.savers.set position
            ⟨isClose, .saving (writer.advance s.disk event).2⟩ }
  | ended {position : ℕ} {event : WriterEvent} {isClose ok : Bool}
      {writer : Writer β} (haction : action = .write position event)
      (hsaver : s.savers[position]? = some ⟨isClose, .saving writer⟩)
      (hdone : (writer.advance s.disk event).2.stage = .done ok) :
      Effect codec s action
        { s with
          disk := (writer.advance s.disk event).1
          savers := s.savers.set position ⟨isClose, .returned ok⟩
          lastSaved := ok }

theorem next_effect (s : RegistrySaving β) (action : SavingAction) :
    Effect codec s action (s.next codec action) := by
  cases action with
  | operate call => exact .operated rfl
  | scheduleSave =>
      unfold next scheduleSave
      dsimp only
      split
      next timer htimer => exact .dirtied htimer
      next htimer => exact .scheduled htimer
  | fire timer =>
      unfold next
      dsimp only
      split
      next isClose hsaver => exact .fired rfl hsaver
      · exact .nothing
  | callClose => exact .closeCalled rfl
  | flag position =>
      unfold next flag
      dsimp only
      split
      next isClose hsaver => exact .flagged rfl hsaver
      · exact .nothing
  | lock position order =>
      unfold next lock
      dsimp only
      split
      next isClose hsaver => exact .locked rfl hsaver
      · exact .nothing
  | write position event =>
      unfold next write
      dsimp only
      split
      next isClose writer hsaver =>
        split
        next ok hdone => exact .ended rfl hsaver hdone
        next hbusy => exact .wrote rfl hsaver hbusy
      · exact .nothing

theorem next_alone {s : RegistrySaving β}
    (halone : WritesAlone Saver.writer? s.savers s.disk)
    {action : SavingAction} (hapart : s.SavesApart action) :
    WritesAlone Saver.writer? (s.next codec action).savers
      (s.next codec action).disk := by
  have heffect : Effect codec s action _ := s.next_effect action
  generalize s.next codec action = s' at heffect ⊢
  cases heffect with
  | nothing | operated | dirtied => exact halone
  | scheduled => exact halone.concat rfl
  | fired => exact halone.set_none rfl _
  | closeCalled => exact halone.concat rfl
  | @flagged _ isClose =>
      have hstage : (⟨isClose, if s.dirty then .flagged
          else .returned true⟩ : Saver β).writer? = none := by
        cases s.dirty <;> rfl
      cases isClose with
      | true => exact (stopTimer_alone halone).set_none hstage _
      | false => exact halone.set_none hstage _
  | locked haction =>
      subst haction
      exact halone.start hapart rfl _
  | wrote _ hsaver =>
      exact halone.advance hsaver rfl _ (by simp [Saver.writer?])
  | ended _ hsaver =>
      exact halone.advance hsaver rfl _ (by simp [Saver.writer?])

/-- The moves of a saver at a position, by the action that makes them. -/
inductive SaverMoves (codec : PeersCodec β) (s : RegistrySaving β)
    (position : ℕ) : SavingAction → SaverStage β → SaverStage β → Prop where
  | fired : SaverMoves codec s position (.fire position) .armed .called
  | stopped {close : ℕ} :
      SaverMoves codec s position (.flag close) .armed .stopped
  | flagged (hdirty : s.dirty = true) :
      SaverMoves codec s position (.flag position) .called .flagged
  | clean (hdirty : s.dirty = false) :
      SaverMoves codec s position (.flag position) .called (.returned true)
  | locked {order : List Peer} :
      SaverMoves codec s position (.lock position order) .flagged
        (.saving { data := codec.marshal order })
  | wrote {writer : Writer β} {event : WriterEvent}
      (hbusy : ∀ ok, (writer.advance s.disk event).2.stage ≠ .done ok) :
      SaverMoves codec s position (.write position event) (.saving writer)
        (.saving (writer.advance s.disk event).2)
  | ended {writer : Writer β} {event : WriterEvent} {ok : Bool}
      (hdone : (writer.advance s.disk event).2.stage = .done ok) :
      SaverMoves codec s position (.write position event) (.saving writer)
        (.returned ok)

/-- Where a saver of the next state comes from. -/
inductive SaverOrigin (codec : PeersCodec β) (s : RegistrySaving β)
    (action : SavingAction) (position : ℕ) (saver : Saver β) : Prop where
  | kept (hold : s.savers[position]? = some saver)
  | timer (hsaver : saver = { stage := .armed })
  | close (haction : action = .callClose)
      (hsaver : saver = { isClose := true, stage := .called })
  | moved {stage : SaverStage β}
      (hold : s.savers[position]? = some ⟨saver.isClose, stage⟩)
      (hmoves : SaverMoves codec s position action stage saver.stage)

theorem origin_of_set {s : RegistrySaving β} {action : SavingAction}
    {position changed : ℕ} {isClose : Bool} {stage stage' : SaverStage β}
    {saver : Saver β} (hold : s.savers[changed]? = some ⟨isClose, stage⟩)
    (hmoves : SaverMoves codec s changed action stage stage')
    (hsaver : (s.savers.set changed ⟨isClose, stage'⟩)[position]? =
      some saver) :
    SaverOrigin codec s action position saver := by
  rcases getElem?_set_cases hsaver with ⟨rfl, rfl⟩ | ⟨-, hkept⟩
  · exact .moved hold hmoves
  · exact .kept hkept

theorem origin_of_stopTimer {s : RegistrySaving β} {close position : ℕ}
    {saver : Saver β} (hsaver : s.stopTimer[position]? = some saver) :
    SaverOrigin codec s (.flag close) position saver := by
  unfold stopTimer at hsaver
  split at hsaver
  · exact .kept hsaver
  · split at hsaver
    next harmed => exact origin_of_set harmed .stopped hsaver
    · exact .kept hsaver

theorem next_savers {s : RegistrySaving β} {action : SavingAction}
    {position : ℕ} {saver : Saver β}
    (hsaver : (s.next codec action).savers[position]? = some saver) :
    SaverOrigin codec s action position saver := by
  have heffect : Effect codec s action _ := s.next_effect action
  generalize s.next codec action = s' at heffect hsaver
  cases heffect with
  | nothing | operated | dirtied => exact .kept hsaver
  | scheduled =>
      rcases getElem?_concat_cases hsaver with hkept | ⟨-, rfl⟩
      · exact .kept hkept
      · exact .timer rfl
  | fired haction harmed =>
      subst haction
      exact origin_of_set harmed .fired hsaver
  | closeCalled haction =>
      rcases getElem?_concat_cases hsaver with hkept | ⟨-, rfl⟩
      · exact .kept hkept
      · exact .close haction rfl
  | flagged haction hcalled =>
      subst haction
      rcases getElem?_set_cases hsaver with ⟨rfl, rfl⟩ | ⟨-, hother⟩
      · refine .moved hcalled ?_
        dsimp only
        cases hdirty : s.dirty with
        | true => exact .flagged hdirty
        | false => exact .clean hdirty
      · split at hother
        · exact origin_of_stopTimer hother
        · exact .kept hother
  | locked haction hflagged =>
      subst haction
      exact origin_of_set hflagged .locked hsaver
  | wrote haction hsaving hbusy =>
      subst haction
      exact origin_of_set hsaving (.wrote hbusy) hsaver
  | ended haction hsaving hdone =>
      subst haction
      exact origin_of_set hsaving (.ended hdone) hsaver

/-- Only the registry's methods change the registry and have a save to
schedule. -/
theorem next_registry (s : RegistrySaving β) {action : SavingAction}
    (haction : ∀ call, action ≠ .operate call) :
    (s.next codec action).registry = s.registry ∧
      (s.next codec action).history = s.history ∧
      (s.next codec action).unscheduled ≤ s.unscheduled := by
  have heffect : Effect codec s action _ := s.next_effect action
  generalize s.next codec action = s' at heffect ⊢
  cases heffect with
  | @operated call hcall => exact absurd hcall (haction call)
  | dirtied | scheduled => exact ⟨rfl, rfl, Nat.sub_le _ _⟩
  | _ => exact ⟨rfl, rfl, le_refl _⟩

/-- What a step does to the disk. -/
theorem next_disk (s : RegistrySaving β) (action : SavingAction) :
    (s.next codec action).disk = s.disk ∨
      ∃ position event isClose writer,
        action = .write position event ∧
        s.savers[position]? = some ⟨isClose, .saving writer⟩ ∧
        (s.next codec action).disk = (writer.advance s.disk event).1 := by
  have heffect : Effect codec s action _ := s.next_effect action
  generalize s.next codec action = s' at heffect ⊢
  cases heffect with
  | wrote haction hsaving => exact .inr ⟨_, _, _, _, haction, hsaving, rfl⟩
  | ended haction hsaving => exact .inr ⟨_, _, _, _, haction, hsaving, rfl⟩
  | _ => exact .inl rfl

/-! ### Samples -/

/-- A file of records. -/
def samplePeersCodec : PeersCodec Peer where
  marshal := id
  unmarshal content := some (content.map Peer.persisted)
  roundTrip _ := rfl
  persisted_of_unmarshal _ _ hpeers peer hpeer := by
    cases hpeers
    obtain ⟨kept, -, rfl⟩ := List.mem_map.mp hpeer
    rfl

def samplePeer (name : UInt8) : Peer where
  id := [name]
  addedAt := 1
  score := 50

theorem sample_initial : Initial samplePeersCodec {} :=
  ⟨{}, {}, Directory.tidy_empty, rfl, rfl⟩

/-- A peer is added, and the callback of the first timer clears the mark. -/
def sampleAdded : List SavingAction :=
  [.operate (.addPeer 1 (samplePeer 1)), .scheduleSave, .fire 0, .flag 0]

end RegistrySaving

end GoP2P.Node
