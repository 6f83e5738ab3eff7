import GoP2P.Runs
import GoP2P.Processes
import GoP2P.PeerRecords

/-!
# Read, compute, write back

Announcing a peer and pinging it both read its record in one critical section
and write in another, and what they write contains values that they read: the
announcement keeps a score that the body does not give, the ping keeps the
distance and the hops.  The registry's own methods read and write at once.

An operation takes effect when it writes, or when it reads if it finds nothing
to write.  The metrics of the peer are those of the operations run one after
the other in this order, as long as what an operation read still stands when
it writes.
-/

namespace GoP2P.Node

open PeerRegistry

/-- What peer selection goes by. -/
structure Metrics where
  score : ℚ
  pingMS : ℚ
  hops : ℤ
  geoKM : ℚ
  deriving DecidableEq, Repr

def Peer.metrics (peer : Peer) : Metrics where
  score := peer.score
  pingMS := peer.pingMS
  hops := peer.hops
  geoKM := peer.geoKM

def PeerRegistry.metrics (r : PeerRegistry) (id : Bytes) : Option Metrics :=
  (r.getPeer id).map Peer.metrics

/-! ### The operations -/

/-- An operation on one peer.  `now` is the time that `announcePeer` or
`UpdateMetrics` stamps, `rtt` what `PingPeer` has measured. -/
inductive UpdateOperation where
  | announce (now : Time) (body : Except Unit Peer)
  | ping (now : Time) (rtt : ℚ)
  | direct (call : RegistryCall)

/-- The methods that change the metrics of one peer in place. -/
def RegistryCall.adjusts (id : Bytes) : RegistryCall → Bool
  | .updateMetrics _ target _ _ _ | .updateScore target _
  | .recordSuccess _ target | .recordFailure _ target
  | .recordTimeout _ target => target = id
  | _ => false

/-- What such a method makes of the metrics. -/
def RegistryCall.adjustment (call : RegistryCall) (metrics : Metrics) :
    Metrics :=
  match call with
  | .updateMetrics _ _ pingMS geoKM hops =>
      { metrics with pingMS := pingMS, geoKM := geoKM, hops := hops }
  | .updateScore _ score => { metrics with score := max 0 (min score 100) }
  | .recordSuccess _ _ =>
      { metrics with
        score := min (metrics.score + scoreSuccessIncrement) scoreMaximum }
  | .recordFailure _ _ =>
      { metrics with
        score := max (metrics.score - scoreFailureDecrement) scoreMinimum }
  | .recordTimeout _ _ =>
      { metrics with
        score := max (metrics.score - scoreTimeoutDecrement) scoreMinimum }
  | _ => metrics

namespace UpdateOperation

variable (id : Bytes)

/-- The call that the operation goes on to make, from the record it reads;
none if it returns without one. -/
def prepare (r : PeerRegistry) : UpdateOperation → Option RegistryCall
  | .announce now body =>
      match announceCall r now id body with
      | .ok call => some call
      | .error _ => none
  | .ping now rtt =>
      match r.getPeer id with
      | some peer => some (.updateMetrics now id rtt peer.geoKM peer.hops)
      | none => none
  | .direct call => some call

/-- The operation as an indivisible unit. -/
def perform (r : PeerRegistry) (operation : UpdateOperation) : PeerRegistry :=
  match operation.prepare id r with
  | some call => call.apply r
  | none => r

/-- What the operation is for, on the metrics alone. -/
def meaning : UpdateOperation → Option Metrics → Option Metrics
  | .announce _ (.error _), before => before
  | .announce _ (.ok body), before =>
      if id = [] ∨ (body.id ≠ [] ∧ body.id ≠ id) then
        before
      else
        match before with
        | some metrics =>
            some { body.metrics with
              score := if body.score = 0 then metrics.score else body.score }
        | none =>
            if validatePeerName body.name = .returned () then
              some { body.metrics with
                score := if body.score = 0 then 50 else body.score }
            else
              none
  | .ping _ rtt, before => before.map fun metrics => { metrics with pingMS := rtt }
  | .direct call, before => before.map call.adjustment

end UpdateOperation

/-- Where an operation stands.  `seen` is the record that it read. -/
inductive UpdateStage where
  | started
  | prepared (seen : Option Peer) (call : RegistryCall)
  | returned
  deriving DecidableEq

structure UpdateCall where
  operation : UpdateOperation
  stage : UpdateStage := .started

/-- The operation, once it has returned. -/
def UpdateCall.finished (call : UpdateCall) : Option UpdateOperation :=
  match call.stage with
  | .returned => some call.operation
  | _ => none

/-- The registry and the operations on one peer.  `order` is ghost: the
operations that have taken effect, in that order. -/
structure PeerUpdates where
  registry : PeerRegistry
  calls : List UpdateCall := []
  order : List UpdateOperation := []

inductive UpdateAction where
  | start (operation : UpdateOperation)
  | read (call : ℕ)
  | write (call : ℕ)

namespace PeerUpdates

section

variable (id : Bytes)

def stepRead (s : PeerUpdates) (position : ℕ) : PeerUpdates :=
  match s.calls[position]? with
  | some { operation, stage := .started } =>
      match operation.prepare id s.registry with
      | some call =>
          { s with
            calls := s.calls.set position
              { operation := operation
                stage := .prepared (s.registry.getPeer id) call } }
      | none =>
          { s with
            calls := s.calls.set position
              { operation := operation, stage := .returned }
            order := s.order ++ [operation] }
  | _ => s

def stepWrite (s : PeerUpdates) (position : ℕ) : PeerUpdates :=
  match s.calls[position]? with
  | some { operation, stage := .prepared _ call } =>
      { s with
        registry := call.apply s.registry
        calls := s.calls.set position
          { operation := operation, stage := .returned }
        order := s.order ++ [operation] }
  | _ => s

def next (s : PeerUpdates) : UpdateAction → PeerUpdates
  | .start operation =>
      { s with calls := s.calls ++ [{ operation := operation }] }
  | .read position => s.stepRead id position
  | .write position => s.stepWrite position

/-- A direct call is one that changes the metrics of the peer. -/
def Enabled (_ : PeerUpdates) : UpdateAction → Prop
  | .start (.direct call) => call.adjusts id = true
  | _ => True

instance (s : PeerUpdates) : DecidablePred (s.Enabled id)
  | .start (.direct call) =>
      inferInstanceAs (Decidable (call.adjusts id = true))
  | .start (.announce _ _) | .start (.ping _ _) | .read _ | .write _ =>
      .isTrue trivial

def machine (registry : PeerRegistry) : Machine PeerUpdates UpdateAction where
  initial s := s = { registry := registry }
  enabled := Enabled id
  next := next id

instance (registry : PeerRegistry) (s : PeerUpdates) (action : UpdateAction) :
    Decidable ((machine id registry).enabled s action) :=
  inferInstanceAs (Decidable (s.Enabled id action))

/-- What the operation has read and is about to write still stands: whether
the peer is registered and, where the operation keeps them, its score or its
distance and hops. -/
def StillStands (current seen : Option Peer) : UpdateOperation → Prop
  | .announce _ (.ok body) =>
      current.isSome = seen.isSome ∧
        (body.score = 0 → current.map Peer.score = seen.map Peer.score)
  | .announce _ (.error _) => True
  | .ping _ _ =>
      current.map Peer.geoKM = seen.map Peer.geoKM ∧
        current.map Peer.hops = seen.map Peer.hops
  | .direct _ => True

instance (current seen : Option Peer) :
    DecidablePred (StillStands current seen)
  | .announce _ (.ok body) =>
      inferInstanceAs (Decidable (current.isSome = seen.isSome ∧
        (body.score = 0 → current.map Peer.score = seen.map Peer.score)))
  | .ping _ _ =>
      inferInstanceAs (Decidable (
        current.map Peer.geoKM = seen.map Peer.geoKM ∧
          current.map Peer.hops = seen.map Peer.hops))
  | .announce _ (.error _) | .direct _ => .isTrue trivial

/-- A step that writes finds what its operation read still standing. -/
def WritesCurrent (s : PeerUpdates) : UpdateAction → Prop
  | .write position =>
      match s.calls[position]? with
      | some { operation, stage := .prepared seen _ } =>
          StillStands (s.registry.getPeer id) seen operation
      | _ => True
  | _ => True

instance (s : PeerUpdates) : DecidablePred (s.WritesCurrent id)
  | .write position => by
      dsimp only [WritesCurrent]
      match s.calls[position]? with
      | some { operation, stage := .prepared seen call } =>
          dsimp only
          infer_instance
      | some { operation, stage := .started }
      | some { operation, stage := .returned } | none => exact .isTrue trivial
  | .start _ | .read _ => .isTrue trivial

end

end PeerUpdates

/-! ### What a write makes of the metrics -/

theorem metrics_touchPeer (r : PeerRegistry) (id : Bytes)
    (change : Peer → Peer) :
    (r.touchPeer id change).metrics id =
      (r.getPeer id).map fun peer => (change peer).metrics := by
  rw [PeerRegistry.metrics, getPeer_touchPeer, if_pos rfl, Option.map_map]
  rfl

theorem RegistryCall.metrics_of_adjusts {call : RegistryCall} {id : Bytes}
    (hadjusts : call.adjusts id = true) (r : PeerRegistry) :
    (call.apply r).metrics id = (r.metrics id).map call.adjustment := by
  cases call with
  | updateMetrics | updateScore | recordSuccess | recordFailure
  | recordTimeout =>
      obtain rfl := of_decide_eq_true hadjusts
      rw [apply_eq_touchPeer rfl, metrics_touchPeer, PeerRegistry.metrics,
        Option.map_map]
      rfl
  | addPeer | updatePeer | removePeer | setConnected | markSeen | setAuthMode
  | allowPublicKey | revokePublicKey => cases hadjusts

theorem metrics_insert (r : PeerRegistry) (id : Bytes) (peer : Peer) :
    PeerRegistry.metrics { r with peers := r.peers.insert id peer } id =
      some peer.metrics := by
  rw [PeerRegistry.metrics, getPeer_insert, if_pos rfl]
  rfl

theorem metrics_updatePeer {r : PeerRegistry} {peer : Peer}
    (hknown : (r.getPeer peer.id).isSome) :
    ((RegistryCall.updatePeer peer).apply r).metrics peer.id =
      some peer.metrics := by
  have hupdated : r.updatePeer peer = .returned _ :=
    updatePeer_eq_returned_iff.mpr ⟨hknown, rfl⟩
  simp only [RegistryCall.apply, RegistryCall.run, hupdated]
  exact metrics_insert r peer.id peer

theorem metrics_addPeer {r : PeerRegistry} {peer : Peer} (now : Time)
    (hid : peer.id ≠ []) (hmissing : r.getPeer peer.id = none) :
    ((RegistryCall.addPeer now peer).apply r).metrics peer.id =
      if validatePeerName peer.name = .returned () then
        some (peer.registered now).metrics
      else
        none := by
  split_ifs with hname
  · have hadded : r.addPeer now peer = .returned _ :=
      addPeer_eq_returned_iff.mpr ⟨hid, hname, hmissing, rfl⟩
    simp only [RegistryCall.apply, RegistryCall.run, hadded]
    exact metrics_insert r peer.id _
  · rw [RegistryCall.apply_eq_self, PeerRegistry.metrics, hmissing]
    · rfl
    · intro changed hadded
      exact hname (addPeer_eq_returned_iff.mp hadded).2.1

/-- The record that replaces an existing one when it is announced. -/
def reannouncedPeer (now : Time) (id : Bytes) (body existing : Peer) : Peer :=
  { announcedPeer now id body with
    addedAt := if body.addedAt = 0 then existing.addedAt else body.addedAt
    score := if body.score = 0 then existing.score else body.score }

/-- The call that an announcement makes of the record it finds. -/
def reannounceCall (now : Time) (id : Bytes) (body : Peer) :
    Option Peer → RegistryCall
  | some existing => .updatePeer (reannouncedPeer now id body existing)
  | none => .addPeer now (announcedPeer now id body)

/-- The request names the peer and does not contradict itself. -/
def Announces (id : Bytes) (body : Peer) : Prop :=
  ¬ (id = [] ∨ (body.id ≠ [] ∧ body.id ≠ id))

theorem announceCall_of_announces {id : Bytes} {body : Peer}
    (hannounces : Announces id body) (r : PeerRegistry) (now : Time) :
    announceCall r now id (.ok body) =
      .ok (reannounceCall now id body (r.getPeer id)) := by
  rcases not_or.mp hannounces with ⟨hid, hmatch⟩
  simp only [announceCall, if_neg hid, if_neg hmatch]
  cases r.getPeer id <;> rfl

theorem announceCall_of_not_announces {id : Bytes} {body : Peer}
    (hrefused : ¬ Announces id body) (r : PeerRegistry) (now : Time) :
    ∃ response, announceCall r now id (.ok body) = .error response := by
  rcases not_not.mp hrefused with hid | hmismatch
  · exact ⟨_, by simp only [announceCall, if_pos hid]; rfl⟩
  · by_cases hid : id = []
    · exact ⟨_, by simp only [announceCall, if_pos hid]; rfl⟩
    · exact ⟨_, by simp only [announceCall, if_neg hid, if_pos hmismatch]; rfl⟩

namespace UpdateOperation

variable {id : Bytes}

/-- A direct call is on this peer. -/
def Concerns (id : Bytes) : UpdateOperation → Prop
  | .direct call => call.adjusts id = true
  | _ => True

theorem metrics_of_announce {body : Peer} (hannounces : Announces id body)
    (now : Time) {seen : Option Peer} {r : PeerRegistry}
    (hstands : PeerUpdates.StillStands (r.getPeer id) seen
      (.announce now (.ok body))) :
    ((reannounceCall now id body seen).apply r).metrics id =
      meaning id (.announce now (.ok body)) (r.metrics id) := by
  rcases hstands with ⟨hregistered, hscore⟩
  simp only [meaning, if_neg hannounces]
  cases seen with
  | some existing =>
      rcases Option.isSome_iff_exists.mp hregistered with ⟨current, hcurrent⟩
      have hwritten : ((reannounceCall now id body (some existing)).apply
          r).metrics id = some (reannouncedPeer now id body existing).metrics :=
        metrics_updatePeer hregistered
      have hbefore : r.metrics id = some current.metrics := by
        rw [PeerRegistry.metrics, hcurrent]
        rfl
      rw [hcurrent] at hscore
      rw [hwritten, hbefore]
      by_cases hzero : body.score = 0
      · have hsame : current.score = existing.score := by
          simpa using hscore hzero
        simp [reannouncedPeer, announcedPeer, Peer.metrics, hzero, hsame]
      · simp [reannouncedPeer, announcedPeer, Peer.metrics, hzero]
  | none =>
      have hmissing : r.getPeer id = none := by simpa using hregistered
      have hid : (announcedPeer now id body).id ≠ [] :=
        (not_or.mp hannounces).1
      have hwritten := metrics_addPeer now hid hmissing
      have hbefore : r.metrics id = none := by
        rw [PeerRegistry.metrics, hmissing]
        rfl
      rw [hbefore]
      exact hwritten

/-- Writing what was read has the meaning of the operation, as long as it still
stands. -/
theorem metrics_of_prepare {operation : UpdateOperation}
    (hconcerns : operation.Concerns id) {seenIn r : PeerRegistry}
    {call : RegistryCall} (hcall : operation.prepare id seenIn = some call)
    (hstands : PeerUpdates.StillStands (r.getPeer id) (seenIn.getPeer id)
      operation) :
    (call.apply r).metrics id = operation.meaning id (r.metrics id) := by
  cases operation with
  | announce now body =>
      cases body with
      | error =>
          by_cases hid : id = [] <;> simp [prepare, announceCall, hid] at hcall
      | ok body =>
          by_cases hannounces : Announces id body
          · simp only [prepare, announceCall_of_announces hannounces,
              Option.some.injEq] at hcall
            subst hcall
            exact metrics_of_announce hannounces now hstands
          · rcases announceCall_of_not_announces hannounces seenIn now with
              ⟨response, hrefused⟩
            simp [prepare, hrefused] at hcall
  | ping now rtt =>
      rcases hstands with ⟨hgeo, hhops⟩
      cases hseen : seenIn.getPeer id with
      | none => simp [prepare, hseen] at hcall
      | some peer =>
          simp only [prepare, hseen, Option.some.injEq] at hcall
          subst hcall
          rw [hseen] at hgeo hhops
          rcases Option.map_eq_some_iff.mp hgeo with ⟨current, hcurrent, hgeo⟩
          rw [hcurrent, Option.map_some, Option.map_some,
            Option.some.injEq] at hhops
          have hadjusts : (RegistryCall.updateMetrics now id rtt peer.geoKM
              peer.hops).adjusts id = true := decide_eq_true rfl
          rw [RegistryCall.metrics_of_adjusts hadjusts, PeerRegistry.metrics,
            hcurrent]
          simp [meaning, RegistryCall.adjustment, Peer.metrics, hgeo, hhops]
  | direct call =>
      cases hcall
      exact RegistryCall.metrics_of_adjusts hconcerns r

theorem meaning_of_prepare_none {operation : UpdateOperation}
    {r : PeerRegistry} (hcall : operation.prepare id r = none) :
    r.metrics id = operation.meaning id (r.metrics id) := by
  cases operation with
  | announce now body =>
      cases body with
      | error => rfl
      | ok body =>
          by_cases hannounces : Announces id body
          · simp [prepare, announceCall_of_announces hannounces] at hcall
          · simp only [meaning, if_pos (not_not.mp hannounces)]
  | ping now rtt =>
      cases hseen : r.getPeer id with
      | none => simp [meaning, PeerRegistry.metrics, hseen]
      | some peer => simp [prepare, hseen] at hcall
  | direct call => cases hcall

end UpdateOperation

namespace PeerUpdates

theorem stillStands_self (current : Option Peer)
    (operation : UpdateOperation) : StillStands current current operation := by
  cases operation with
  | announce now body =>
      cases body with
      | error => trivial
      | ok body => exact ⟨rfl, fun _ => rfl⟩
  | ping => exact ⟨rfl, rfl⟩
  | direct => trivial

end PeerUpdates

theorem UpdateOperation.metrics_perform {id : Bytes}
    {operation : UpdateOperation} (hconcerns : operation.Concerns id)
    (r : PeerRegistry) :
    (operation.perform id r).metrics id =
      operation.meaning id (r.metrics id) := by
  unfold perform
  cases hcall : operation.prepare id r with
  | none => exact meaning_of_prepare_none hcall
  | some call =>
      exact metrics_of_prepare hconcerns hcall
        (PeerUpdates.stillStands_self _ operation)

/-! ### The order of effects -/

/-- The operations run one after the other. -/
def UpdateOperation.performAll (id : Bytes) (r : PeerRegistry)
    (operations : List UpdateOperation) : PeerRegistry :=
  operations.foldl (fun r operation => operation.perform id r) r

namespace PeerUpdates

variable {id : Bytes} {start : PeerRegistry}

/-- The call of an operation that has read comes from the record it saw. -/
def Grounded (id : Bytes) (call : UpdateCall) : Prop :=
  match call.stage with
  | .prepared seen prepared =>
      ∃ seenIn : PeerRegistry, seenIn.getPeer id = seen ∧
        call.operation.prepare id seenIn = some prepared
  | _ => True

/-- The metrics are those of the operations that have taken effect, in the
order in which they did. -/
structure Serial (id : Bytes) (start : PeerRegistry) (s : PeerUpdates) :
    Prop where
  concerns : ∀ call ∈ s.calls, call.operation.Concerns id
  grounded : ∀ call ∈ s.calls, Grounded id call
  perm : s.order.Perm (s.calls.filterMap UpdateCall.finished)
  metrics : s.registry.metrics id =
    (UpdateOperation.performAll id start s.order).metrics id

theorem Serial.start_operation {s : PeerUpdates} (hserial : Serial id start s)
    {operation : UpdateOperation} (hconcerns : operation.Concerns id) :
    Serial id start
      { s with calls := s.calls ++ [{ operation := operation }] } := by
  constructor
  · intro call hcall
    rcases List.mem_append.mp hcall with hold | hnew
    · exact hserial.concerns call hold
    · rw [List.mem_singleton.mp hnew]
      exact hconcerns
  · intro call hcall
    rcases List.mem_append.mp hcall with hold | hnew
    · exact hserial.grounded call hold
    · rw [List.mem_singleton.mp hnew]
      trivial
  · have hnew : [({ operation := operation } : UpdateCall)].filterMap
        UpdateCall.finished = [] := rfl
    rw [List.filterMap_append, hnew, List.append_nil]
    exact hserial.perm
  · exact hserial.metrics

/-- An operation that has not taken effect yet steps to another stage before
its effect. -/
theorem Serial.prepare {s : PeerUpdates} (hserial : Serial id start s)
    {position : ℕ} {old new : UpdateCall}
    (hold : s.calls[position]? = some old) (hpending : old.finished = none)
    (hsame : new.operation = old.operation)
    (hgrounded : Grounded id new) (hnew : new.finished = none) :
    Serial id start { s with calls := s.calls.set position new } := by
  constructor
  · intro call hcall
    rcases List.mem_or_eq_of_mem_set hcall with hmem | rfl
    · exact hserial.concerns call hmem
    · rw [hsame]
      exact hserial.concerns old (List.mem_of_getElem? hold)
  · intro call hcall
    rcases List.mem_or_eq_of_mem_set hcall with hmem | rfl
    · exact hserial.grounded call hmem
    · exact hgrounded
  · have hset := filterMap_set_perm UpdateCall.finished hold new
    rw [hpending, hnew] at hset
    exact hserial.perm.trans hset.symm
  · exact hserial.metrics

/-- An operation takes effect: the registry's metrics change as the operation
means. -/
theorem Serial.takeEffect {s : PeerUpdates} (hserial : Serial id start s)
    {position : ℕ} {old : UpdateCall} (hold : s.calls[position]? = some old)
    (hpending : old.finished = none) {registry : PeerRegistry}
    (hregistry : registry.metrics id =
      old.operation.meaning id (s.registry.metrics id)) :
    Serial id start
      { registry := registry
        calls := s.calls.set position
          { operation := old.operation, stage := .returned }
        order := s.order ++ [old.operation] } := by
  have hconcerns := hserial.concerns old (List.mem_of_getElem? hold)
  constructor
  · intro call hcall
    rcases List.mem_or_eq_of_mem_set hcall with hmem | rfl
    · exact hserial.concerns call hmem
    · exact hconcerns
  · intro call hcall
    rcases List.mem_or_eq_of_mem_set hcall with hmem | rfl
    · exact hserial.grounded call hmem
    · trivial
  · have hset := filterMap_set_perm UpdateCall.finished hold
      { operation := old.operation, stage := .returned }
    rw [hpending] at hset
    have hcons := hserial.perm.cons old.operation
    exact (List.perm_append_singleton _ _).trans (hcons.trans hset.symm)
  · rw [hregistry, hserial.metrics, UpdateOperation.performAll,
      UpdateOperation.performAll, List.foldl_concat,
      UpdateOperation.metrics_perform hconcerns]

theorem stepRead_serial {s : PeerUpdates} (hserial : Serial id start s)
    (position : ℕ) : Serial id start (s.stepRead id position) := by
  unfold stepRead
  split
  next operation hold =>
    split
    next call hcall =>
      exact hserial.prepare hold rfl rfl ⟨s.registry, rfl, hcall⟩ rfl
    next hcall =>
      exact hserial.takeEffect hold rfl
        (UpdateOperation.meaning_of_prepare_none hcall)
  next => exact hserial

theorem stepWrite_serial {s : PeerUpdates} (hserial : Serial id start s)
    {position : ℕ} (hcurrent : s.WritesCurrent id (.write position)) :
    Serial id start (s.stepWrite position) := by
  unfold stepWrite
  split
  next operation seen call hold =>
    simp only [WritesCurrent, hold] at hcurrent
    have hmem := List.mem_of_getElem? hold
    rcases hserial.grounded _ hmem with ⟨seenIn, rfl, hcall⟩
    exact hserial.takeEffect hold rfl
      (UpdateOperation.metrics_of_prepare (hserial.concerns _ hmem) hcall
        hcurrent)
  next => exact hserial

theorem serial_of_run {s : PeerUpdates}
    (hrun : (machine id start).Run (fun s => s.WritesCurrent id) s) :
    Serial id start s := by
  apply hrun.invariant
  · rintro s rfl
    constructor
    · intro call hcall
      cases hcall
    · intro call hcall
      cases hcall
    · exact .nil
    · rfl
  · intro s action _ hserial henabled hcurrent
    cases action with
    | start operation =>
        apply hserial.start_operation
        cases operation with
        | direct call => exact henabled
        | announce | ping => trivial
    | read position => exact stepRead_serial hserial position
    | write position => exact stepWrite_serial hserial hcurrent

/-- In every run in which each write finds what its operation read still
standing, once all operations have returned, the metrics of the peer are those
of the same operations run one after the other in some order. -/
theorem updates_serialise (id : Bytes) (start : PeerRegistry) {s : PeerUpdates}
    (hrun : (machine id start).Run (fun s => s.WritesCurrent id) s)
    (hreturned : ∀ call ∈ s.calls, call.stage = .returned) :
    ∃ order : List UpdateOperation,
      order.Perm (s.calls.map UpdateCall.operation) ∧
        s.registry.metrics id =
          (UpdateOperation.performAll id start order).metrics id := by
  have hserial := serial_of_run hrun
  refine ⟨s.order, ?_, hserial.metrics⟩
  have hall : s.calls.filterMap UpdateCall.finished =
      s.calls.map UpdateCall.operation := by
    rw [← List.filterMap_eq_map]
    apply List.filterMap_congr
    intro call hcall
    simp [UpdateCall.finished, hreturned call hcall]
  rw [← hall]
  exact hserial.perm

/-! ### A sample peer -/

def sampleScored : PeerRegistry where
  peers := Finmap.singleton [1] { id := [1], score := 50 }

/-- An announcement without a score, and a failure. -/
def sampleAnnounced : UpdateOperation := .announce 1 (.ok { pingMS := 7 })

def sampleFailed : UpdateOperation := .direct (.recordFailure 2 [1])

theorem updates_serialise_announced :
    let s := (machine [1] sampleScored).replay { registry := sampleScored }
      [.start sampleAnnounced, .start sampleFailed, .read 1, .read 0, .write 0,
        .write 1]
    s.registry.metrics [1] = some ⟨45, 7, 0, 0⟩ ∧
      ∃ order : List UpdateOperation,
        order.Perm (s.calls.map UpdateCall.operation) ∧
          s.registry.metrics [1] =
            (UpdateOperation.performAll [1] sampleScored order).metrics [1] := by
  refine ⟨by decide +kernel, updates_serialise [1] sampleScored ?_ ?_⟩
  · apply Machine.Run.replay (.start rfl)
    decide +kernel
  · decide +kernel

/-- The announcement reads before the failure is recorded and writes after:
the failure is lost. -/
theorem announcement_loses_failure :
    let s := (machine [1] sampleScored).replay { registry := sampleScored }
      [.start sampleAnnounced, .start sampleFailed, .read 0, .read 1, .write 1,
        .write 0]
    (machine [1] sampleScored).Reachable s ∧
      (∀ call ∈ s.calls, call.stage = .returned) ∧
      ∀ order : List UpdateOperation,
        order.Perm (s.calls.map UpdateCall.operation) →
          s.registry.metrics [1] ≠
            (UpdateOperation.performAll [1] sampleScored order).metrics [1] := by
  refine ⟨?_, by decide +kernel, ?_⟩
  · apply Machine.Run.replay (.start rfl)
    decide +kernel
  · intro order hperm
    have hpermutation : order ∈ [sampleAnnounced, sampleFailed].permutations' :=
      List.mem_permutations'.mpr hperm
    clear hperm
    revert order
    decide +kernel

end PeerUpdates

end GoP2P.Node
