import GoP2P.LifecycleInvariant

/-!
# Stopping a transport

`Stop` cancels the context, closes what it finds in `conns`, shuts the server
down and waits.  Each internal turn lowers the work that is left, so the
goroutines come to rest, and a `Stop` that has not returned by then waits for a
connection that a newer one had replaced, since nobody closes that one; for a
handler that has called `Stop` itself; or for a server that was started after
`Stop` looked for one.  After the cancellation a read loop calls the handler
once more at most, for the frame that it was waiting for.
-/

namespace GoP2P.Node

/-! ### Work left -/

def Closing.weight : Closing → ℕ
  | .entering => 4
  | .notifying => 3
  | .dropping => 2
  | .disconnecting => 1

def ReadLoopPoint.weight : ReadLoopPoint → ℕ
  | .received => 8
  | .handling _ => 7
  | .top => 6
  | .reading => 5
  | .closing stage => stage.weight
  | .finished => 0

def KeepalivePoint.weight : KeepalivePoint → ℕ
  | .pinging => 6
  | .waiting => 5
  | .closing stage => stage.weight
  | .finished => 0

namespace Goroutine

/-- How many turns a goroutine can take, with what it starts, if nothing
arrives from outside. -/
def weight : Goroutine → ℕ
  | .readLoop _ point => point.weight
  | .keepalive _ point => point.weight
  | .serve finished => if finished then 0 else 1
  | .cleanup finished => if finished then 0 else 1
  | .establish (.verified _) => 14
  | .establish (.stored _) => 13
  | .establish (.reading _) => 6
  | .establish .finished => 0
  | .closer _ _ stage => stage.elim 0 Closing.weight
  | .stop (.closing rest stage) => 2 + 5 * rest.length + stage.weight
  | .stop .shuttingDown => 2
  | .stop .waiting => 1
  | .stop _ => 0

end Goroutine

namespace Lifecycle

theorem close_routines {s t : Lifecycle} {n : ℕ} {graceful : Bool}
    {stage : Closing} {next : Option Closing}
    (hclose : s.close n graceful stage = some (t, next)) :
    t.routines = s.routines ∧
      next.elim 0 Closing.weight < stage.weight := by
  unfold close at hclose
  split at hclose
  · cases hclose
  · cases stage with
    | entering =>
        dsimp only at hclose
        split at hclose <;> cases hclose
        · cases graceful <;> exact ⟨rfl, by decide⟩
        · exact ⟨rfl, by decide⟩
    | notifying | dropping | disconnecting =>
        cases hclose
        exact ⟨rfl, by decide⟩

/-- No goroutine has a turn to take by itself. -/
def AtRest (s : Lifecycle) : Prop :=
  ∀ position turn, turn.internal = true →
    s.next? (.turn position turn) = none

theorem AtRest.advance {s : Lifecycle} (hrest : s.AtRest) {routine : Goroutine}
    (hroutine : routine ∈ s.routines) (turn : Turn)
    (hinternal : turn.internal = true) : s.advance routine turn = none := by
  rcases List.getElem?_of_mem hroutine with ⟨position, hat⟩
  have hnone := hrest position turn hinternal
  unfold next? at hnone
  dsimp only at hnone
  rw [hat] at hnone
  exact Option.map_eq_none_iff.mp hnone

/-- Whoever is in the body of a `closeOnce` has a turn. -/
theorem close_eq_none {s : Lifecycle} {n : ℕ} {graceful : Bool}
    {stage : Closing} (hlt : n < s.links.length)
    (hclose : s.close n graceful stage = none) :
    stage = .entering ∧ s.onceOf n = some .running := by
  unfold close at hclose
  rw [List.getElem?_eq_getElem hlt] at hclose
  dsimp only at hclose
  cases stage with
  | entering =>
      refine ⟨rfl, ?_⟩
      dsimp only at hclose
      split at hclose
      · cases hclose
      next hrunning =>
        unfold onceOf
        rw [List.getElem?_eq_getElem hlt, Option.map_some, hrunning]
      · cases hclose
  | notifying | dropping | disconnecting => cases hclose

theorem AtRest.waits {s : Lifecycle} (hrest : s.AtRest) (hsound : s.Sound)
    {routine : Goroutine} (hroutine : routine ∈ s.routines) {n : ℕ}
    {graceful : Bool} {stage : Closing}
    (hclosing : routine.closing = some (n, graceful, stage)) :
    stage = .entering ∧ s.onceOf n = some .running := by
  have hnone := hrest.advance hroutine .proceed rfl
  unfold Lifecycle.advance at hnone
  rw [hclosing] at hnone
  simp only [if_true, Option.map_eq_none_iff] at hnone
  exact close_eq_none (hsound.mentioned routine hroutine n
    (Goroutine.mem_mentions_of_closing hclosing)) hnone

/-- At rest nobody is within a call of `Close`: those that wait at a
`closeOnce` would wait for one that has a turn. -/
theorem AtRest.closing_eq_none {s : Lifecycle} (hrest : s.AtRest)
    (hsound : s.Sound) {routine : Goroutine} (hroutine : routine ∈ s.routines) :
    routine.closing = none := by
  by_contra hsome
  rcases Option.ne_none_iff_exists'.mp hsome with
    ⟨⟨n, graceful, stage⟩, hclosing⟩
  have hrunning := (hrest.waits hsound hroutine hclosing).2
  rcases List.mem_filterMap.mp ((hsound.running n).mpr hrunning) with
    ⟨holder, hholder, hholds⟩
  rcases Goroutine.closing_of_holds hholds with
    ⟨graceful', stage', hclosing', hstage'⟩
  exact hstage' (hrest.waits hsound hholder hclosing').1

/-- A read loop waits for a frame of a connection that nobody will close. -/
def HeldByReplaced (s : Lifecycle) : Prop :=
  ∃ n, Goroutine.readLoop n .reading ∈ s.routines ∧
    s.socketClosed n = false ∧ s.Replaced n

def HeldByHandler (s : Lifecycle) : Prop :=
  ∃ n stop, Goroutine.readLoop n (.handling (some stop)) ∈ s.routines

def HeldByServer (s : Lifecycle) : Prop :=
  Goroutine.serve false ∈ s.routines ∧ s.serverClosed = false

theorem AtRest.open_eq_none {s : Lifecycle} (hrest : s.AtRest)
    (hsound : s.Sound) {routine : Goroutine} (hroutine : routine ∈ s.routines)
    (turn : Turn) (hinternal : turn.internal = true) :
    s.advanceOpen routine turn = none := by
  have hnone := hrest.advance hroutine turn hinternal
  unfold Lifecycle.advance at hnone
  rw [hrest.closing_eq_none hsound hroutine] at hnone
  exact hnone

theorem AtRest.readLoop {s : Lifecycle} (hrest : s.AtRest) (hsound : s.Sound)
    {n : ℕ} {point : ReadLoopPoint}
    (hroutine : .readLoop n point ∈ s.routines) (hpoint : point ≠ .finished) :
    (point = .reading ∧ s.socketClosed n = false) ∨
      ∃ stop, point = .handling (some stop) := by
  have hnone := hrest.open_eq_none hsound hroutine .proceed rfl
  have hclosing := hrest.closing_eq_none hsound hroutine
  simp only [advanceOpen, Option.map_eq_none_iff] at hnone
  cases point with
  | top | received => cases hnone
  | reading =>
      left
      simpa [advanceReadLoop] using hnone
  | handling inside =>
      cases inside with
      | none => cases hnone
      | some stop => exact .inr ⟨stop, rfl⟩
  | closing stage => cases hclosing
  | finished => exact absurd rfl hpoint

theorem AtRest.held {s : Lifecycle} (hrest : s.AtRest) (hsound : s.Sound)
    (hwaiting : .stop .waiting ∈ s.routines) :
    s.HeldByReplaced ∨ s.HeldByHandler ∨ s.HeldByServer := by
  have hcancelled := hsound.cancelled _ hwaiting rfl
  have hbusy : s.idle = false := by
    have hnone := hrest.open_eq_none hsound hwaiting .proceed rfl
    simpa [advanceOpen, advanceStop] using hnone
  rcases List.all_eq_false.mp hbusy with ⟨routine, hroutine, hcounted⟩
  have hproceed := hrest.open_eq_none hsound hroutine .proceed rfl
  have hclosing := hrest.closing_eq_none hsound hroutine
  cases routine with
  | readLoop n point =>
      have hpoint : point ≠ .finished := by simpa [Goroutine.counted] using hcounted
      rcases hrest.readLoop hsound hroutine hpoint with
        ⟨rfl, hopen⟩ | ⟨stop, rfl⟩
      · left
        refine ⟨n, hroutine, hopen, ?_⟩
        have hlt := lt_of_mem_range_origins hsound hroutine
        have hunused : s.onceOf n = some .unused := by
          cases honce : s.onceOf n with
          | none => simp [onceOf, List.getElem?_eq_getElem hlt] at honce
          | some state =>
              cases state with
              | unused => rfl
              | running =>
                  rcases List.mem_filterMap.mp ((hsound.running n).mpr honce)
                    with ⟨holder, hholder, hholds⟩
                  unfold Goroutine.holds at hholds
                  rw [hrest.closing_eq_none hsound hholder] at hholds
                  cases hholds
              | done =>
                  rw [(hsound.done n honce).1] at hopen
                  cases hopen
        exact (hsound.aimed _ hwaiting [] rfl n hroutine hunused).resolve_left
          List.not_mem_nil
      · exact .inr (.inl ⟨n, stop, hroutine⟩)
  | keepalive n point =>
      cases point with
      | waiting => simp [advanceOpen, advanceKeepalive, hcancelled] at hproceed
      | pinging => cases hproceed
      | closing stage => cases hclosing
      | finished => simp [Goroutine.counted] at hcounted
  | serve finished =>
      right
      right
      cases finished with
      | true => simp [Goroutine.counted] at hcounted
      | false => exact ⟨hroutine, by simpa [advanceOpen] using hproceed⟩
  | cleanup finished =>
      cases finished with
      | true => simp [Goroutine.counted] at hcounted
      | false => simp [advanceOpen, hcancelled] at hproceed
  | establish point | closer _ _ _ | stop point =>
      simp [Goroutine.counted] at hcounted

/-- When `Stop` returns from its wait, nothing that it counted is left, no
handler is being called, and every connection is closed and out of `conns`, but
for one whose read loop a call of `Connect` or `handleWSUpgrade` has not
started yet.  Every connection has kept the ID it was stored under. -/
theorem stop_return_leaves_nothing {s s' : Lifecycle}
    (hreachable : machine.Reachable s) {position : ℕ}
    (hwaiting : s.routines[position]? = some (.stop .waiting))
    (hreturns : s.next? (.turn position .proceed) = some s') :
    (∀ routine ∈ s'.routines, routine.counted = false) ∧
    ∀ n, n < s'.links.length →
      Goroutine.establish (.stored n) ∈ s'.routines ∨
        (s'.onceOf n = some .done ∧ s'.socketClosed n = true ∧
          ∀ i, s'.conns.lookup i ≠ some n) := by
  have hsound := (reachable_sound hreachable).next? hreturns
  have hidle : ∀ routine ∈ s'.routines, routine.counted = false := by
    unfold next? at hreturns
    simp only [hwaiting, Lifecycle.advance, Goroutine.closing, advanceOpen,
      advanceStop] at hreturns
    split at hreturns
    next hidle =>
      cases hreturns
      intro routine hroutine
      rcases List.mem_or_eq_of_mem_set hroutine with hbefore | rfl
      · simpa using List.all_eq_true.mp hidle routine hbefore
      · rfl
    next => cases hreturns
  refine ⟨hidle, ?_⟩
  intro n hn
  have horigin : n ∈ s'.routines.filterMap (·.origin) :=
    hsound.origins.mem_iff.mpr (List.mem_range.mpr hn)
  rcases List.mem_filterMap.mp horigin with ⟨routine, hroutine, hfrom⟩
  unfold Goroutine.origin at hfrom
  split at hfrom
  next m point =>
    cases hfrom
    right
    have hpoint : point = .finished := by
      simpa [Goroutine.counted] using hidle _ hroutine
    subst hpoint
    have hdone := hsound.left n hroutine
    exact ⟨hdone, hsound.done n hdone⟩
  next =>
    cases hfrom
    exact .inl hroutine
  next => cases hfrom

/-- A server, one connection whose read loop gets a last frame, and a `Stop`
that goes all the way to its wait. -/
def sampleStop : List LifecycleAction :=
  .start :: .establish [1] :: List.replicate 3 (.turn 2 .proceed) ++
    [.turn 3 .proceed, .stop, .turn 5 .proceed, .turn 3 .frame,
      .turn 3 .dispatch, .turn 5 (.order [0]), .turn 5 .proceed]

def sampleWait : List LifecycleAction :=
  sampleStop ++ List.replicate 5 (.turn 5 .proceed) ++
    List.replicate 3 (.turn 3 .proceed) ++
    [.turn 4 .proceed, .turn 0 .proceed, .turn 1 .proceed]

theorem sampleStop_reachable :
    machine.Reachable (machine.replay {} sampleStop) := by
  have hreplays : machine.Replays (fun _ _ => True) {} sampleStop := by
    decide +kernel
  exact Machine.Run.replay (.start rfl) hreplays

theorem sampleWait_reachable :
    machine.Reachable (machine.replay {} sampleWait) := by
  have hreplays : machine.Replays (fun _ _ => True) {} sampleWait := by
    decide +kernel
  exact Machine.Run.replay (.start rfl) hreplays

theorem stop_return_leaves_nothing_sample :
    let s := machine.replay {} sampleWait
    s.links.length = 1 ∧
      ∃ s', s.next? (.turn 5 .proceed) = some s' ∧
        ∀ routine ∈ s'.routines, routine.counted = false := by
  refine ⟨by decide +kernel, ?_⟩
  have hreturns : ((machine.replay {} sampleWait).next?
      (.turn 5 .proceed)).isSome = true := by decide +kernel
  rcases Option.isSome_iff_exists.mp hreturns with ⟨s', hnext⟩
  exact ⟨s', hnext, (stop_return_leaves_nothing sampleWait_reachable
    (by decide +kernel) hnext).1⟩

/-! ### Handler calls after the cancellation -/

/-- The connections whose read loops may still call the handler without
looking at the context again. -/
def readers (s : Lifecycle) : List ℕ := s.routines.filterMap (·.pastCheck)

/-- What a turn does to the readers and to the ghost record of late calls. -/
inductive CallEffect (s s' : Lifecycle) : Prop where
  | quiet (hcancelled : s'.cancelled = s.cancelled)
      (hlast : s'.lastReaders = s.lastReaders)
      (hlate : s'.lateCalls = s.lateCalls)
      (hfewer : s.cancelled = true → s'.readers.Subperm s.readers)
  | called {n : ℕ} (hcancelled : s'.cancelled = s.cancelled)
      (hlast : s'.lastReaders = s.lastReaders)
      (hlate : s'.lateCalls =
        if s.cancelled then n :: s.lateCalls else s.lateCalls)
      (hone : (n :: s'.readers).Perm s.readers)
  | cancelled (hbefore : s.cancelled = false) (hafter : s'.cancelled = true)
      (hlast : s'.lastReaders = s.readers)
      (hlate : s'.lateCalls = s.lateCalls)
      (hsame : s'.readers.Perm s.readers)

/-- A goroutine moves on without coming past the check. -/
theorem readers_subperm {s : Lifecycle} {position : ℕ} {old new : Goroutine}
    (hold : s.routines[position]? = some old)
    (hnew : new.pastCheck = none ∨ new.pastCheck = old.pastCheck)
    {added : List Goroutine} (hadded : added.filterMap (·.pastCheck) = []) :
    ((s.routines.set position new ++ added).filterMap (·.pastCheck)).Subperm
      s.readers := by
  have hperm := filterMap_set_perm (·.pastCheck) hold new
  rw [List.filterMap_append, hadded, List.append_nil]
  rcases hnew with hnone | hsame
  · rw [hnone, Option.toList_none, List.nil_append] at hperm
    exact (List.sublist_append_right _ _).subperm.trans hperm.subperm
  · rw [hsame] at hperm
    exact ((List.perm_append_left_iff _).mp hperm).subperm

theorem close_records {s t : Lifecycle} {n : ℕ} {graceful : Bool}
    {stage : Closing} {next : Option Closing}
    (hclose : s.close n graceful stage = some (t, next)) :
    t.cancelled = s.cancelled ∧ t.lastReaders = s.lastReaders ∧
      t.lateCalls = s.lateCalls := by
  unfold close at hclose
  split at hclose
  · cases hclose
  · cases stage with
    | entering =>
        dsimp only at hclose
        split at hclose <;> cases hclose <;> exact ⟨rfl, rfl, rfl⟩
    | notifying | dropping | disconnecting =>
        cases hclose
        exact ⟨rfl, rfl, rfl⟩

theorem pastCheck_of_closing {routine : Goroutine} {n : ℕ} {graceful : Bool}
    {stage : Closing} (hclosing : routine.closing = some (n, graceful, stage))
    (next : Option Closing) : (routine.resume next).pastCheck = none := by
  unfold Goroutine.closing at hclosing
  split at hclosing <;> cases hclosing <;> cases next <;> rfl

/-- A turn that leaves the records alone and brings nobody past the check. -/
theorem CallEffect.of_moved {s t : Lifecycle} {position : ℕ}
    {old new : Goroutine} (hold : s.routines[position]? = some old)
    {added : List Goroutine} (hroutines : t.routines = s.routines ++ added)
    (hadded : added.filterMap (·.pastCheck) = [])
    (hrecords : t.cancelled = s.cancelled ∧ t.lastReaders = s.lastReaders ∧
      t.lateCalls = s.lateCalls)
    (hnew : s.cancelled = true →
      new.pastCheck = none ∨ new.pastCheck = old.pastCheck) :
    CallEffect s { t with routines := t.routines.set position new } := by
  refine .quiet hrecords.1 hrecords.2.1 hrecords.2.2 ?_
  intro hcancelled
  have hset : t.routines.set position new =
      s.routines.set position new ++ added := by
    rw [hroutines]
    exact List.set_append_left _ _ (List.getElem?_eq_some_iff.mp hold).1
  have hfewer := readers_subperm hold (hnew hcancelled) hadded
  unfold readers at hfewer ⊢
  rw [hset]
  exact hfewer

theorem advanceReadLoop_callEffect {s t : Lifecycle} {position n : ℕ}
    {point point' : ReadLoopPoint} {turn : Turn}
    (hold : s.routines[position]? = some (.readLoop n point))
    (hmoved : s.advanceReadLoop n point turn = some (t, point')) :
    CallEffect s
      { t with routines := t.routines.set position (.readLoop n point') } := by
  have hquiet : t = s → (s.cancelled = true →
      (Goroutine.readLoop n point').pastCheck = none ∨
        (Goroutine.readLoop n point').pastCheck =
          (Goroutine.readLoop n point).pastCheck) →
      CallEffect s
        { t with routines := t.routines.set position (.readLoop n point') } := by
    rintro rfl hnew
    exact .of_moved hold (List.append_nil _).symm rfl ⟨rfl, rfl, rfl⟩ hnew
  unfold advanceReadLoop at hmoved
  split at hmoved
  next =>
    cases hmoved
    refine hquiet rfl ?_
    intro hcancelled
    simp [hcancelled, Goroutine.pastCheck]
  next =>
    split at hmoved <;> cases hmoved
    exact hquiet rfl fun _ => .inl rfl
  next =>
    cases hmoved
    exact hquiet rfl fun _ => .inr rfl
  next =>
    cases hmoved
    exact hquiet rfl fun _ => .inl rfl
  next =>
    split at hmoved <;> cases hmoved
    exact hquiet rfl fun _ => .inl rfl
  next =>
    cases hmoved
    exact hquiet rfl fun _ => .inl rfl
  next =>
    cases hmoved
    exact .called rfl rfl rfl
      (filterMap_set_perm Goroutine.pastCheck hold (.readLoop n (.handling none)))
  next =>
    cases hmoved
    exact hquiet rfl fun _ => .inl rfl
  next =>
    split at hmoved <;> cases hmoved
    exact hquiet rfl fun _ => .inl rfl
  next => cases hmoved

theorem advanceStop_callEffect {s t : Lifecycle} {position : ℕ}
    {point point' : StopPoint} {turn : Turn}
    (hold : s.routines[position]? = some (.stop point))
    (hmoved : s.advanceStop point turn = some (t, point')) :
    CallEffect s
      { t with routines := t.routines.set position (.stop point') } := by
  have hnone : (Goroutine.stop point').pastCheck = none := rfl
  by_cases hcalled : point = .called
  · subst hcalled
    cases turn <;> cases hmoved
    unfold cancel
    split
    · exact .of_moved hold (List.append_nil _).symm rfl ⟨rfl, rfl, rfl⟩
        fun _ => .inl rfl
    next hbefore =>
      exact .cancelled (Bool.eq_false_of_not_eq_true hbefore) rfl rfl rfl
        (filterMap_set_perm Goroutine.pastCheck hold (.stop .cancelled))
  · have hsame : t.routines = s.routines ∧ t.cancelled = s.cancelled ∧
        t.lastReaders = s.lastReaders ∧ t.lateCalls = s.lateCalls := by
      unfold advanceStop at hmoved
      split at hmoved
      next => exact absurd rfl hcalled
      next =>
        split at hmoved <;> cases hmoved
        exact ⟨rfl, rfl, rfl, rfl⟩
      next =>
        cases hmoved
        exact ⟨rfl, rfl, rfl, rfl⟩
      next =>
        cases hmoved
        exact ⟨rfl, rfl, rfl, rfl⟩
      next =>
        split at hmoved <;> cases hmoved
        exact ⟨rfl, rfl, rfl, rfl⟩
      next =>
        split at hmoved <;> cases hmoved
        exact ⟨rfl, rfl, rfl, rfl⟩
      next => cases hmoved
    exact .of_moved hold (hsame.1.trans (List.append_nil _).symm) rfl hsame.2
      fun _ => .inl hnone

theorem advance_callEffect {s t : Lifecycle} {position : ℕ}
    {old new : Goroutine} {turn : Turn}
    (hold : s.routines[position]? = some old)
    (hmoved : s.advance old turn = some (t, new)) :
    CallEffect s { t with routines := t.routines.set position new } := by
  have halone : ∀ {new : Goroutine}, new.pastCheck = none →
      CallEffect s { s with routines := s.routines.set position new } := by
    intro new hnew
    exact .of_moved hold (List.append_nil _).symm rfl ⟨rfl, rfl, rfl⟩
      fun _ => .inl hnew
  cases advance_turn hmoved with
  | closed hclosing hclose =>
      have hsame := (close_routines hclose).1
      exact .of_moved hold (hsame.trans (List.append_nil _).symm) rfl
        (close_records hclose) fun _ => .inl (pastCheck_of_closing hclosing _)
  | opened hclosing hopen =>
      cases hopen with
      | read hmove => exact advanceReadLoop_callEffect hold hmove
      | kept | served | cleaned => exact halone rfl
      | established hmove =>
          unfold advanceEstablish at hmove
          split at hmove <;> cases hmove
          · exact .of_moved hold (List.append_nil _).symm rfl ⟨rfl, rfl, rfl⟩
              fun _ => .inl rfl
          · exact .of_moved hold rfl rfl ⟨rfl, rfl, rfl⟩ fun _ => .inl rfl
          · exact .of_moved hold rfl rfl ⟨rfl, rfl, rfl⟩ fun _ => .inl rfl
      | stopped hmove => exact advanceStop_callEffect hold hmove

theorem CallEffect.of_spawned (s : Lifecycle) {routine : Goroutine}
    (hroutine : routine.pastCheck = none) :
    CallEffect s (s.spawn routine) := by
  refine .quiet rfl rfl rfl fun _ => List.Perm.subperm ?_
  unfold readers
  simp [spawn, hroutine]

theorem next?_callEffect {s s' : Lifecycle} {action : LifecycleAction}
    (hnext : s.next? action = some s') : CallEffect s s' := by
  unfold next? at hnext
  split at hnext
  · split at hnext <;> cases hnext
    refine .quiet rfl rfl rfl fun _ => List.Perm.subperm ?_
    unfold readers
    simp [spawn, Goroutine.pastCheck]
  · cases hnext
    exact .of_spawned s rfl
  · split at hnext <;> cases hnext
    exact .of_spawned s rfl
  · cases hnext
    exact .of_spawned s rfl
  · split at hnext
    next n hold =>
      cases hnext
      exact .quiet rfl rfl rfl fun _ => readers_subperm hold (.inl rfl) rfl
    next => cases hnext
  · split at hnext
    · cases hnext
    next old hold =>
      rcases Option.map_eq_some_iff.mp hnext with ⟨moved, hmoved, rfl⟩
      exact advance_callEffect hold hmoved

/-- The late calls and the read loops that may still make one are among those
that were past the check at the cancellation, each of them once. -/
structure CallsBounded (s : Lifecycle) : Prop where
  early : s.cancelled = false → s.lateCalls = []
  late : s.cancelled = true →
    (s.lateCalls ++ s.readers).Subperm s.lastReaders
  distinct : s.lastReaders.Nodup

theorem CallsBounded.step {s s' : Lifecycle} (hbounded : s.CallsBounded)
    (hreaders : s.readers.Nodup) (heffect : CallEffect s s') :
    s'.CallsBounded := by
  cases heffect with
  | quiet hcancelled hlast hlate hfewer =>
      constructor
      · rw [hcancelled, hlate]
        exact hbounded.early
      · intro hset
        rw [hcancelled] at hset
        rw [hlate, hlast]
        exact ((List.subperm_append_left _).mpr (hfewer hset)).trans
          (hbounded.late hset)
      · rw [hlast]
        exact hbounded.distinct
  | @called n hcancelled hlast hlate hone =>
      constructor
      · intro hset
        rw [hcancelled] at hset
        simpa [hlate, hset] using hbounded.early hset
      · intro hset
        rw [hcancelled] at hset
        rw [hlate, if_pos hset, hlast]
        have hmoved : (n :: s.lateCalls ++ s'.readers).Perm
            (s.lateCalls ++ s.readers) :=
          List.perm_middle.symm.trans (hone.append_left _)
        exact hmoved.subperm.trans (hbounded.late hset)
      · rw [hlast]
        exact hbounded.distinct
  | cancelled hbefore hafter hlast hlate hsame =>
      constructor
      · intro hset
        rw [hafter] at hset
        cases hset
      · intro _
        rw [hlate, hbounded.early hbefore, hlast, List.nil_append]
        exact hsame.subperm
      · rw [hlast]
        exact hreaders

/-- Every connection has one read loop. -/
theorem Sound.readers_nodup {s : Lifecycle} (hsound : s.Sound) :
    s.readers.Nodup := by
  have hsub : (s.routines.filterMap (·.pastCheck)).Sublist
      (s.routines.filterMap (·.origin)) := by
    induction s.routines with
    | nil => exact List.Sublist.refl _
    | cons routine rest ih =>
        rw [List.filterMap_cons, List.filterMap_cons]
        cases hpast : routine.pastCheck with
        | none =>
            cases routine.origin with
            | none => exact ih
            | some n => exact ih.cons n
        | some n =>
            have horigin : routine.origin = some n := by
              unfold Goroutine.pastCheck at hpast
              split at hpast <;> first | exact hpast | cases hpast
            rw [horigin]
            exact ih.cons_cons n
  exact (hsound.origins.nodup_iff.mpr List.nodup_range).sublist hsub

/-- Once the context is cancelled, only read loops that had passed their check
of it by then call the handler, and each of them once at most. -/
theorem late_calls_bounded {s : Lifecycle} (hreachable : machine.Reachable s) :
    s.lateCalls.Nodup ∧ (∀ n ∈ s.lateCalls, n ∈ s.lastReaders) ∧
      s.lateCalls.length ≤ s.lastReaders.length := by
  have hbounded : s.CallsBounded := by
    refine invariant_of_next? ?_ ?_ hreachable
    · exact ⟨fun _ => rfl, (fun hset => by cases hset), List.nodup_nil⟩
    · intro before after action hbefore ih hnext
      exact ih.step (reachable_sound hbefore).readers_nodup
        (next?_callEffect hnext)
  cases hset : s.cancelled with
  | false => simp [hbounded.early hset]
  | true =>
      have hlate : s.lateCalls.Subperm s.lastReaders :=
        (List.sublist_append_left _ _).subperm.trans (hbounded.late hset)
      refine ⟨?_, fun n hn => hlate.subset hn, hlate.length_le⟩
      rcases hlate with ⟨part, hperm, hpart⟩
      exact hperm.nodup_iff.mp (hbounded.distinct.sublist hpart)

theorem late_calls_bounded_sample :
    let s := machine.replay {} sampleStop
    s.lateCalls = [0] ∧ s.lateCalls.Nodup ∧
      ∀ n ∈ s.lateCalls, n ∈ s.lastReaders := by
  have hbounded := late_calls_bounded sampleStop_reachable
  exact ⟨by decide +kernel, hbounded.1, hbounded.2.1⟩

/-! ### One close, one message -/

/-- A turn between closes sends no disconnect message and takes nobody into
the body of a `closeOnce`. -/
theorem OpenTurn.keeps {s t : Lifecycle} {old new : Goroutine} {turn : Turn}
    (hopen : OpenTurn s turn old t new) :
    t.goodbyes = s.goodbyes ∧
      (t.links = s.links ∨
        ∃ peerID, t.links = s.links ++ [{ peerID := peerID }]) ∧
      new.holds = none ∧
      ∀ routine ∈ t.routines, routine ∈ s.routines ∨ routine.holds = none := by
  have hold : ∀ routine ∈ s.routines,
      routine ∈ s.routines ∨ routine.holds = none :=
    fun routine hroutine => .inl hroutine
  have hspawned : ∀ {added : Goroutine}, added.holds = none →
      ∀ routine ∈ s.routines ++ [added],
        routine ∈ s.routines ∨ routine.holds = none := by
    intro added hadded routine hroutine
    rcases List.mem_append.mp hroutine with hbefore | hnew
    · exact .inl hbefore
    · rw [List.mem_singleton.mp hnew]
      exact .inr hadded
  cases hopen with
  | read hmove =>
      rcases advanceReadLoop_spec hmove with ⟨hstate, hholds, -, -⟩
      rcases hstate with hstate | hstate <;> rw [hstate]
      · exact ⟨rfl, .inl rfl, hholds, hold⟩
      · exact ⟨rfl, .inl rfl, hholds, hold⟩
  | kept hmove =>
      exact ⟨rfl, .inl rfl, holds_of_advanceKeepalive hmove, hold⟩
  | served | cleaned => exact ⟨rfl, .inl rfl, rfl, hold⟩
  | established hmove =>
      unfold advanceEstablish at hmove
      split at hmove <;> cases hmove
      · exact ⟨rfl, .inr ⟨_, rfl⟩, rfl, hold⟩
      · exact ⟨rfl, .inl rfl, rfl, hspawned rfl⟩
      · exact ⟨rfl, .inl rfl, rfl, hspawned rfl⟩
  | stopped hmove =>
      unfold advanceStop at hmove
      split at hmove
      next =>
        cases hmove
        unfold cancel
        split <;> exact ⟨rfl, .inl rfl, rfl, hold⟩
      next connections =>
        split at hmove <;> cases hmove
        refine ⟨rfl, .inl rfl, ?_, hold⟩
        cases connections <;> rfl
      next =>
        cases hmove
        exact ⟨rfl, .inl rfl, rfl, hold⟩
      next =>
        cases hmove
        exact ⟨rfl, .inl rfl, rfl, hold⟩
      next =>
        split at hmove <;> cases hmove
        exact ⟨rfl, .inl rfl, rfl, hold⟩
      next =>
        split at hmove <;> cases hmove
        exact ⟨rfl, .inl rfl, rfl, hold⟩
      next => cases hmove

/-- Who is about to notify a peer is the first to do so, and the socket is
still open. -/
structure Notifies (s : Lifecycle) : Prop where
  distinct : s.goodbyes.Nodup
  used : ∀ n ∈ s.goodbyes, n < s.links.length ∧ s.onceOf n ≠ some .unused
  pending : ∀ routine ∈ s.routines, ∀ n graceful,
    routine.closing = some (n, graceful, .notifying) → n ∉ s.goodbyes
  closed : ∀ n, s.socketClosed n = true → s.onceOf n = some .done

theorem Notifies.of_open {s s' : Lifecycle} (hnotifies : s.Notifies)
    (hgoodbyes : s'.goodbyes = s.goodbyes)
    (hlinks : s'.links = s.links ∨
      ∃ peerID, s'.links = s.links ++ [{ peerID := peerID }])
    (hroutines : ∀ routine ∈ s'.routines,
      routine ∈ s.routines ∨ routine.holds = none) : s'.Notifies := by
  have hlink : ∀ (n : ℕ) (link : Link), s'.links[n]? = some link →
      s.links[n]? = some link ∨
        (link.once = .unused ∧ link.socketClosed = false) := by
    intro n link hat
    rcases hlinks with hsame | ⟨peerID, hadded⟩
    · rw [hsame] at hat
      exact .inl hat
    · rw [hadded] at hat
      rcases getElem?_concat_cases hat with hbefore | ⟨-, rfl⟩
      · exact .inl hbefore
      · exact .inr ⟨rfl, rfl⟩
  have hkept : ∀ n, n < s.links.length → s'.links[n]? = s.links[n]? := by
    intro n hn
    rcases hlinks with hsame | ⟨peerID, hadded⟩
    · rw [hsame]
    · rw [hadded, List.getElem?_append_left hn]
  constructor
  · rw [hgoodbyes]
    exact hnotifies.distinct
  · intro n hn
    rw [hgoodbyes] at hn
    rcases hnotifies.used n hn with ⟨hlt, hused⟩
    constructor
    · rcases hlinks with hsame | ⟨peerID, hadded⟩
      · rw [hsame]
        exact hlt
      · rw [hadded, List.length_append]
        omega
    · unfold onceOf at hused ⊢
      rw [hkept n hlt]
      exact hused
  · intro routine hroutine n graceful hclosing
    rw [hgoodbyes]
    rcases hroutines routine hroutine with hbefore | hnone
    · exact hnotifies.pending routine hbefore n graceful hclosing
    · rw [Goroutine.holds_of_closing hclosing (by decide)] at hnone
      cases hnone
  · intro n hclosed
    unfold socketClosed at hclosed
    cases hat : s'.links[n]? with
    | none => simp [hat] at hclosed
    | some link =>
        rw [hat, Option.elim_some] at hclosed
        rcases hlink n link hat with hbefore | ⟨-, hopen⟩
        · have hdone := hnotifies.closed n (by simp [socketClosed, hbefore,
            hclosed])
          unfold onceOf at hdone ⊢
          rw [hat, ← hbefore]
          exact hdone
        · rw [hopen] at hclosed
          cases hclosed

/-- A turn within a `Close` that sends nothing. -/
theorem Notifies.stepped {s s' : Lifecycle} (hnotifies : s.Notifies) (n : ℕ)
    (hgoodbyes : s'.goodbyes = s.goodbyes)
    (hlength : s'.links.length = s.links.length)
    (hothers : ∀ m, m ≠ n → s'.onceOf m = s.onceOf m ∧
      s'.socketClosed m = s.socketClosed m)
    (hused : s'.onceOf n ≠ some .unused)
    (hclosed : s'.socketClosed n = true → s'.onceOf n = some .done)
    (hpending : ∀ routine ∈ s'.routines, routine ∈ s.routines ∨
      ∀ m graceful, routine.closing = some (m, graceful, .notifying) →
        m ∉ s.goodbyes) : s'.Notifies := by
  constructor
  · rw [hgoodbyes]
    exact hnotifies.distinct
  · intro m hm
    rw [hgoodbyes] at hm
    rcases hnotifies.used m hm with ⟨hlt, hbefore⟩
    refine ⟨hlength ▸ hlt, ?_⟩
    by_cases hmn : m = n
    · subst hmn
      exact hused
    · rw [(hothers m hmn).1]
      exact hbefore
  · intro routine hroutine m graceful hclosing
    rw [hgoodbyes]
    rcases hpending routine hroutine with hbefore | hnew
    · exact hnotifies.pending routine hbefore m graceful hclosing
    · exact hnew m graceful hclosing
  · intro m hm
    by_cases hmn : m = n
    · subst hmn
      exact hclosed hm
    · rw [(hothers m hmn).2] at hm
      rw [(hothers m hmn).1]
      exact hnotifies.closed m hm

/-- The body of a `closeOnce` has one goroutine in it. -/
theorem Sound.holds_apart {s : Lifecycle} (hsound : s.Sound)
    {position other n : ℕ} {old routine : Goroutine}
    (hold : s.routines[position]? = some old) (hholds : old.holds = some n)
    (hne : other ≠ position) (hother : s.routines[other]? = some routine) :
    routine.holds ≠ some n := by
  have hperm := holders_perm hold (.serve true)
  rw [hholds] at hperm
  have hfree := (List.nodup_cons.mp
    (hperm.nodup_iff.mpr hsound.exclusive)).1
  intro hholds'
  apply hfree
  refine List.mem_filterMap.mpr ⟨routine, ?_, hholds'⟩
  apply List.mem_of_getElem?
  rw [List.getElem?_set_ne hne.symm]
  exact hother

theorem Notifies.of_close {s t : Lifecycle} (hnotifies : s.Notifies)
    (hsound : s.Sound) {position n : ℕ} {old : Goroutine} {graceful : Bool}
    {stage : Closing} {next : Option Closing}
    (hold : s.routines[position]? = some old)
    (hclosing : old.closing = some (n, graceful, stage))
    (hclose : s.close n graceful stage = some (t, next)) :
    ({ t with routines := t.routines.set position (old.resume next) } :
      Lifecycle).Notifies := by
  have hmem := List.mem_of_getElem? hold
  -- Nobody comes to the notifying point but from a `closeOnce` never used.
  have hpending : ∀ next : Option Closing,
      (next = some .notifying → n ∉ s.goodbyes) →
      ∀ routine ∈ s.routines.set position (old.resume next),
        routine ∈ s.routines ∨
          ∀ m graceful', routine.closing = some (m, graceful', .notifying) →
            m ∉ s.goodbyes := by
    intro next hnext routine hroutine
    refine (List.mem_or_eq_of_mem_set hroutine).imp_right ?_
    rintro rfl m graceful' hat
    cases next with
    | none =>
        have hholding := Goroutine.holds_of_closing hat (by decide)
        rw [Goroutine.holds_resume_none hclosing] at hholding
        cases hholding
    | some stage' =>
        rw [Goroutine.closing_resume_some hclosing] at hat
        cases hat
        exact hnext rfl
  have hrunning : stage ≠ .entering → s.onceOf n = some .running := by
    intro hstage
    rw [← hsound.running]
    exact List.mem_filterMap.mpr
      ⟨old, hmem, Goroutine.holds_of_closing hclosing hstage⟩
  unfold close at hclose
  split at hclose
  · cases hclose
  next link hlink =>
    have honce : s.onceOf n = some link.once := by
      unfold onceOf
      rw [hlink, Option.map_some]
    have hsocket : s.socketClosed n = link.socketClosed := by
      unfold socketClosed
      rw [hlink, Option.elim_some]
    cases stage with
    | entering =>
        dsimp only at hclose
        split at hclose
        next hunused =>
          cases hclose
          let new : Link := { link with once := .running }
          have hset : (s.setLink n new).links[n]? = some new :=
            getElem?_of_set_self hlink rfl
          refine hnotifies.stepped n rfl (by simp [setLink]) ?_ ?_ ?_
            (hpending _ ?_)
          · intro m hm
            exact ⟨onceOf_of_set_ne rfl hm, socketClosed_of_set_ne rfl hm⟩
          · change (s.setLink n new).onceOf n ≠ _
            simp [onceOf, hset, new]
          · intro hclosed
            change (s.setLink n new).socketClosed n = _ at hclosed
            simp only [socketClosed, hset, Option.elim_some, new] at hclosed
            rw [← hsocket] at hclosed
            have hdone := hnotifies.closed n hclosed
            rw [honce, hunused] at hdone
            cases hdone
          · intro _ hsent
            apply (hnotifies.used n hsent).2
            rw [honce, hunused]
        next => cases hclose
        next hdone =>
          cases hclose
          have hafter : s.onceOf n = some .done := by rw [honce, hdone]
          refine hnotifies.stepped n rfl rfl (fun _ _ => ⟨rfl, rfl⟩) ?_
            (fun _ => hafter) (hpending none fun h => by cases h)
          change s.onceOf n ≠ _
          rw [hafter]
          simp
    | notifying =>
        cases hclose
        have hnew := hnotifies.pending old hmem n graceful hclosing
        refine ⟨List.nodup_cons.mpr ⟨hnew, hnotifies.distinct⟩, ?_, ?_,
          hnotifies.closed⟩
        · intro m hm
          rcases List.mem_cons.mp hm with rfl | hm
          · refine ⟨(List.getElem?_eq_some_iff.mp hlink).1, ?_⟩
            change s.onceOf m ≠ _
            rw [hrunning (by decide)]
            simp
          · exact hnotifies.used m hm
        · intro routine hroutine m graceful' hat
          rcases List.getElem?_of_mem hroutine with ⟨other, hother⟩
          rcases getElem?_set_cases hother with ⟨-, rfl⟩ | ⟨hne, hbefore⟩
          · rw [Goroutine.closing_resume_some hclosing] at hat
            cases hat
          · rw [List.mem_cons, not_or]
            refine ⟨?_, hnotifies.pending routine
              (List.mem_of_getElem? hbefore) m graceful' hat⟩
            rintro rfl
            exact hsound.holds_apart hold
              (Goroutine.holds_of_closing hclosing (by decide)) hne hbefore
              (Goroutine.holds_of_closing hat (by decide))
    | dropping =>
        cases hclose
        have hafter := hrunning (by decide)
        refine hnotifies.stepped n rfl rfl (fun _ _ => ⟨rfl, rfl⟩) ?_ ?_
          (hpending _ fun h => by cases h)
        · change s.onceOf n ≠ _
          rw [hafter]
          simp
        · exact hnotifies.closed n
    | disconnecting =>
        cases hclose
        let new : Link := { link with once := .done, socketClosed := true }
        have hset : (s.setLink n new).links[n]? = some new :=
          getElem?_of_set_self hlink rfl
        refine hnotifies.stepped n rfl (by simp [setLink]) ?_ ?_ ?_
          (hpending none fun h => by cases h)
        · intro m hm
          exact ⟨onceOf_of_set_ne rfl hm, socketClosed_of_set_ne rfl hm⟩
        · change (s.setLink n new).onceOf n ≠ _
          simp [onceOf, hset, new]
        · intro _
          change (s.setLink n new).onceOf n = _
          simp [onceOf, hset, new]

theorem Notifies.next? {s s' : Lifecycle} (hnotifies : s.Notifies)
    (hsound : s.Sound) {action : LifecycleAction}
    (hnext : s.next? action = some s') : s'.Notifies := by
  have hspawned : ∀ {t : Lifecycle} {routine : Goroutine}, t.Notifies →
      routine.holds = none → (t.spawn routine).Notifies := by
    intro t routine hbefore hholds
    refine hbefore.of_open rfl (.inl rfl) ?_
    intro other hother
    rcases List.mem_append.mp hother with hold | hnew
    · exact .inl hold
    · rw [List.mem_singleton.mp hnew]
      exact .inr hholds
  unfold Lifecycle.next? at hnext
  split at hnext
  · split at hnext <;> cases hnext
    have hserves : ({ s with hasServer := true } : Lifecycle).Notifies :=
      ⟨hnotifies.distinct, hnotifies.used, hnotifies.pending,
        hnotifies.closed⟩
    exact hspawned (hspawned hserves rfl) rfl
  · cases hnext
    exact hspawned hnotifies rfl
  · split at hnext <;> cases hnext
    exact hspawned hnotifies rfl
  · cases hnext
    exact hspawned hnotifies rfl
  · split at hnext <;> cases hnext
    refine hnotifies.of_open rfl (.inl rfl) ?_
    intro routine hroutine
    rcases List.mem_append.mp hroutine with hset | hnew
    · refine (List.mem_or_eq_of_mem_set hset).imp_right ?_
      rintro rfl
      rfl
    · rw [List.mem_singleton.mp hnew]
      exact .inr rfl
  · split at hnext
    · cases hnext
    next old hold =>
      rcases Option.map_eq_some_iff.mp hnext with ⟨⟨t, new⟩, hmoved, rfl⟩
      cases advance_turn hmoved with
      | closed hclosing hclose =>
          exact hnotifies.of_close hsound hold hclosing hclose
      | opened _ hopen =>
          rcases hopen.keeps with ⟨hsent, hlinks, hholds, hkept⟩
          refine hnotifies.of_open hsent hlinks ?_
          intro routine hroutine
          rcases List.mem_or_eq_of_mem_set hroutine with hbefore | rfl
          · exact hkept routine hbefore
          · exact .inr hholds

/-- However many goroutines close a connection, in whatever way, its peer is
sent one disconnect message at most, by a goroutine that is then alone in the
body of `closeOnce` and finds the socket open. -/
theorem peer_notified_once {s : Lifecycle}
    (hreachable : machine.Reachable s) :
    s.goodbyes.Nodup ∧
    ∀ (position n : ℕ) (graceful : Bool) (routine : Goroutine),
      s.routines[position]? = some routine →
      routine.closing = some (n, graceful, .notifying) →
        n ∉ s.goodbyes ∧ s.socketClosed n = false ∧
          ∀ (other : ℕ) (routine' : Goroutine), other ≠ position →
            s.routines[other]? = some routine' → routine'.holds ≠ some n := by
  have hnotifies : s.Notifies := by
    refine invariant_of_next? ?_ ?_ hreachable
    · exact ⟨List.nodup_nil, by simp, by simp, by simp [socketClosed]⟩
    · intro before after action hbefore ih hnext
      exact ih.next? (reachable_sound hbefore) hnext
  have hsound := reachable_sound hreachable
  refine ⟨hnotifies.distinct, ?_⟩
  intro position n graceful routine hroutine hclosing
  have hmem := List.mem_of_getElem? hroutine
  have hholds := Goroutine.holds_of_closing hclosing (by decide)
  refine ⟨hnotifies.pending routine hmem n graceful hclosing, ?_, ?_⟩
  · rw [← Bool.not_eq_true]
    intro hclosed
    have hrunning := (hsound.running n).mp
      (List.mem_filterMap.mpr ⟨routine, hmem, hholds⟩)
    rw [hnotifies.closed n hclosed] at hrunning
    cases hrunning
  · intro other routine' hne hother
    exact hsound.holds_apart hroutine hholds hne hother

theorem peer_notified_once_sample :
    let s := machine.replay {} sampleStop
    s.routines[5]? = some (.stop (.closing [0] .notifying)) ∧
      0 ∉ s.goodbyes ∧ s.socketClosed 0 = false := by
  have hat : (machine.replay {} sampleStop).routines[5]? =
      some (.stop (.closing [0] .notifying)) := by decide +kernel
  have honce := (peer_notified_once sampleStop_reachable).2 5 0 true _ hat rfl
  exact ⟨hat, honce.1, honce.2.1⟩

end Lifecycle

end GoP2P.Node
