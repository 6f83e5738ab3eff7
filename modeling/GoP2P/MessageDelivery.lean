import GoP2P.Deduplication
import GoP2P.Processes
import GoP2P.Runs

/-!
# Delivery by concurrent read loops

Every connection has a read loop, and all of them share one deduplicator.  A
loop asks for a message ID, marks it and calls the handler in three steps, each
at the time its clock shows; the cleanup goroutine sweeps the table in between.
Two calls for one ID stem from two marks, and a mark is far from an earlier one
if it follows a check that nobody else's mark has overtaken.  The calls are as
far apart as the marks if the later one comes no sooner after its mark.
-/

namespace GoP2P.Node

/-! ### The machine -/

/-- Where a read loop stands with the message it has decrypted; `markedAt` is
the time of the mark. -/
inductive ReadLoopStage where
  | reading
  | checked (msg : Message)
  | marked (msg : Message) (markedAt : Time)
  deriving DecidableEq, Repr

def ReadLoopStage.checkedID : ReadLoopStage → Option Bytes
  | .checked msg => some msg.id
  | _ => none

def ReadLoopStage.unhandled : ReadLoopStage → Option (Bytes × Time)
  | .marked msg markedAt => some (msg.id, markedAt)
  | _ => none

structure HandlerCall where
  id : Bytes
  markedAt : Time
  calledAt : Time
  deriving DecidableEq, Repr

def HandlerCall.mark (call : HandlerCall) : Bytes × Time :=
  (call.id, call.markedAt)

/-- The read loops of one transport.  `marks` and `calls` are ghost: the marks
and the calls of the handler, newest first. -/
structure ReadLoops where
  dedup : MessageDeduplicator
  hasHandler : Bool := false
  clock : Time := 0
  loops : List ReadLoopStage := []
  marks : List (Bytes × Time) := []
  calls : List HandlerCall := []

inductive ReadLoopAction where
  | tick (now : Time)
  | onMessage (isSet : Bool)
  | start
  | check (loop : ℕ) (msg : Message)
  | mark (loop : ℕ)
  | handle (loop : ℕ)
  | cleanup
  deriving DecidableEq, Repr

namespace ReadLoops

/-- The IDs passed to the handler and the time of each call. -/
def handled (s : ReadLoops) : List (Bytes × Time) :=
  s.calls.map fun call => (call.id, call.calledAt)

def check (s : ReadLoops) (loop : ℕ) (msg : Message) : ReadLoops :=
  match s.loops[loop]? with
  | some .reading =>
      let checked := s.dedup.isDuplicate s.clock msg.id
      { s with
        dedup := checked.2
        loops :=
          if checked.1 then s.loops else s.loops.set loop (.checked msg) }
  | _ => s

def mark (s : ReadLoops) (loop : ℕ) : ReadLoops :=
  match s.loops[loop]? with
  | some (.checked msg) =>
      { s with
        dedup := s.dedup.mark s.clock msg.id
        loops := s.loops.set loop (.marked msg s.clock)
        marks := (msg.id, s.clock) :: s.marks }
  | _ => s

def handle (s : ReadLoops) (loop : ℕ) : ReadLoops :=
  match s.loops[loop]? with
  | some (.marked msg markedAt) =>
      { s with
        loops := s.loops.set loop .reading
        calls :=
          if s.hasHandler then ⟨msg.id, markedAt, s.clock⟩ :: s.calls
          else s.calls }
  | _ => s

def next (s : ReadLoops) : ReadLoopAction → ReadLoops
  | .tick now => { s with clock := now }
  | .onMessage isSet => { s with hasHandler := isSet }
  | .start => { s with loops := s.loops ++ [.reading] }
  | .check loop msg => s.check loop msg
  | .mark loop => s.mark loop
  | .handle loop => s.handle loop
  | .cleanup => { s with dedup := s.dedup.cleanup s.clock }

/-- The clock does not go back. -/
def Enabled (s : ReadLoops) : ReadLoopAction → Prop
  | .tick now => s.clock ≤ now
  | _ => True

instance (s : ReadLoops) (action : ReadLoopAction) :
    Decidable (s.Enabled action) := by
  unfold Enabled
  split <;> infer_instance

def machine (ttl : ℤ) : Machine ReadLoops ReadLoopAction where
  initial s := ∃ clock, s = { dedup := { ttl := ttl }, clock := clock }
  enabled := Enabled
  next := next

instance (ttl : ℤ) (s : ReadLoops) (action : ReadLoopAction) :
    Decidable ((machine ttl).enabled s action) :=
  inferInstanceAs (Decidable (s.Enabled action))

/-! ### Marks are far apart -/

/-- Two events for one ID are more than the window apart. -/
def Apart (ttl : ℤ) (first second : Bytes × Time) : Prop :=
  first.1 = second.1 → ttl < |first.2 - second.2|

theorem Apart.symm {ttl : ℤ} {first second : Bytes × Time}
    (hapart : Apart ttl first second) : Apart ttl second first := by
  intro hid
  rw [abs_sub_comm]
  exact hapart hid.symm

/-- Calls for one ID come in the order of their marks, and the later one comes
no sooner after its mark than the earlier one. -/
def InStep (later earlier : HandlerCall) : Prop :=
  earlier.id = later.id → earlier.markedAt ≤ later.markedAt ∧
    earlier.calledAt - earlier.markedAt ≤ later.calledAt - later.markedAt

instance (later earlier : HandlerCall) : Decidable (InStep later earlier) :=
  inferInstanceAs (Decidable (_ → _))

/-- No loop checks an ID that another one has checked and not yet marked, and a
loop calls the handler in step with the calls before. -/
def Undisturbed (s : ReadLoops) : ReadLoopAction → Prop
  | .check _ msg => ∀ stage ∈ s.loops, stage.checkedID ≠ some msg.id
  | .handle loop =>
      match s.loops[loop]? with
      | some (.marked msg markedAt) =>
          ∀ call ∈ s.calls, InStep ⟨msg.id, markedAt, s.clock⟩ call
      | _ => True
  | _ => True

instance (s : ReadLoops) (action : ReadLoopAction) :
    Decidable (s.Undisturbed action) := by
  unfold Undisturbed
  split
  · infer_instance
  · split <;> infer_instance
  · infer_instance

structure Windowed (ttl : ℤ) (s : ReadLoops) : Prop where
  window : s.dedup.ttl = ttl
  apart : s.marks.Pairwise (Apart ttl)
  past : ∀ mark ∈ s.marks, mark.2 ≤ s.clock
  /-- A mark within the window is still in the table, or a later one is. -/
  remembered : ∀ mark ∈ s.marks, s.clock - mark.2 ≤ ttl →
    ∃ seenAt, s.dedup.seen.lookup mark.1 = some seenAt ∧ mark.2 ≤ seenAt
  checked : ∀ stage ∈ s.loops, ∀ id, stage.checkedID = some id →
    ∀ mark ∈ s.marks, mark.1 = id → ttl < s.clock - mark.2
  exclusive : (s.loops.filterMap (·.checkedID)).Nodup
  /-- Each mark leads to one call of the handler at most. -/
  called : (s.calls.map HandlerCall.mark ++
    s.loops.filterMap (·.unhandled)).Subperm s.marks
  inStep : s.calls.Pairwise InStep

theorem Windowed.tick {ttl : ℤ} {s : ReadLoops} (hwindowed : s.Windowed ttl)
    {now : Time} (hnow : s.clock ≤ now) :
    ({ s with clock := now } : ReadLoops).Windowed ttl where
  window := hwindowed.window
  apart := hwindowed.apart
  past mark hmark := le_trans (hwindowed.past mark hmark) hnow
  remembered mark hmark hfresh := by
    apply hwindowed.remembered mark hmark
    dsimp only at hfresh
    linarith
  checked stage hstage id hid mark hmark hmarked := by
    have := hwindowed.checked stage hstage id hid mark hmark hmarked
    dsimp only
    linarith
  exclusive := hwindowed.exclusive
  called := hwindowed.called
  inStep := hwindowed.inStep

theorem Windowed.start {ttl : ℤ} {s : ReadLoops} (hwindowed : s.Windowed ttl) :
    ({ s with loops := s.loops ++ [.reading] } : ReadLoops).Windowed ttl where
  window := hwindowed.window
  apart := hwindowed.apart
  past := hwindowed.past
  remembered := hwindowed.remembered
  checked stage hstage id hid := by
    rcases List.mem_append.mp hstage with hold | hnew
    · exact hwindowed.checked stage hold id hid
    · rw [List.mem_singleton] at hnew
      subst hnew
      cases hid
  exclusive := by
    simpa [ReadLoopStage.checkedID] using hwindowed.exclusive
  called := by
    simpa [ReadLoopStage.unhandled] using hwindowed.called
  inStep := hwindowed.inStep

theorem Windowed.cleanup {ttl : ℤ} {s : ReadLoops}
    (hwindowed : s.Windowed ttl) :
    ({ s with dedup := s.dedup.cleanup s.clock } : ReadLoops).Windowed
      ttl where
  window := hwindowed.window
  apart := hwindowed.apart
  past := hwindowed.past
  remembered mark hmark hfresh := by
    rcases hwindowed.remembered mark hmark hfresh with
      ⟨seenAt, hseen, hlater⟩
    refine ⟨seenAt, MessageDeduplicator.lookup_cleanup hseen ?_, hlater⟩
    rw [hwindowed.window]
    dsimp only at hfresh
    linarith
  checked := hwindowed.checked
  exclusive := hwindowed.exclusive
  called := hwindowed.called
  inStep := hwindowed.inStep

/-- The check lets an ID through only if every mark of it is old. -/
theorem Windowed.old_of_not_isDuplicate {ttl : ℤ} {s : ReadLoops}
    (hwindowed : s.Windowed ttl) {id : Bytes}
    (hnew : (s.dedup.isDuplicate s.clock id).1 = false) {mark : Bytes × Time}
    (hmark : mark ∈ s.marks) (hid : mark.1 = id) :
    ttl < s.clock - mark.2 := by
  by_contra hfresh
  push Not at hfresh
  rcases hwindowed.remembered mark hmark hfresh with ⟨seenAt, hseen, hlater⟩
  rw [hid] at hseen
  have hold := MessageDeduplicator.old_of_not_isDuplicate hnew hseen
  rw [hwindowed.window] at hold
  linarith

theorem Windowed.check {ttl : ℤ} {s : ReadLoops} (hwindowed : s.Windowed ttl)
    {loop : ℕ} {msg : Message}
    (hundisturbed : ∀ stage ∈ s.loops, stage.checkedID ≠ some msg.id) :
    (s.check loop msg).Windowed ttl := by
  unfold ReadLoops.check
  split
  next hreading =>
    cases hduplicate : (s.dedup.isDuplicate s.clock msg.id).1 with
    | true =>
        simp only [hduplicate, if_true,
          MessageDeduplicator.isDuplicate_snd_of_true hduplicate]
        exact hwindowed
    | false =>
        have hold : ∀ mark ∈ s.marks, mark.1 = msg.id →
            ttl < s.clock - mark.2 := by
          intro mark hmark hid
          exact hwindowed.old_of_not_isDuplicate hduplicate hmark hid
        simp only [hduplicate, Bool.false_eq_true, if_false]
        constructor
        · exact (s.dedup.isDuplicate_ttl s.clock msg.id).trans hwindowed.window
        · exact hwindowed.apart
        · exact hwindowed.past
        · intro mark hmark hfresh
          have hid : mark.1 ≠ msg.id := by
            intro hid
            have := hold mark hmark hid
            dsimp only at hfresh
            linarith
          dsimp only
          rw [s.dedup.lookup_isDuplicate_of_ne s.clock hid]
          exact hwindowed.remembered mark hmark hfresh
        · intro stage hstage id hid mark hmark hmarked
          rcases List.mem_or_eq_of_mem_set hstage with hstage | rfl
          · exact hwindowed.checked stage hstage id hid mark hmark hmarked
          · cases hid
            exact hold mark hmark hmarked
        · have hperm := filterMap_set_perm (·.checkedID) hreading
            (.checked msg)
          refine hperm.nodup_iff.mpr (List.nodup_cons.mpr ⟨?_, ?_⟩)
          · intro hmem
            rcases List.mem_filterMap.mp hmem with ⟨stage, hstage, hid⟩
            exact hundisturbed stage hstage hid
          · exact hwindowed.exclusive
        · have hperm := filterMap_set_perm (·.unhandled) hreading
            (.checked msg)
          exact (hperm.append_left _).subperm_right.mpr hwindowed.called
        · exact hwindowed.inStep
  next => exact hwindowed

theorem Windowed.mark {ttl : ℤ} {s : ReadLoops} (hwindowed : s.Windowed ttl)
    (loop : ℕ) : (s.mark loop).Windowed ttl := by
  unfold ReadLoops.mark
  split
  next msg hchecked =>
    have hold := hwindowed.checked _ (List.mem_of_getElem? hchecked) msg.id rfl
    have hids := filterMap_set_perm (·.checkedID) hchecked
      (.marked msg s.clock)
    have hexclusive := hids.nodup_iff.mpr hwindowed.exclusive
    have hevents := filterMap_set_perm (·.unhandled) hchecked
      (.marked msg s.clock)
    constructor
    · exact hwindowed.window
    · refine List.pairwise_cons.mpr ⟨?_, hwindowed.apart⟩
      intro mark hmark hid
      exact lt_of_lt_of_le (hold mark hmark hid.symm) (le_abs_self _)
    · intro mark hmark
      rcases List.mem_cons.mp hmark with rfl | hmark
      · exact le_refl s.clock
      · exact hwindowed.past mark hmark
    · intro mark hmark hfresh
      have hpast : mark.2 ≤ s.clock := by
        rcases List.mem_cons.mp hmark with rfl | hmark
        · exact le_refl s.clock
        · exact hwindowed.past mark hmark
      by_cases hid : mark.1 = msg.id
      · refine ⟨s.clock, ?_, hpast⟩
        rw [hid]
        exact Finmap.lookup_insert _
      · rcases List.mem_cons.mp hmark with rfl | hmark
        · exact absurd rfl hid
        · rcases hwindowed.remembered mark hmark hfresh with
            ⟨seenAt, hseen, hlater⟩
          refine ⟨seenAt, ?_, hlater⟩
          rw [← hseen]
          exact Finmap.lookup_insert_of_ne _ hid
    · intro stage hstage id hid mark hmark hmarked
      rcases List.mem_cons.mp hmark with rfl | hmark
      · -- nobody else has checked the ID that is marked here
        refine absurd (List.mem_filterMap.mpr ⟨stage, hstage, ?_⟩)
          (List.nodup_cons.mp hexclusive).1
        rw [hid, ← hmarked]
      · rcases List.mem_or_eq_of_mem_set hstage with hstage | rfl
        · exact hwindowed.checked stage hstage id hid mark hmark hmarked
        · cases hid
    · exact (List.nodup_cons.mp hexclusive).2
    · have hperm := (hevents.append_left (s.calls.map HandlerCall.mark)).trans
        List.perm_middle
      exact hperm.subperm_right.mpr
        ((List.subperm_cons _).mpr hwindowed.called)
    · exact hwindowed.inStep
  next => exact hwindowed

theorem Windowed.handle {ttl : ℤ} {s : ReadLoops} (hwindowed : s.Windowed ttl)
    {loop : ℕ} (hundisturbed : s.Undisturbed (.handle loop)) :
    (s.handle loop).Windowed ttl := by
  unfold ReadLoops.handle
  split
  next msg markedAt hmarked =>
    simp only [Undisturbed, hmarked] at hundisturbed
    have hids := filterMap_set_perm (·.checkedID) hmarked .reading
    have hevents := filterMap_set_perm (·.unhandled) hmarked .reading
    constructor
    · exact hwindowed.window
    · exact hwindowed.apart
    · exact hwindowed.past
    · exact hwindowed.remembered
    · intro stage hstage id hid
      rcases List.mem_or_eq_of_mem_set hstage with hstage | rfl
      · exact hwindowed.checked stage hstage id hid
      · cases hid
    · exact hids.nodup_iff.mpr hwindowed.exclusive
    · have hperm := List.perm_middle.symm.trans
        (hevents.append_left (s.calls.map HandlerCall.mark))
      have hsubperm := hperm.subperm_right.mpr hwindowed.called
      dsimp only
      split
      · exact hsubperm
      · exact List.subperm_cons_self.trans hsubperm
    · dsimp only
      split
      · exact List.pairwise_cons.mpr ⟨hundisturbed, hwindowed.inStep⟩
      · exact hwindowed.inStep
  next => exact hwindowed

theorem Windowed.next {ttl : ℤ} {s : ReadLoops} (hwindowed : s.Windowed ttl)
    {action : ReadLoopAction} (henabled : s.Enabled action)
    (hundisturbed : s.Undisturbed action) : (s.next action).Windowed ttl := by
  cases action with
  | tick now => exact hwindowed.tick henabled
  | onMessage isSet => exact { hwindowed with }
  | start => exact hwindowed.start
  | check loop msg => exact hwindowed.check hundisturbed
  | mark loop => exact hwindowed.mark loop
  | handle loop => exact hwindowed.handle hundisturbed
  | cleanup => exact hwindowed.cleanup

/-! ### Every run -/

/-- Calls in step are at least as far apart as their marks. -/
theorem Apart.of_inStep {ttl : ℤ} {later earlier : HandlerCall}
    (hapart : Apart ttl later.mark earlier.mark)
    (hinStep : InStep later earlier) :
    Apart ttl (later.id, later.calledAt) (earlier.id, earlier.calledAt) := by
  intro hid
  rcases hinStep hid.symm with ⟨hmarks, hdelays⟩
  have hfar : ttl < |later.markedAt - earlier.markedAt| := hapart hid
  rw [abs_of_nonneg (sub_nonneg.mpr hmarks)] at hfar
  exact lt_of_lt_of_le (by linarith) (le_abs_self _)

/-- In every run of undisturbed loops, two calls of the handler for one message
ID are more than the window apart. -/
theorem handled_apart (ttl : ℤ) {s : ReadLoops}
    (hrun : (machine ttl).Run Undisturbed s) :
    s.handled.Pairwise (Apart ttl) := by
  have hwindowed : s.Windowed ttl := by
    apply hrun.invariant
    · intro start hinitial
      rcases hinitial with ⟨clock, rfl⟩
      constructor <;> simp
    · intro before action _ hbefore henabled hundisturbed
      exact hbefore.next henabled hundisturbed
  have hcalled := (List.sublist_append_left _ _).subperm.trans
    hwindowed.called
  rcases hcalled with ⟨marks, hperm, hsublist⟩
  have hmarks := (hperm.pairwise_iff Apart.symm).mp
    (hwindowed.apart.sublist hsublist)
  rw [List.pairwise_map] at hmarks
  rw [handled, List.pairwise_map]
  refine (hmarks.and hwindowed.inStep).imp ?_
  intro later earlier hboth
  exact hboth.1.of_inStep hboth.2

/-! ### Sample runs -/

/-- Five minutes, the window of `NewTransport`. -/
def sampleTtl : ℤ := 300 * nanosecondsPerSecond

def sampleLoops : ReadLoops where
  dedup := { ttl := sampleTtl }

theorem sampleLoops_initial : (machine sampleTtl).initial sampleLoops :=
  ⟨0, rfl⟩

/-- One message comes three times, the last one after the window; the handler
is called a nanosecond after each mark. -/
def sampleResend : List ReadLoopAction :=
  [.onMessage true, .start, .start, .check 0 { id := [1] }, .mark 0, .tick 1,
    .handle 0, .check 1 { id := [1] }, .tick (sampleTtl + 1),
    .check 1 { id := [1] }, .mark 1, .tick (sampleTtl + 2), .handle 1]

theorem handled_apart_resend :
    let s := (machine sampleTtl).replay sampleLoops sampleResend
    s.handled = [([1], sampleTtl + 2), ([1], 1)] ∧
      s.handled.Pairwise (Apart sampleTtl) := by
  refine ⟨by decide, ?_⟩
  exact handled_apart sampleTtl
    (Machine.Run.replay (.start sampleLoops_initial) (by decide))

/-- Two loops ask for the ID before either of them marks it. -/
def sampleRace : List ReadLoopAction :=
  [.onMessage true, .start, .start, .check 0 { id := [1] },
    .check 1 { id := [1] }, .mark 0, .mark 1, .handle 0, .handle 1]

theorem handled_twice_at_once :
    ∃ s, (machine sampleTtl).Reachable s ∧ s.handled = [([1], 0), ([1], 0)] ∧
      ¬s.handled.Pairwise (Apart sampleTtl) := by
  have hreplays : (machine sampleTtl).Replays (fun _ _ => True) sampleLoops
      sampleRace := by decide
  refine ⟨_, Machine.Run.replay (.start sampleLoops_initial) hreplays, by decide, ?_⟩
  intro hapart
  have htwice : ((machine sampleTtl).replay sampleLoops sampleRace).handled =
      [([1], 0), ([1], 0)] := by decide
  rw [htwice] at hapart
  have := (List.pairwise_cons.mp hapart).1 ([1], 0) List.mem_cons_self rfl
  revert this
  decide

end ReadLoops

end GoP2P.Node
