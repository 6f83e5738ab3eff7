import GoP2P.ReadSide
import GoP2P.TransportAdmission

/-!
# Handler calls per frame

A connection's frames lead to handler calls no faster than its limiter lets
them through: a loop calls the handler for a frame before it reads the next
one, so of the calls within a window all but the first belong to frames read
within it.  And no message is lost to the deduplicator: a frame is dropped as a
duplicate only if a frame with the same ID was marked within the window, and
that mark has led to a call of the handler or is about to.
-/

namespace GoP2P.Node

/-! ### Calls within a window -/

namespace Reader

/-- The handler calls that a loop made from `a` to `b`. -/
def callsWithin (r : Reader) (a b : Time) : ℕ :=
  r.history.countP fun entry =>
    entry.2.calledAt.any fun calledAt => decide (a ≤ calledAt ∧ calledAt ≤ b)

def readWithin (a b : Time) (arrival : Arrival) : Bool :=
  arrival.allowed && decide (a ≤ arrival.readAt) && decide (arrival.readAt ≤ b)

section

variable {crypto : NodePrimitives} {codec : Codec} {r : Reader} {a b : Time}

/-- A frame for which the handler was called in the window was let through
before the end of the window. -/
theorem readWithin_of_called {entry : Arrival × FrameFate}
    (hfate : r.Fate crypto codec entry.1 entry.2)
    (hcalled : (entry.2.calledAt.any fun calledAt =>
      decide (a ≤ calledAt ∧ calledAt ≤ b)) = true)
    (hread : a ≤ entry.1.readAt) : readWithin a b entry.1 = true := by
  rcases entry with ⟨arrival, fate⟩
  cases fate with
  | called msg calledAt =>
      rcases hfate with ⟨hallowed, -, hbefore⟩
      have hwindow : a ≤ calledAt ∧ calledAt ≤ b := by
        simpa [FrameFate.calledAt] using hcalled
      have hend := hbefore.trans hwindow.2
      simp only [readWithin, Bool.and_eq_true, decide_eq_true_eq]
      exact ⟨⟨hallowed, hread⟩, hend⟩
  | _ => simp [FrameFate.calledAt] at hcalled

theorem countP_called_le {history : List (Arrival × FrameFate)}
    (hfated : ∀ entry ∈ history, r.Fate crypto codec entry.1 entry.2)
    (hread : ∀ entry ∈ history, a ≤ entry.1.readAt) :
    (history.countP fun entry => entry.2.calledAt.any fun calledAt =>
        decide (a ≤ calledAt ∧ calledAt ≤ b)) ≤
      (history.map Prod.fst).countP (readWithin a b) := by
  rw [List.countP_map]
  apply List.countP_mono_left
  intro entry hentry hcalled
  exact readWithin_of_called (hfated entry hentry) hcalled (hread entry hentry)

/-- All calls within the window but the first are for frames read within
it. -/
theorem countP_called_le_succ {history : List (Arrival × FrameFate)}
    (hfated : ∀ entry ∈ history, r.Fate crypto codec entry.1 entry.2)
    (hsequential : history.Pairwise fun earlier later =>
      ∀ calledAt, earlier.2.calledAt = some calledAt →
        calledAt ≤ later.1.readAt) :
    (history.countP fun entry => entry.2.calledAt.any fun calledAt =>
        decide (a ≤ calledAt ∧ calledAt ≤ b)) ≤
      (history.map Prod.fst).countP (readWithin a b) + 1 := by
  induction history with
  | nil => simp
  | cons entry rest ih =>
      rw [List.forall_mem_cons] at hfated
      rw [List.pairwise_cons] at hsequential
      have hrest := ih hfated.2 hsequential.2
      rw [List.countP_cons, List.map_cons, List.countP_cons]
      split
      next hcalled =>
        rcases Option.any_eq_true_iff_get _ _ |>.mp hcalled with ⟨hsome, hwindow⟩
        have hlater : ∀ later ∈ rest, a ≤ later.1.readAt := by
          intro later hmem
          have hbefore := hsequential.1 later hmem _ (Option.some_get hsome).symm
          rw [decide_eq_true_eq] at hwindow
          exact hwindow.1.trans hbefore
        have hall := countP_called_le (b := b) hfated.2 hlater
        omega
      next => omega

/-- The arrivals of a record that were let through are the admissions of its
limiter. -/
theorem Recorded.countP_readWithin {now : Time}
    (hrecorded : r.Recorded crypto codec now) (a b : Time) :
    r.arrivals.countP (readWithin a b) =
      PeerRateLimiter.admitted ((newPeerRateLimiter r.created 100 50).answers
        intSeconds (r.arrivals.map (·.readAt))) a b := by
  unfold PeerRateLimiter.admitted
  rw [← hrecorded.answered, List.countP_map]
  rfl

theorem Recorded.callsWithin_le {now : Time}
    (hrecorded : r.Recorded crypto codec now) (hwindow : a ≤ b) :
    (r.callsWithin a b : ℤ) ≤ 101 + 50 * PeerRateLimiter.secondsUp a b := by
  have hcalls : r.callsWithin a b ≤
      (r.history.map Prod.fst).countP (readWithin a b) + 1 :=
    countP_called_le_succ hrecorded.fated hrecorded.sequential
  have hread : (r.history.map Prod.fst).countP (readWithin a b) ≤
      r.arrivals.countP (readWithin a b) := by
    unfold arrivals
    rw [List.countP_append]
    omega
  rw [hrecorded.countP_readWithin] at hread
  have hsound := PeerRateLimiter.sound_new (by decide : (0 : ℤ) ≤ 100)
    (by decide : (0 : ℤ) ≤ 50) r.created
  have hmax : (newPeerRateLimiter r.created 100 50).maxTokens = 100 := rfl
  have hrate : (newPeerRateLimiter r.created 100 50).refillRate = 50 := rfl
  have hadmitted := hsound.admitted_window_le hrecorded.times hwindow
  rw [← hsound.answers_intSeconds (by rw [hmax]; decide) hrecorded.times,
    hmax, hrate] at hadmitted
  have hchain : (r.callsWithin a b : ℤ) ≤
      PeerRateLimiter.admitted ((newPeerRateLimiter r.created 100 50).answers
        intSeconds (r.arrivals.map (·.readAt))) a b + 1 := by
    exact_mod_cast hcalls.trans (Nat.add_le_add_right hread 1)
  linarith

end

end Reader

namespace ReadSide

section

variable {crypto : NodePrimitives} {codec : Codec}

theorem Sound.recorded_of_mem {s : ReadSide} (hsound : s.Sound crypto codec)
    {reader : Reader} (hreader : reader ∈ s.readers) :
    reader.Recorded crypto codec s.loops.clock := by
  rcases List.getElem?_of_mem hreader with ⟨loop, hat⟩
  have hlt : loop < s.loops.loops.length := by
    rw [← hsound.paired]
    exact (List.getElem?_eq_some_iff.mp hat).1
  exact (hsound.recorded loop reader _ hat
    (List.getElem?_eq_getElem hlt)).toRecorded

/-- However many connections there are and whatever frames arrive on them, the
handler is called for the frames of one connection at most 101 times in any
window, and 50 times more for each second that the window has begun. -/
theorem handler_calls_limited (crypto : NodePrimitives) (codec : Codec)
    {ttl : ℤ} {s : ReadSide}
    (hreachable : (machine crypto codec ttl).Reachable s) {reader : Reader}
    (hreader : reader ∈ s.readers) {a b : Time} (hwindow : a ≤ b) :
    (reader.callsWithin a b : ℤ) ≤
      101 + 50 * PeerRateLimiter.secondsUp a b :=
  ((reachable_sound hreachable).recorded_of_mem hreader).callsWithin_le hwindow

/-! ### Duplicates -/

/-- The handler is set before the first connection and stays set. -/
def HandlerSet (s : ReadSide) : ReadSideAction → Prop
  | .connect _ => s.loops.hasHandler = true
  | .onMessage isSet => isSet = true
  | _ => True

instance (s : ReadSide) (action : ReadSideAction) :
    Decidable (s.HandlerSet action) := by
  unfold HandlerSet
  split <;> infer_instance

/-- Some loop has called the handler for the ID at or after an instant. -/
def CalledSince (s : ReadSide) (id : Bytes) (since : Time) : Prop :=
  ∃ reader ∈ s.readers, ∃ entry ∈ reader.history, ∃ msg calledAt,
    entry.2 = .called msg calledAt ∧ msg.id = id ∧ since ≤ calledAt

/-- Some loop has marked the ID at or after an instant and calls the handler
next. -/
def AboutToCall (s : ReadSide) (id : Bytes) (since : Time) : Prop :=
  ∃ msg markedAt, ReadLoopStage.marked msg markedAt ∈ s.loops.loops ∧
    msg.id = id ∧ since ≤ markedAt

/-- Every mark has led to a call or is about to, and every duplicate was one of
a mark within the window. -/
structure Accounted (ttl : ℤ) (s : ReadSide) : Prop where
  window : s.loops.dedup.ttl = ttl
  handler : s.readers ≠ [] → s.loops.hasHandler = true
  seen : ∀ id seenAt, s.loops.dedup.seen.lookup id = some seenAt →
    (id, seenAt) ∈ s.loops.marks
  answered : ∀ mark ∈ s.loops.marks,
    s.CalledSince mark.1 mark.2 ∨ s.AboutToCall mark.1 mark.2
  marked : ∀ msg markedAt,
    ReadLoopStage.marked msg markedAt ∈ s.loops.loops → markedAt ≤ s.loops.clock
  duplicates : ∀ reader ∈ s.readers, ∀ entry ∈ reader.history,
    ∀ msg checkedAt, entry.2 = .duplicate msg checkedAt →
      ∃ mark ∈ s.loops.marks, mark.1 = msg.id ∧ checkedAt - ttl ≤ mark.2
  handled : ∀ reader ∈ s.readers, ∀ entry ∈ reader.history,
    ∀ msg, entry.2 ≠ .unhandled msg

/-- A loop is done with a frame, other than for want of a handler. -/
theorem mem_history_settle {r : Reader} {fate : FrameFate}
    {entry : Arrival × FrameFate} (hentry : entry ∈ (r.settle fate).history) :
    entry ∈ r.history ∨ entry.2 = fate := by
  unfold Reader.settle at hentry
  rcases List.mem_append.mp hentry with hbefore | hnew
  · exact .inl hbefore
  · right
    cases hcurrent : r.current with
    | none => simp [hcurrent] at hnew
    | some arrival =>
        simp only [hcurrent, Option.map_some, Option.toList_some,
          List.mem_singleton] at hnew
        rw [hnew]

theorem history_sublist_settle (r : Reader) (fate : FrameFate) :
    ∀ entry ∈ r.history, entry ∈ (r.settle fate).history := by
  intro entry hentry
  exact List.mem_append_left _ hentry

theorem mem_history_read {r : Reader} {now : Time} {frame : Bytes}
    {entry : Arrival × FrameFate}
    (hentry : entry ∈ (r.read crypto codec now frame).history) :
    entry ∈ r.history ∨ entry.2 = .limited ∨ entry.2 = .unreadable := by
  unfold Reader.read at hentry
  dsimp only at hentry
  split at hentry
  · exact (mem_history_settle hentry).imp_right .inl
  · split at hentry
    · exact .inl hentry
    · exact (mem_history_settle hentry).imp_right .inr

theorem history_sublist_read (r : Reader) (now : Time) (frame : Bytes) :
    ∀ entry ∈ r.history, entry ∈ (r.read crypto codec now frame).history := by
  intro entry hentry
  unfold Reader.read
  dsimp only
  split
  · exact history_sublist_settle _ _ entry hentry
  · split
    · exact hentry
    · exact history_sublist_settle _ _ entry hentry

/-- One loop's record grows; what it adds is no duplicate, or one of a mark
within the window. -/
theorem Accounted.stepped {ttl : ℤ} {s s' : ReadSide}
    (haccounted : s.Accounted ttl) {loop : ℕ} {old new : Reader}
    (hold : s.readers[loop]? = some old)
    (hreaders : s'.readers = s.readers.set loop new)
    (hgrows : ∀ entry ∈ old.history, entry ∈ new.history)
    (hadded : ∀ entry ∈ new.history, entry ∈ old.history ∨
      ((∀ msg checkedAt, entry.2 = .duplicate msg checkedAt →
        ∃ mark ∈ s'.loops.marks, mark.1 = msg.id ∧ checkedAt - ttl ≤ mark.2) ∧
          ∀ msg, entry.2 ≠ .unhandled msg))
    (hwindow : s'.loops.dedup.ttl = s.loops.dedup.ttl)
    (hhandler : s'.loops.hasHandler = s.loops.hasHandler)
    (hmarks : ∀ mark ∈ s.loops.marks, mark ∈ s'.loops.marks)
    (hseen : ∀ id seenAt, s'.loops.dedup.seen.lookup id = some seenAt →
      (id, seenAt) ∈ s'.loops.marks)
    (hanswered : ∀ mark ∈ s'.loops.marks,
      s'.CalledSince mark.1 mark.2 ∨ s'.AboutToCall mark.1 mark.2)
    (hmarked : ∀ msg markedAt, ReadLoopStage.marked msg markedAt ∈
      s'.loops.loops → markedAt ≤ s'.loops.clock) : s'.Accounted ttl := by
  have hmem := List.mem_of_getElem? hold
  have hbefore : ∀ reader ∈ s'.readers, reader ∈ s.readers ∨ reader = new := by
    intro reader hreader
    rw [hreaders] at hreader
    exact List.mem_or_eq_of_mem_set hreader
  refine ⟨hwindow.trans haccounted.window, ?_, hseen, hanswered, hmarked, ?_, ?_⟩
  · intro _
    rw [hhandler]
    apply haccounted.handler
    rintro hnone
    rw [hnone] at hmem
    cases hmem
  · intro reader hreader entry hentry msg checkedAt hduplicate
    have hold : ∀ reader ∈ s.readers, entry ∈ reader.history →
        ∃ mark ∈ s'.loops.marks, mark.1 = msg.id ∧
          checkedAt - ttl ≤ mark.2 := by
      intro reader hreader hentry
      rcases haccounted.duplicates reader hreader entry hentry msg checkedAt
        hduplicate with ⟨mark, hmark, hfound⟩
      exact ⟨mark, hmarks mark hmark, hfound⟩
    rcases hbefore reader hreader with hreader | rfl
    · exact hold reader hreader hentry
    · rcases hadded entry hentry with hentry | hnew
      · exact hold old hmem hentry
      · exact hnew.1 msg checkedAt hduplicate
  · intro reader hreader entry hentry msg
    rcases hbefore reader hreader with hreader | rfl
    · exact haccounted.handled reader hreader entry hentry msg
    · rcases hadded entry hentry with hentry | hnew
      · exact haccounted.handled old hmem entry hentry msg
      · exact hnew.2 msg

/-- Calls stay on record when a loop's record grows. -/
theorem CalledSince.stepped {s s' : ReadSide} {loop : ℕ} {old new : Reader}
    (hold : s.readers[loop]? = some old)
    (hreaders : s'.readers = s.readers.set loop new)
    (hgrows : ∀ entry ∈ old.history, entry ∈ new.history) {id : Bytes}
    {since : Time} (hcalled : s.CalledSince id since) :
    s'.CalledSince id since := by
  rcases hcalled with ⟨reader, hreader, entry, hentry, hcall⟩
  rcases List.getElem?_of_mem hreader with ⟨other, hother⟩
  rcases exists_getElem?_set hold hother
      (p := fun reader => entry ∈ reader.history)
      (fun _ hsame => hgrows entry (hsame ▸ hentry)) hentry with
    ⟨reader', hreader', hentry'⟩
  refine ⟨reader', ?_, entry, hentry', hcall⟩
  rw [hreaders]
  exact List.mem_of_getElem? hreader'

theorem Accounted.read {ttl : ℤ} {s : ReadSide} (haccounted : s.Accounted ttl)
    (loop : ℕ) (frame : Bytes) :
    (s.read crypto codec loop frame).Accounted ttl := by
  unfold ReadSide.read
  split
  next reader hreader _ =>
    split
    · exact haccounted
    · have hgrows : ∀ entry ∈ reader.history,
          entry ∈ (reader.read crypto codec s.loops.clock frame).history :=
        history_sublist_read reader s.loops.clock frame
      refine haccounted.stepped hreader rfl hgrows ?_ rfl rfl (fun _ h => h)
        haccounted.seen ?_ haccounted.marked
      · intro entry hentry
        refine (mem_history_read hentry).imp_right ?_
        rintro (hlimited | hunreadable)
        · simp [hlimited]
        · simp [hunreadable]
      · intro mark hmark
        exact (haccounted.answered mark hmark).imp_left
          (CalledSince.stepped hreader rfl hgrows)
  next => exact haccounted

/-- A mark that is about to lead to a call still is after a step of a loop
that has marked nothing. -/
theorem AboutToCall.stepped {s s' : ReadSide} {loop : ℕ}
    {old new : ReadLoopStage} (hold : s.loops.loops[loop]? = some old)
    (hunmarked : ∀ msg markedAt, old ≠ .marked msg markedAt)
    (hloops : s'.loops.loops = s.loops.loops.set loop new) {id : Bytes}
    {since : Time} (habout : s.AboutToCall id since) :
    s'.AboutToCall id since := by
  rcases habout with ⟨msg, markedAt, hmem, hfound⟩
  refine ⟨msg, markedAt, ?_, hfound⟩
  rw [hloops]
  exact mem_set_of_ne hold hmem (hunmarked msg markedAt).symm

theorem Accounted.check {ttl : ℤ} {s : ReadSide} (haccounted : s.Accounted ttl)
    (hsound : s.Sound crypto codec) (hpositive : 0 < ttl) (loop : ℕ) :
    (s.check loop).Accounted ttl := by
  unfold ReadSide.check
  split
  · exact haccounted
  next reader hreader =>
    split
    · exact haccounted
    next msg hpending =>
      have hlt : loop < s.loops.loops.length := by
        rw [← hsound.paired]
        exact (List.getElem?_eq_some_iff.mp hreader).1
      have hreading : s.loops.loops[loop] = .reading :=
        (hsound.recorded loop reader _ hreader
          (List.getElem?_eq_getElem hlt)).pending (by simp [hpending])
      have hstage : s.loops.loops[loop]? = some .reading := by
        rw [List.getElem?_eq_getElem hlt, hreading]
      have hseen : ∀ id seenAt,
          (s.loops.dedup.isDuplicate s.loops.clock msg.id).2.seen.lookup id =
              some seenAt → (id, seenAt) ∈ s.loops.marks := by
        intro id seenAt hlookup
        exact haccounted.seen id seenAt
          (MessageDeduplicator.lookup_of_lookup_isDuplicate hlookup)
      have hgrows : ∀ fate, ∀ entry ∈ reader.history,
          entry ∈ (reader.settle fate).history := history_sublist_settle reader
      cases hduplicate : (s.loops.dedup.isDuplicate s.loops.clock msg.id).1 with
      | true =>
          have hloops : s.loops.check loop msg =
              { s.loops with
                dedup := (s.loops.dedup.isDuplicate s.loops.clock msg.id).2 } := by
            simp only [ReadLoops.check, hstage, hduplicate, if_true]
          rw [hloops]
          refine haccounted.stepped hreader rfl (hgrows _) ?_
            (MessageDeduplicator.isDuplicate_ttl _ _ _) rfl (fun _ h => h) hseen
            ?_ haccounted.marked
          · intro entry hentry
            refine (mem_history_settle hentry).imp_right ?_
            intro hfate
            refine ⟨?_, by simp [hfate]⟩
            intro msg' checkedAt hduplicate'
            rw [hfate] at hduplicate'
            cases hduplicate'
            rcases MessageDeduplicator.isDuplicate_iff.mp hduplicate with
              ⟨seenAt, hlookup, hfresh⟩
            refine ⟨(msg.id, seenAt), haccounted.seen _ _ hlookup, rfl, ?_⟩
            rw [haccounted.window] at hfresh
            have hwithin : ¬ s.loops.clock - seenAt > ttl :=
              fun hold => hfresh ⟨hpositive, hold⟩
            dsimp only
            linarith
          · intro mark hmark
            exact (haccounted.answered mark hmark).imp_left
              (CalledSince.stepped hreader rfl (hgrows _))
      | false =>
          have hloops : s.loops.check loop msg =
              { s.loops with
                dedup := (s.loops.dedup.isDuplicate s.loops.clock msg.id).2
                loops := s.loops.loops.set loop (.checked msg) } := by
            simp only [ReadLoops.check, hstage, hduplicate, Bool.false_eq_true,
              if_false]
          rw [hloops, if_neg Bool.false_ne_true]
          have hsame : ∀ entry ∈ reader.history,
              entry ∈ ({ reader with pending := none } : Reader).history :=
            fun _ hentry => hentry
          refine haccounted.stepped hreader rfl hsame (fun _ h => .inl h)
            (MessageDeduplicator.isDuplicate_ttl _ _ _) rfl (fun _ h => h) hseen
            ?_ ?_
          · intro mark hmark
            rcases haccounted.answered mark hmark with hcalled | habout
            · exact .inl (hcalled.stepped hreader rfl hsame)
            · exact .inr (habout.stepped hstage (by simp) rfl)
          · intro msg' markedAt hmarked
            rcases List.mem_or_eq_of_mem_set hmarked with hbefore | hnew
            · exact haccounted.marked msg' markedAt hbefore
            · cases hnew

theorem Accounted.mark {ttl : ℤ} {s : ReadSide} (haccounted : s.Accounted ttl)
    (loop : ℕ) : (s.mark loop).Accounted ttl := by
  unfold ReadSide.mark ReadLoops.mark
  split
  next msg hchecked =>
    have hlt := (List.getElem?_eq_some_iff.mp hchecked).1
    refine ⟨haccounted.window, haccounted.handler, ?_, ?_, ?_, ?_,
      haccounted.handled⟩
    · intro id seenAt hlookup
      by_cases hid : id = msg.id
      · subst hid
        rw [show (s.loops.dedup.mark s.loops.clock msg.id).seen.lookup msg.id =
          some s.loops.clock from Finmap.lookup_insert _,
          Option.some.injEq] at hlookup
        subst hlookup
        exact List.mem_cons_self
      · rw [show (s.loops.dedup.mark s.loops.clock msg.id).seen.lookup id =
          s.loops.dedup.seen.lookup id from
            Finmap.lookup_insert_of_ne _ hid] at hlookup
        exact List.mem_cons_of_mem _ (haccounted.seen id seenAt hlookup)
    · intro mark hmark
      rcases List.mem_cons.mp hmark with rfl | hmark
      · exact .inr ⟨msg, s.loops.clock, List.mem_set hlt _, rfl, le_refl _⟩
      · rcases haccounted.answered mark hmark with hcalled | habout
        · exact .inl hcalled
        · exact .inr (habout.stepped hchecked (by simp) rfl)
    · intro msg' markedAt hmarked
      rcases List.mem_or_eq_of_mem_set hmarked with hbefore | hnew
      · exact haccounted.marked msg' markedAt hbefore
      · cases hnew
        exact le_refl _
    · intro reader hreader entry hentry msg' checkedAt hduplicate
      rcases haccounted.duplicates reader hreader entry hentry msg' checkedAt
        hduplicate with ⟨mark, hmark, hfound⟩
      exact ⟨mark, List.mem_cons_of_mem _ hmark, hfound⟩
  next => exact haccounted

theorem Accounted.handle {ttl : ℤ} {s : ReadSide}
    (haccounted : s.Accounted ttl) (hsound : s.Sound crypto codec)
    (loop : ℕ) : (s.handle loop).Accounted ttl := by
  unfold ReadSide.handle
  split
  next reader msg markedAt hreader hmarked =>
    have hmem := List.mem_of_getElem? hreader
    have hset : s.loops.hasHandler = true := by
      apply haccounted.handler
      intro hnone
      rw [hnone] at hmem
      cases hmem
    have hbefore := hsound.recorded loop reader _ hreader hmarked
    have hpending : reader.pending = none := by
      by_contra hsome
      have hreading := hbefore.pending (Option.isSome_iff_ne_none.mpr hsome)
      cases hreading
    rcases hbefore.busy msg (by
      simp [Reader.message, hpending, ReadLoopStage.message]) with
      ⟨arrival, hcurrent, -, -⟩
    have hloops : s.loops.handle loop =
        { s.loops with
          loops := s.loops.loops.set loop .reading
          calls := ⟨msg.id, markedAt, s.loops.clock⟩ :: s.loops.calls } := by
      simp only [ReadLoops.handle, hmarked, hset, if_true]
    have hlt := (List.getElem?_eq_some_iff.mp hreader).1
    rw [hloops, if_pos hset]
    refine haccounted.stepped hreader rfl (history_sublist_settle reader _) ?_
      rfl rfl (fun _ h => h) haccounted.seen ?_ ?_
    · intro entry hentry
      refine (mem_history_settle hentry).imp_right ?_
      intro hfate
      simp [hfate]
    · intro mark hmark
      rcases haccounted.answered mark hmark with hcalled | habout
      · exact .inl (hcalled.stepped hreader rfl
          (history_sublist_settle reader _))
      · rcases habout with ⟨msg', markedAt', hat, hid, hsince⟩
        rcases List.getElem?_of_mem hat with ⟨other, hother⟩
        by_cases hsame : loop = other
        · -- the loop whose mark it was calls the handler now
          subst hsame
          rw [hmarked] at hother
          cases hother
          left
          refine ⟨_, List.mem_set hlt _, (arrival, .called msg s.loops.clock), ?_,
            msg, s.loops.clock, rfl, hid, ?_⟩
          · rw [Reader.history_settle hcurrent]
            exact List.mem_append_right _ List.mem_cons_self
          · exact hsince.trans
              (haccounted.marked msg markedAt (List.mem_of_getElem? hmarked))
        · right
          refine ⟨msg', markedAt', ?_, hid, hsince⟩
          apply List.mem_of_getElem?
          rw [List.getElem?_set_ne hsame]
          exact hother
    · intro msg' markedAt' hat
      rcases List.mem_or_eq_of_mem_set hat with hold | hnew
      · exact haccounted.marked msg' markedAt' hold
      · cases hnew
  next => exact haccounted

theorem Accounted.next {ttl : ℤ} {s : ReadSide} (haccounted : s.Accounted ttl)
    (hsound : s.Sound crypto codec) (hpositive : 0 < ttl)
    {action : ReadSideAction} (henabled : s.Enabled action)
    (hhandler : s.HandlerSet action) :
    (s.next crypto codec action).Accounted ttl := by
  cases action with
  | tick now =>
      exact { haccounted with
        marked := fun msg markedAt hat =>
          (haccounted.marked msg markedAt hat).trans henabled }
  | onMessage isSet => exact { haccounted with handler := fun _ => hhandler }
  | cleanup =>
      exact { haccounted with
        seen := fun id seenAt hlookup => haccounted.seen id seenAt
          (MessageDeduplicator.lookup_cleanup_eq_some_iff.mp hlookup).1 }
  | connect secret =>
      have hreaders : ∀ reader ∈ s.readers ++ [.newReader s.loops.clock secret],
          reader ∈ s.readers ∨ reader.history = [] := by
        intro reader hreader
        rcases List.mem_append.mp hreader with hold | hnew
        · exact .inl hold
        · rw [List.mem_singleton.mp hnew]
          exact .inr rfl
      refine ⟨haccounted.window, fun _ => hhandler, haccounted.seen, ?_, ?_, ?_,
        ?_⟩
      · intro mark hmark
        rcases haccounted.answered mark hmark with hcalled | habout
        · rcases hcalled with ⟨reader, hreader, hcall⟩
          exact .inl ⟨reader, List.mem_append_left _ hreader, hcall⟩
        · rcases habout with ⟨msg, markedAt, hat, hfound⟩
          exact .inr ⟨msg, markedAt, List.mem_append_left _ hat, hfound⟩
      · intro msg markedAt hat
        rcases List.mem_append.mp hat with hold | hnew
        · exact haccounted.marked msg markedAt hold
        · cases List.mem_singleton.mp hnew
      · intro reader hreader entry hentry
        rcases hreaders reader hreader with hold | hempty
        · exact haccounted.duplicates reader hold entry hentry
        · rw [hempty] at hentry
          cases hentry
      · intro reader hreader entry hentry
        rcases hreaders reader hreader with hold | hempty
        · exact haccounted.handled reader hold entry hentry
        · rw [hempty] at hentry
          cases hentry
  | read loop frame => exact haccounted.read loop frame
  | check loop => exact haccounted.check hsound hpositive loop
  | mark loop => exact haccounted.mark loop
  | handle loop => exact haccounted.handle hsound loop

/-- No message is lost on the read side while a handler is set.  A frame that a
loop has left behind was refused by the limiter, could not be decrypted, led to
a call of the handler with its message, or was dropped as a duplicate; and in
the last case a message of the same ID was passed to the handler no longer than
the window before the drop, or is about to be. -/
theorem no_message_lost (crypto : NodePrimitives) (codec : Codec) {ttl : ℤ}
    (hpositive : 0 < ttl) {s : ReadSide}
    (hrun : (machine crypto codec ttl).Run HandlerSet s) :
    ∀ reader ∈ s.readers, ∀ entry ∈ reader.history,
      reader.Fate crypto codec entry.1 entry.2 ∧
      (∀ msg, entry.2 ≠ .unhandled msg) ∧
      ∀ msg checkedAt, entry.2 = .duplicate msg checkedAt →
        s.CalledSince msg.id (checkedAt - ttl) ∨
          s.AboutToCall msg.id (checkedAt - ttl) := by
  have haccounted : s.Accounted ttl := by
    apply hrun.invariant
    · rintro start ⟨clock, rfl⟩
      constructor <;> simp
    · intro before action hbefore ih henabled hhandler
      exact ih.next (reachable_sound hbefore.reachable) hpositive henabled
        hhandler
  have hsound := reachable_sound hrun.reachable
  intro reader hreader entry hentry
  refine ⟨(hsound.recorded_of_mem hreader).fated entry hentry,
    haccounted.handled reader hreader entry hentry, ?_⟩
  intro msg checkedAt hduplicate
  rcases haccounted.duplicates reader hreader entry hentry msg checkedAt
    hduplicate with ⟨mark, hmark, hid, hwithin⟩
  rcases haccounted.answered mark hmark with hcalled | habout
  · rcases hcalled with
      ⟨other, hother, call, hcall, msg', calledAt, hfate, hid', hsince⟩
    exact .inl ⟨other, hother, call, hcall, msg', calledAt, hfate,
      hid'.trans hid, hwithin.trans hsince⟩
  · rcases habout with ⟨msg', markedAt, hat, hid', hsince⟩
    exact .inr ⟨msg', markedAt, hat, hid'.trans hid, hwithin.trans hsince⟩

end

/-! ### Sample runs -/

def sampleSecret : Bytes := [1, 2] ++ List.replicate 30 0

/-- A frame that decrypts under the sample secret. -/
def sampleFrame : Bytes :=
  1 :: List.replicate 12 0 ++ [1, 2] ++ List.replicate 14 0 ++ [1]

def sampleReadSide : ReadSide where
  loops := { dedup := { ttl := ReadLoops.sampleTtl } }

/-- One message comes on two connections; the second one is dropped while the
first loop is still about to call the handler. -/
def sampleFrames : List ReadSideAction :=
  [.onMessage true, .connect sampleSecret, .connect sampleSecret,
    .read 0 sampleFrame, .check 0, .mark 0, .read 1 sampleFrame, .check 1,
    .read 1 [], .handle 0]

theorem sampleFrames_run :
    (machine samplePrimitives (sampleCodec 1 2) ReadLoops.sampleTtl).Run
      HandlerSet
      ((machine samplePrimitives (sampleCodec 1 2)
        ReadLoops.sampleTtl).replay sampleReadSide sampleFrames) := by
  have hreplays : (machine samplePrimitives (sampleCodec 1 2)
      ReadLoops.sampleTtl).Replays HandlerSet sampleReadSide sampleFrames := by
    decide +kernel
  have hinitial : (machine samplePrimitives (sampleCodec 1 2)
      ReadLoops.sampleTtl).initial sampleReadSide := ⟨0, rfl⟩
  exact Machine.Run.replay (.start hinitial) hreplays

def sampleMessage : Message := { type := .handshake, payload := some [1] }

theorem no_message_lost_duplicate :
    let s := (machine samplePrimitives (sampleCodec 1 2)
      ReadLoops.sampleTtl).replay sampleReadSide sampleFrames
    (s.readers.map fun reader => reader.history.map Prod.snd) =
      [[.called sampleMessage 0], [.duplicate sampleMessage 0, .unreadable]] ∧
    (s.CalledSince sampleMessage.id (0 - ReadLoops.sampleTtl) ∨
      s.AboutToCall sampleMessage.id (0 - ReadLoops.sampleTtl)) := by
  have hfates : ((machine samplePrimitives (sampleCodec 1 2)
      ReadLoops.sampleTtl).replay sampleReadSide sampleFrames).readers.map
        (fun reader => reader.history.map Prod.snd) =
      [[.called sampleMessage 0],
        [.duplicate sampleMessage 0, .unreadable]] := by decide +kernel
  refine ⟨hfates, ?_⟩
  have hmem : ∃ reader ∈ ((machine samplePrimitives (sampleCodec 1 2)
      ReadLoops.sampleTtl).replay sampleReadSide sampleFrames).readers,
      ∃ entry ∈ reader.history, entry.2 = .duplicate sampleMessage 0 := by
    decide +kernel
  rcases hmem with ⟨reader, hreader, entry, hentry, hduplicate⟩
  exact (no_message_lost samplePrimitives (sampleCodec 1 2) (by decide)
    sampleFrames_run reader hreader entry hentry).2.2 sampleMessage 0 hduplicate

theorem handler_calls_limited_sample :
    ∃ reader ∈ ((machine samplePrimitives (sampleCodec 1 2)
      ReadLoops.sampleTtl).replay sampleReadSide sampleFrames).readers,
      reader.callsWithin 0 0 = 1 ∧
        (reader.callsWithin 0 0 : ℤ) ≤
          101 + 50 * PeerRateLimiter.secondsUp 0 0 := by
  have hmem : ∃ reader ∈ ((machine samplePrimitives (sampleCodec 1 2)
      ReadLoops.sampleTtl).replay sampleReadSide sampleFrames).readers,
      reader.callsWithin 0 0 = 1 := by decide +kernel
  rcases hmem with ⟨reader, hreader, hone⟩
  exact ⟨reader, hreader, hone, handler_calls_limited samplePrimitives
    (sampleCodec 1 2) sampleFrames_run.reachable hreader (le_refl 0)⟩

end ReadSide

end GoP2P.Node
