import GoP2P.MessageDelivery
import GoP2P.RateLimiting

/-!
# The read side of a transport

The whole of `readLoop` on any number of connections at once: a frame is read,
counted by the connection's rate limiter, decrypted, looked up in the shared
deduplicator, marked and passed to the handler.  What a loop does with a frame
before it asks the deduplicator touches nothing that others see, so it is one
step here; the rest are the steps of `ReadLoops`.  Every frame that a loop has
left behind met one fate, and the record of a loop lists its frames in the
order in which they were read.
-/

namespace GoP2P.Node

/-! ### The machine -/

/-- A frame with the instant at which it was read and what the rate limiter
said then. -/
structure Arrival where
  readAt : Time
  frame : Bytes
  allowed : Bool
  deriving DecidableEq, Repr

inductive FrameFate where
  | limited
  | unreadable
  | duplicate (msg : Message) (checkedAt : Time)
  | unhandled (msg : Message)
  | called (msg : Message) (calledAt : Time)
  deriving DecidableEq, Repr

def FrameFate.calledAt : FrameFate → Option Time
  | .called _ calledAt => some calledAt
  | _ => none

/-- The read loop of a connection.  `pending` is the message that it has
decrypted and not asked for yet.  `current` and `history` are ghost: the frame
that the loop is at, and those behind it, oldest first. -/
structure Reader where
  secret : Bytes
  created : Time
  limiter : PeerRateLimiter
  pending : Option Message := none
  current : Option Arrival := none
  history : List (Arrival × FrameFate) := []
  deriving DecidableEq, Repr

/-- The `i`-th reader is the `i`-th of the loops. -/
structure ReadSide where
  loops : ReadLoops
  readers : List Reader := []

inductive ReadSideAction where
  | tick (now : Time)
  | onMessage (isSet : Bool)
  | cleanup
  | connect (secret : Bytes)
  | read (loop : ℕ) (frame : Bytes)
  | check (loop : ℕ)
  | mark (loop : ℕ)
  | handle (loop : ℕ)
  deriving DecidableEq, Repr

namespace Reader

/-- A connection with the limits that `Connect` and `handleWSUpgrade` give
it. -/
def newReader (now : Time) (secret : Bytes) : Reader :=
  { secret := secret, created := now, limiter := newPeerRateLimiter now 100 50 }

/-- The loop is done with its frame. -/
def settle (r : Reader) (fate : FrameFate) : Reader :=
  { r with
    pending := none
    current := none
    history := r.history ++ (r.current.map fun arrival => (arrival, fate)).toList }

def arrivals (r : Reader) : List Arrival :=
  r.history.map Prod.fst ++ r.current.toList

section

variable (crypto : NodePrimitives) (codec : Codec)

def decode (r : Reader) (frame : Bytes) : Option Message :=
  match decryptMessage crypto codec frame r.secret with
  | .returned msg => some msg
  | _ => none

/-- `ReadMessage`, `Allow` and `decryptMessage`. -/
def read (r : Reader) (now : Time) (frame : Bytes) : Reader :=
  let answer := r.limiter.allow intSeconds now
  let r : Reader :=
    { r with
      limiter := answer.2
      current := some { readAt := now, frame := frame, allowed := answer.1 } }
  if !answer.1 then
    r.settle .limited
  else
    match r.decode crypto codec frame with
    | some msg => { r with pending := some msg }
    | none => r.settle .unreadable

end

end Reader

namespace ReadSide

def setReader (s : ReadSide) (loop : ℕ) (reader : Reader) : ReadSide :=
  { s with readers := s.readers.set loop reader }

section

variable (crypto : NodePrimitives) (codec : Codec)

def read (s : ReadSide) (loop : ℕ) (frame : Bytes) : ReadSide :=
  match s.readers[loop]?, s.loops.loops[loop]? with
  | some reader, some .reading =>
      if reader.pending.isSome then s
      else s.setReader loop (reader.read crypto codec s.loops.clock frame)
  | _, _ => s

def check (s : ReadSide) (loop : ℕ) : ReadSide :=
  match s.readers[loop]? with
  | none => s
  | some reader =>
      match reader.pending with
      | none => s
      | some msg =>
          { loops := s.loops.check loop msg
            readers := s.readers.set loop
              (if (s.loops.dedup.isDuplicate s.loops.clock msg.id).1 then
                reader.settle (.duplicate msg s.loops.clock)
              else { reader with pending := none }) }

def mark (s : ReadSide) (loop : ℕ) : ReadSide :=
  { s with loops := s.loops.mark loop }

def handle (s : ReadSide) (loop : ℕ) : ReadSide :=
  match s.readers[loop]?, s.loops.loops[loop]? with
  | some reader, some (.marked msg _) =>
      { loops := s.loops.handle loop
        readers := s.readers.set loop
          (reader.settle
            (if s.loops.hasHandler then .called msg s.loops.clock
              else .unhandled msg)) }
  | _, _ => s

def next (s : ReadSide) : ReadSideAction → ReadSide
  | .tick now => { s with loops := s.loops.next (.tick now) }
  | .onMessage isSet => { s with loops := s.loops.next (.onMessage isSet) }
  | .cleanup => { s with loops := s.loops.next .cleanup }
  | .connect secret =>
      { loops := s.loops.next .start
        readers := s.readers ++ [.newReader s.loops.clock secret] }
  | .read loop frame => s.read crypto codec loop frame
  | .check loop => s.check loop
  | .mark loop => s.mark loop
  | .handle loop => s.handle loop

def Enabled (s : ReadSide) : ReadSideAction → Prop
  | .tick now => s.loops.clock ≤ now
  | _ => True

instance (s : ReadSide) (action : ReadSideAction) :
    Decidable (s.Enabled action) := by
  unfold Enabled
  split <;> infer_instance

def machine (ttl : ℤ) : Machine ReadSide ReadSideAction where
  initial s := ∃ clock, s = { loops := { dedup := { ttl := ttl }, clock := clock } }
  enabled := Enabled
  next := next crypto codec

instance (ttl : ℤ) (s : ReadSide) (action : ReadSideAction) :
    Decidable ((machine crypto codec ttl).enabled s action) :=
  inferInstanceAs (Decidable (s.Enabled action))

end

/-! ### The loops below -/

section

variable (crypto : NodePrimitives) (codec : Codec)

/-- A step of the read side is a step of the loops or leaves them alone. -/
theorem next_loops (s : ReadSide) (action : ReadSideAction) :
    (s.next crypto codec action).loops = s.loops ∨
      ∃ step, (s.Enabled action → s.loops.Enabled step) ∧
        (s.next crypto codec action).loops = s.loops.next step := by
  cases action with
  | tick now => exact .inr ⟨.tick now, id, rfl⟩
  | onMessage isSet => exact .inr ⟨.onMessage isSet, fun _ => trivial, rfl⟩
  | cleanup => exact .inr ⟨.cleanup, fun _ => trivial, rfl⟩
  | connect secret => exact .inr ⟨.start, fun _ => trivial, rfl⟩
  | read loop frame =>
      left
      dsimp only [next, read]
      split
      · split <;> rfl
      · rfl
  | check loop =>
      dsimp only [next, check]
      split
      · exact .inl rfl
      · split
        · exact .inl rfl
        next msg _ => exact .inr ⟨.check loop msg, fun _ => trivial, rfl⟩
  | mark loop => exact .inr ⟨.mark loop, fun _ => trivial, rfl⟩
  | handle loop =>
      dsimp only [next, handle]
      split
      · exact .inr ⟨.handle loop, fun _ => trivial, rfl⟩
      · exact .inl rfl

/-- A step of the read side that is taken with or without a limiter and a
cipher in front of them is one the loops can take. -/
theorem loops_reachable {ttl : ℤ} {s : ReadSide}
    (hreachable : (machine crypto codec ttl).Reachable s) :
    (ReadLoops.machine ttl).Reachable s.loops := by
  apply hreachable.invariant
  · rintro start ⟨clock, rfl⟩
    exact .start ⟨clock, rfl⟩
  · intro before action _ ih henabled _
    change (ReadLoops.machine ttl).Reachable
      (before.next crypto codec action).loops
    rcases next_loops crypto codec before action with
      hsame | ⟨step, hstep, hnext⟩
    · rw [hsame]
      exact ih
    · rw [hnext]
      exact .step ih (hstep henabled) trivial

end

end ReadSide

/-! ### The record of a loop -/

namespace PeerRateLimiter

variable (r : PeerRateLimiter) (seconds : ℤ → ℤ) (instants : List Time)
  (now : Time)

theorem allowAll_concat :
    r.allowAll seconds (instants ++ [now]) =
      ((r.allowAll seconds instants).allow seconds now).2 := by
  unfold allowAll
  rw [List.foldl_append]
  rfl

theorem answers_concat :
    r.answers seconds (instants ++ [now]) =
      r.answers seconds instants ++
        [(now, ((r.allowAll seconds instants).allow seconds now).1)] := by
  induction instants generalizing r with
  | nil => rfl
  | cons first later ih =>
      rw [List.cons_append, answers, ih]
      rfl

end PeerRateLimiter

def ReadLoopStage.message : ReadLoopStage → Option Message
  | .reading => none
  | .checked msg => some msg
  | .marked msg _ => some msg

namespace Reader

/-- The message that a loop is at. -/
def message (r : Reader) (stage : ReadLoopStage) : Option Message :=
  r.pending <|> stage.message

section

variable (crypto : NodePrimitives) (codec : Codec)

/-- What a fate says of the frame that met it. -/
def Fate (r : Reader) (arrival : Arrival) : FrameFate → Prop
  | .limited => arrival.allowed = false
  | .unreadable =>
      arrival.allowed = true ∧ r.decode crypto codec arrival.frame = none
  | .duplicate msg checkedAt =>
      arrival.allowed = true ∧
        r.decode crypto codec arrival.frame = some msg ∧
          arrival.readAt ≤ checkedAt
  | .unhandled msg =>
      arrival.allowed = true ∧ r.decode crypto codec arrival.frame = some msg
  | .called msg calledAt =>
      arrival.allowed = true ∧
        r.decode crypto codec arrival.frame = some msg ∧
          arrival.readAt ≤ calledAt

/-- What a loop's record says when the clock shows `now`. -/
structure Recorded (now : Time) (r : Reader) : Prop where
  limiter : r.limiter = (newPeerRateLimiter r.created 100 50).allowAll intSeconds
    (r.arrivals.map (·.readAt))
  answered : (r.arrivals.map fun arrival => (arrival.readAt, arrival.allowed)) =
    (newPeerRateLimiter r.created 100 50).answers intSeconds
      (r.arrivals.map (·.readAt))
  times : (r.created :: r.arrivals.map (·.readAt)).Pairwise (· ≤ ·)
  past : ∀ instant ∈ r.created :: r.arrivals.map (·.readAt), instant ≤ now
  fated : ∀ entry ∈ r.history, r.Fate crypto codec entry.1 entry.2
  called : ∀ entry ∈ r.history, ∀ calledAt, entry.2.calledAt = some calledAt →
    calledAt ≤ now
  /-- A loop calls the handler for a frame before it reads the next one. -/
  sequential : r.history.Pairwise fun earlier later =>
    ∀ calledAt, earlier.2.calledAt = some calledAt →
      calledAt ≤ later.1.readAt
  current : ∀ arrival, r.current = some arrival → ∀ entry ∈ r.history,
    ∀ calledAt, entry.2.calledAt = some calledAt → calledAt ≤ arrival.readAt

/-- The invariant of a loop that stands at `stage`. -/
structure Sound (now : Time) (stage : ReadLoopStage) (r : Reader) : Prop
    extends Recorded crypto codec now r where
  pending : r.pending.isSome = true → stage = .reading
  idle : r.message stage = none → r.current = none
  busy : ∀ msg, r.message stage = some msg → ∃ arrival,
    r.current = some arrival ∧ arrival.allowed = true ∧
      r.decode crypto codec arrival.frame = some msg

end

section

variable {crypto : NodePrimitives} {codec : Codec} {now : Time}
  {stage : ReadLoopStage} {r : Reader}

theorem sound_new (now : Time) (secret : Bytes) :
    (newReader now secret).Sound crypto codec now .reading := by
  refine ⟨⟨?_, ?_, ?_, ?_, ?_, ?_, ?_, ?_⟩, ?_, ?_, ?_⟩ <;>
    simp [newReader, arrivals, message, ReadLoopStage.message,
      PeerRateLimiter.allowAll, PeerRateLimiter.answers]

theorem Sound.later (hsound : r.Sound crypto codec now stage) {later : Time}
    (hlater : now ≤ later) : r.Sound crypto codec later stage :=
  { hsound with
    past := fun instant hinstant => (hsound.past instant hinstant).trans hlater
    called := fun entry hentry calledAt hcalled =>
      (hsound.called entry hentry calledAt hcalled).trans hlater }

/-- A loop may stand elsewhere with the same message. -/
theorem Sound.moved (hsound : r.Sound crypto codec now stage)
    {stage' : ReadLoopStage} (hpending : r.pending = none)
    (hmessage : stage'.message = stage.message) :
    r.Sound crypto codec now stage' := by
  have hsame : r.message stage' = r.message stage := by
    simp [message, hpending, hmessage]
  exact { hsound with
    pending := fun hsome => by simp [hpending] at hsome
    idle := fun hnone => hsound.idle (hsame ▸ hnone)
    busy := fun msg hmsg => hsound.busy msg (hsame ▸ hmsg) }

/-- The message that was pending is now the one of the stage. -/
theorem Sound.passed (hsound : r.Sound crypto codec now .reading)
    {msg : Message} (hpending : r.pending = some msg) :
    ({ r with pending := none } : Reader).Sound crypto codec now
      (.checked msg) := by
  have hmessage : r.message .reading = some msg := by
    simp [message, hpending]
  exact { hsound with
    pending := fun hsome => by cases hsome
    idle := fun hnone => by cases hnone
    busy := fun msg' hmsg' => by
      cases hmsg'
      exact hsound.busy msg hmessage }

theorem arrivals_settle {arrival : Arrival} (hcurrent : r.current = some arrival)
    (fate : FrameFate) : (r.settle fate).arrivals = r.arrivals := by
  simp [settle, arrivals, hcurrent]

theorem history_settle {arrival : Arrival} (hcurrent : r.current = some arrival)
    (fate : FrameFate) :
    (r.settle fate).history = r.history ++ [(arrival, fate)] := by
  simp [settle, hcurrent]

/-- A loop that is at a frame is done with it. -/
theorem Recorded.settle (hrecorded : r.Recorded crypto codec now)
    {arrival : Arrival} (hcurrent : r.current = some arrival)
    {fate : FrameFate} (hfate : r.Fate crypto codec arrival fate)
    (hcalled : ∀ calledAt, fate.calledAt = some calledAt → calledAt ≤ now) :
    (r.settle fate).Sound crypto codec now .reading := by
  have harrivals := arrivals_settle hcurrent fate
  have hhistory := history_settle hcurrent fate
  refine ⟨⟨?_, ?_, ?_, ?_, ?_, ?_, ?_, ?_⟩, fun _ => rfl, fun _ => rfl, ?_⟩
  · rw [harrivals]
    exact hrecorded.limiter
  · rw [harrivals]
    exact hrecorded.answered
  · rw [harrivals]
    exact hrecorded.times
  · rw [harrivals]
    exact hrecorded.past
  · intro entry hentry
    rw [hhistory, List.mem_append, List.mem_singleton] at hentry
    rcases hentry with hentry | rfl
    · exact hrecorded.fated entry hentry
    · exact hfate
  · intro entry hentry calledAt hat
    rw [hhistory, List.mem_append, List.mem_singleton] at hentry
    rcases hentry with hentry | rfl
    · exact hrecorded.called entry hentry calledAt hat
    · exact hcalled calledAt hat
  · rw [hhistory, List.pairwise_append]
    refine ⟨hrecorded.sequential, List.pairwise_singleton _ _, ?_⟩
    intro earlier hearlier later hlater calledAt hat
    rw [List.mem_singleton] at hlater
    subst hlater
    exact hrecorded.current arrival hcurrent earlier hearlier calledAt hat
  · intro other hother
    cases hother
  · intro msg hmsg
    cases hmsg

/-- A frame comes to a loop that is at none. -/
theorem Recorded.arrived (hrecorded : r.Recorded crypto codec now)
    (hcurrent : r.current = none) (frame : Bytes) (pending : Option Message) :
    ({ r with
        limiter := (r.limiter.allow intSeconds now).2
        pending := pending
        current := some
          { readAt := now, frame := frame,
            allowed := (r.limiter.allow intSeconds now).1 } } : Reader).Recorded crypto
      codec now := by
  have harrivals : r.arrivals = r.history.map Prod.fst := by
    simp [arrivals, hcurrent]
  have hlimiter := hrecorded.limiter
  have hanswered := hrecorded.answered
  have htimes := hrecorded.times
  have hpast := hrecorded.past
  rw [harrivals] at hlimiter hanswered htimes hpast
  refine ⟨?_, ?_, ?_, ?_, hrecorded.fated, hrecorded.called,
    hrecorded.sequential, ?_⟩
  · simp only [arrivals, Option.toList_some, List.map_append, List.map_cons,
      List.map_nil]
    rw [PeerRateLimiter.allowAll_concat, ← hlimiter]
  · simp only [arrivals, Option.toList_some, List.map_append, List.map_cons,
      List.map_nil]
    rw [PeerRateLimiter.answers_concat, ← hlimiter, hanswered]
  · simp only [arrivals, Option.toList_some, List.map_append, List.map_cons,
      List.map_nil]
    rw [← List.cons_append, List.pairwise_append]
    refine ⟨htimes, List.pairwise_singleton _ _, ?_⟩
    intro instant hinstant later hlater
    rw [List.mem_singleton.mp hlater]
    exact hpast instant hinstant
  · simp only [arrivals, Option.toList_some, List.map_append, List.map_cons,
      List.map_nil]
    intro instant hinstant
    rw [← List.cons_append, List.mem_append, List.mem_singleton] at hinstant
    rcases hinstant with hinstant | rfl
    · exact hpast instant hinstant
    · exact le_refl instant
  · intro arrival harrival entry hentry calledAt hat
    cases harrival
    exact hrecorded.called entry hentry calledAt hat

theorem Sound.read (hsound : r.Sound crypto codec now .reading)
    (hpending : r.pending = none) (frame : Bytes) :
    (r.read crypto codec now frame).Sound crypto codec now .reading := by
  have hcurrent : r.current = none := by
    apply hsound.idle
    simp [message, hpending, ReadLoopStage.message]
  have harrived := hsound.toRecorded.arrived hcurrent frame
  unfold Reader.read
  dsimp only
  split
  next hlimited =>
    have hrefused : (r.limiter.allow intSeconds now).1 = false := by
      simpa using hlimited
    exact (harrived r.pending).settle rfl hrefused (fun _ h => by cases h)
  next hadmitted =>
    have hallowed : (r.limiter.allow intSeconds now).1 = true := by
      simpa using hadmitted
    split
    next msg hdecoded =>
      refine ⟨harrived (some msg), fun _ => rfl, ?_, ?_⟩
      · intro hnone
        cases hnone
      · intro msg' hmsg'
        cases hmsg'
        exact ⟨_, rfl, hallowed, hdecoded⟩
    next hunreadable =>
      exact (harrived r.pending).settle rfl ⟨hallowed, hunreadable⟩
        (fun _ h => by cases h)

end

end Reader

/-! ### All loops -/

namespace ReadSide

section

variable {crypto : NodePrimitives} {codec : Codec}

/-- Every loop keeps its record. -/
structure Sound (crypto : NodePrimitives) (codec : Codec) (s : ReadSide) :
    Prop where
  paired : s.readers.length = s.loops.loops.length
  recorded : ∀ (loop : ℕ) (reader : Reader) (stage : ReadLoopStage),
    s.readers[loop]? = some reader → s.loops.loops[loop]? = some stage →
      reader.Sound crypto codec s.loops.clock stage

/-- One loop takes a step with its reader. -/
theorem Sound.stepped {s s' : ReadSide} (hsound : s.Sound crypto codec)
    {loop : ℕ} {reader : Reader} (stage : ReadLoopStage)
    (hreaders : s'.readers = s.readers.set loop reader)
    (hloops : s'.loops.loops = s.loops.loops.set loop stage)
    (hclock : s'.loops.clock = s.loops.clock)
    (hreader : reader.Sound crypto codec s.loops.clock stage) :
    s'.Sound crypto codec := by
  constructor
  · rw [hreaders, hloops, List.length_set, List.length_set]
    exact hsound.paired
  · intro other reader' stage' hother hstage
    rw [hreaders] at hother
    rw [hloops] at hstage
    rw [hclock]
    rcases getElem?_set_cases hother with ⟨rfl, rfl⟩ | ⟨hne, hbefore⟩
    · rcases getElem?_set_cases hstage with ⟨-, rfl⟩ | ⟨hne, -⟩
      · exact hreader
      · exact absurd rfl hne
    · rw [List.getElem?_set_ne (Ne.symm hne)] at hstage
      exact hsound.recorded other reader' stage' hbefore hstage

theorem Sound.read {s : ReadSide} (hsound : s.Sound crypto codec) (loop : ℕ)
    (frame : Bytes) : (s.read crypto codec loop frame).Sound crypto codec := by
  unfold ReadSide.read
  split
  next reader hreader hstage =>
    split
    · exact hsound
    next hidle =>
      have hpending : reader.pending = none := by simpa using hidle
      have hbefore := hsound.recorded loop reader .reading hreader hstage
      refine hsound.stepped .reading rfl ?_ rfl (hbefore.read hpending frame)
      exact (set_eq_of_getElem? hstage).symm
  next => exact hsound

theorem Sound.check {s : ReadSide} (hsound : s.Sound crypto codec)
    (loop : ℕ) : (s.check loop).Sound crypto codec := by
  unfold ReadSide.check
  split
  · exact hsound
  next reader hreader =>
    split
    · exact hsound
    next msg hpending =>
      have hlt : loop < s.loops.loops.length := by
        rw [← hsound.paired]
        exact (List.getElem?_eq_some_iff.mp hreader).1
      have hbefore := hsound.recorded loop reader _ hreader
        (List.getElem?_eq_getElem hlt)
      have hreading : s.loops.loops[loop] = .reading :=
        hbefore.pending (by simp [hpending])
      have hstage : s.loops.loops[loop]? = some .reading := by
        rw [List.getElem?_eq_getElem hlt, hreading]
      rw [hreading] at hbefore
      have hmessage : reader.message .reading = some msg := by
        simp [Reader.message, hpending]
      cases hduplicate : (s.loops.dedup.isDuplicate s.loops.clock msg.id).1 with
      | true =>
          rcases hbefore.busy msg hmessage with
            ⟨arrival, hcurrent, hallowed, hdecoded⟩
          have hread : arrival.readAt ≤ s.loops.clock := by
            apply hbefore.past
            simp [Reader.arrivals, hcurrent]
          refine hsound.stepped .reading rfl ?_ ?_
            (hbefore.toRecorded.settle hcurrent ⟨hallowed, hdecoded, hread⟩
              (fun _ h => by cases h))
          · simp only [ReadLoops.check, hstage, hduplicate, if_true]
            exact (set_eq_of_getElem? hstage).symm
          · simp only [ReadLoops.check, hstage]
      | false =>
          refine hsound.stepped (.checked msg) rfl ?_ ?_
            (hbefore.passed hpending)
          · simp only [ReadLoops.check, hstage, hduplicate, Bool.false_eq_true,
              if_false]
          · simp only [ReadLoops.check, hstage]

theorem Sound.mark {s : ReadSide} (hsound : s.Sound crypto codec)
    (loop : ℕ) : (s.mark loop).Sound crypto codec := by
  unfold ReadSide.mark ReadLoops.mark
  split
  next msg hchecked =>
    have hlt : loop < s.readers.length := by
      rw [hsound.paired]
      exact (List.getElem?_eq_some_iff.mp hchecked).1
    have hreader := List.getElem?_eq_getElem hlt
    have hbefore := hsound.recorded loop _ _ hreader hchecked
    have hpending : (s.readers[loop]).pending = none := by
      by_contra hsome
      have hreading := hbefore.pending
        (Option.isSome_iff_ne_none.mpr hsome)
      cases hreading
    exact hsound.stepped _ (set_eq_of_getElem? hreader).symm rfl rfl
      (hbefore.moved hpending rfl)
  next => exact hsound

theorem Sound.handle {s : ReadSide} (hsound : s.Sound crypto codec)
    (loop : ℕ) : (s.handle loop).Sound crypto codec := by
  unfold ReadSide.handle
  split
  next reader msg markedAt hreader hmarked =>
    have hbefore := hsound.recorded loop reader _ hreader hmarked
    have hpending : reader.pending = none := by
      by_contra hsome
      have hreading := hbefore.pending
        (Option.isSome_iff_ne_none.mpr hsome)
      cases hreading
    have hmessage : reader.message (.marked msg markedAt) = some msg := by
      simp [Reader.message, hpending, ReadLoopStage.message]
    rcases hbefore.busy msg hmessage with
      ⟨arrival, hcurrent, hallowed, hdecoded⟩
    have hread : arrival.readAt ≤ s.loops.clock := by
      apply hbefore.past
      simp [Reader.arrivals, hcurrent]
    refine hsound.stepped .reading rfl ?_ ?_
      (hbefore.toRecorded.settle hcurrent ?_ ?_)
    · simp only [ReadLoops.handle, hmarked]
    · simp only [ReadLoops.handle, hmarked]
    · split
      · exact ⟨hallowed, hdecoded, hread⟩
      · exact ⟨hallowed, hdecoded⟩
    · intro calledAt hat
      split at hat
      · cases hat
        exact le_refl _
      · cases hat
  next => exact hsound

theorem Sound.next {s : ReadSide} (hsound : s.Sound crypto codec)
    {action : ReadSideAction} (henabled : s.Enabled action) :
    (s.next crypto codec action).Sound crypto codec := by
  cases action with
  | tick now =>
      refine ⟨hsound.paired, ?_⟩
      intro loop reader stage hreader hstage
      exact (hsound.recorded loop reader stage hreader hstage).later henabled
  | onMessage | cleanup => exact ⟨hsound.paired, hsound.recorded⟩
  | connect secret =>
      constructor
      · simp [ReadSide.next, ReadLoops.next, hsound.paired]
      · intro loop reader stage hreader hstage
        rcases getElem?_concat_cases hreader with hbefore | ⟨hlast, rfl⟩
        · have hlt := (List.getElem?_eq_some_iff.mp hbefore).1
          rw [hsound.paired] at hlt
          rw [show (s.next crypto codec (.connect secret)).loops.loops =
            s.loops.loops ++ [.reading] from rfl,
            List.getElem?_append_left hlt] at hstage
          exact hsound.recorded loop reader stage hbefore hstage
        · rcases getElem?_concat_cases hstage with hbefore | ⟨-, rfl⟩
          · have hlt := (List.getElem?_eq_some_iff.mp hbefore).1
            rw [← hsound.paired] at hlt
            omega
          · exact Reader.sound_new _ secret
  | read loop frame => exact hsound.read loop frame
  | check loop => exact hsound.check loop
  | mark loop => exact hsound.mark loop
  | handle loop => exact hsound.handle loop

theorem reachable_sound {ttl : ℤ} {s : ReadSide}
    (hreachable : (machine crypto codec ttl).Reachable s) :
    s.Sound crypto codec := by
  apply hreachable.invariant
  · rintro start ⟨clock, rfl⟩
    exact ⟨rfl, by simp⟩
  · intro before action _ hbefore henabled _
    exact hbefore.next henabled

end

end ReadSide

end GoP2P.Node
