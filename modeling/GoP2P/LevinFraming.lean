import GoP2P.LevinConnection
import GoP2P.Runs

/-!
# Concurrent writers on a Levin connection

Any number of goroutines call `WritePacket` and `WriteResponse` on one
connection.  Each call takes the write mutex, sets the deadline, writes the
header and then the payload, and returns with the result of the first of these
that fails.  A write that fails has put some part of its bytes on the wire.

The mutex orders the calls, so the wire is what one call after the other has
put there.  As long as only the last of them may be cut short, a reader gets
the packets of the calls whose frame is whole, in that order.  A call that
fails within its frame and is followed by another leaves the reader out of
step, because the connection stays usable.
-/

namespace GoP2P.Levin

/-! ## The machine -/

inductive WriteStep where
  | waiting
  | locked
  | header
  | payload
  | returning (ok : Bool)
  deriving DecidableEq, Repr

/-- A `writeFrame` call in progress.  The counts that `conn.Write` returns add
up to `written`; the source drops them. -/
structure WriteFrame where
  call : WriteCall
  step : WriteStep := .waiting
  written : ℕ := 0
  deriving DecidableEq, Repr

structure Goroutine where
  calls : List WriteCall := []
  current : Option WriteFrame := none
  deriving DecidableEq, Repr

/-- How much of its frame a call has put on the wire. -/
structure Attempt where
  writer : ℕ
  call : WriteCall
  written : ℕ
  deriving DecidableEq, Repr

/-- `returned` lists the calls that have returned, with their results. -/
structure WriteSide where
  goroutines : ℕ → Goroutine := fun _ => {}
  writeMu : Option ℕ := none
  returned : List (Attempt × Bool) := []
  wire : Bytes := []

/-- Whether setting the deadline goes well, and after how many bytes a write
fails if it does, are up to the network. -/
inductive WriteAction where
  | call (writer : ℕ) (call : WriteCall)
  | lock (writer : ℕ)
  | setDeadline (writer : ℕ) (ok : Bool)
  | write (writer : ℕ) (failed : Option ℕ)
  | unlock (writer : ℕ)
  deriving DecidableEq, Repr

/-- What the next `conn.Write` is given. -/
def WriteFrame.buffer (frame : WriteFrame) : Bytes :=
  match frame.step with
  | .header => encodeHeader frame.call.header
  | .payload => frame.call.payload
  | _ => []

def putOnWire : Option ℕ → Bytes → Bytes
  | none, buffer => buffer
  | some written, buffer => buffer.take written

def WriteFrame.write (frame : WriteFrame) (failed : Option ℕ) : WriteFrame :=
  { frame with
    step :=
      match failed, frame.step with
      | some _, _ => .returning false
      | none, .header =>
          -- an empty payload is not written
          if frame.call.payload.length > 0 then .payload else .returning true
      | none, _ => .returning true
    written := frame.written + (putOnWire failed frame.buffer).length }

def WriteSide.setFrame (s : WriteSide) (writer : ℕ)
    (frame : Option WriteFrame) : WriteSide :=
  { s with
    goroutines := Function.update s.goroutines writer
      { s.goroutines writer with current := frame } }

def WriteSide.stepOf (s : WriteSide) (writer : ℕ) : Option WriteStep :=
  (s.goroutines writer).current.map WriteFrame.step

def WriteSide.next (s : WriteSide) : WriteAction → WriteSide
  | .call writer call =>
      { s with
        goroutines := Function.update s.goroutines writer
          { calls := (s.goroutines writer).calls ++ [call]
            current := some { call := call } } }
  | .lock writer =>
      match (s.goroutines writer).current with
      | none => s
      | some frame =>
          { s.setFrame writer (some { frame with step := .locked }) with
            writeMu := some writer }
  | .setDeadline writer ok =>
      match (s.goroutines writer).current with
      | none => s
      | some frame =>
          s.setFrame writer (some { frame with
            step := if ok then .header else .returning false })
  | .write writer failed =>
      match (s.goroutines writer).current with
      | none => s
      | some frame =>
          { s.setFrame writer (some (frame.write failed)) with
            wire := s.wire ++ putOnWire failed frame.buffer }
  | .unlock writer =>
      match (s.goroutines writer).current with
      | none => s
      | some frame =>
          { s.setFrame writer none with
            writeMu := none
            returned := s.returned ++
              [(⟨writer, frame.call, frame.written⟩,
                frame.step == .returning true)] }

def WriteSide.Enabled (s : WriteSide) : WriteAction → Prop
  | .call writer _ => (s.goroutines writer).current = none
  | .lock writer => s.writeMu = none ∧ s.stepOf writer = some .waiting
  | .setDeadline writer _ => s.stepOf writer = some .locked
  | .write writer _ =>
      s.stepOf writer = some .header ∨ s.stepOf writer = some .payload
  | .unlock writer =>
      s.stepOf writer = some (.returning true) ∨
        s.stepOf writer = some (.returning false)

instance (s : WriteSide) : DecidablePred s.Enabled
  | .call _ _ => inferInstanceAs (Decidable (_ = _))
  | .lock _ => inferInstanceAs (Decidable (_ ∧ _))
  | .setDeadline _ _ => inferInstanceAs (Decidable (_ = _))
  | .write _ _ => inferInstanceAs (Decidable (_ ∨ _))
  | .unlock _ => inferInstanceAs (Decidable (_ ∨ _))

def writeMachine : Machine WriteSide WriteAction where
  initial s := s = {}
  enabled := WriteSide.Enabled
  next := WriteSide.next

instance (s : WriteSide) (action : WriteAction) :
    Decidable (writeMachine.enabled s action) :=
  inferInstanceAs (Decidable (s.Enabled action))

/-! ## The wire as what the calls have put on it -/

/-- The whole frame is on the wire. -/
def Attempt.Whole (attempt : Attempt) : Prop :=
  attempt.call.frame.length ≤ attempt.written

instance : DecidablePred Attempt.Whole := fun _ =>
  inferInstanceAs (Decidable (_ ≤ _))

def Attempt.bytes (attempt : Attempt) : Bytes :=
  attempt.call.frame.take attempt.written

theorem Attempt.Whole.bytes_eq {attempt : Attempt} (hwhole : attempt.Whole) :
    attempt.bytes = attempt.call.frame :=
  List.take_of_length_le hwhole

/-- The call that holds the mutex. -/
def WriteSide.holding (s : WriteSide) : List Attempt :=
  match s.writeMu with
  | none => []
  | some writer =>
      (s.goroutines writer).current.toList.map fun frame =>
        ⟨writer, frame.call, frame.written⟩

/-- The calls that have had the mutex, in that order. -/
def WriteSide.attempts (s : WriteSide) : List Attempt :=
  s.returned.map Prod.fst ++ s.holding

def WriteFrame.Placed (frame : WriteFrame) : Prop :=
  match frame.step with
  | .waiting | .locked | .header => frame.written = 0
  | .payload => frame.written = headerSize ∧ frame.call.payload ≠ []
  | .returning true => frame.call.frame.length ≤ frame.written
  | .returning false => True

/-- The goroutine is past the mutex. -/
def Goroutine.Holds (g : Goroutine) : Prop :=
  ∃ frame, g.current = some frame ∧ frame.step ≠ .waiting

/-- A goroutine is past the mutex exactly if it holds it, and the calls it has
made are those that have returned, in their order, and the one in progress. -/
structure Goroutine.Orderly (g : Goroutine) (writer : ℕ) (writeMu : Option ℕ)
    (returned : List Attempt) : Prop where
  placed : ∀ ⦃frame⦄, g.current = some frame → frame.Placed
  mutex : writeMu = some writer ↔ g.Holds
  calls : g.calls =
    (returned.filter (·.writer = writer)).map Attempt.call ++
      g.current.toList.map WriteFrame.call

structure WriteSide.Orderly (s : WriteSide) : Prop where
  goroutines : ∀ writer, (s.goroutines writer).Orderly writer s.writeMu
    (s.returned.map Prod.fst)
  wire : s.wire = s.attempts.flatMap Attempt.bytes

theorem WriteSide.holding_of_held {s : WriteSide} {writer : ℕ}
    {frame : WriteFrame} (hmutex : s.writeMu = some writer)
    (hframe : (s.goroutines writer).current = some frame) :
    s.holding = [⟨writer, frame.call, frame.written⟩] := by
  rw [holding, hmutex]
  simp [hframe]

theorem WriteSide.holding_of_free {s : WriteSide} (hmutex : s.writeMu = none) :
    s.holding = [] := by
  rw [holding, hmutex]

theorem Goroutine.holds_iff {g : Goroutine} {frame : WriteFrame}
    (hframe : g.current = some frame) :
    g.Holds ↔ frame.step ≠ .waiting := by
  simp [Holds, hframe]

/-- What happens to the mutex and to the calls of others. -/
theorem Goroutine.Orderly.of_same {g : Goroutine} {writer : ℕ}
    {writeMu writeMu' : Option ℕ} {returned returned' : List Attempt}
    (horderly : g.Orderly writer writeMu returned)
    (hmutex : writeMu' = some writer ↔ writeMu = some writer)
    (hreturned : returned'.filter (·.writer = writer) =
      returned.filter (·.writer = writer)) :
    g.Orderly writer writeMu' returned' where
  placed := horderly.placed
  mutex := hmutex.trans horderly.mutex
  calls := by
    rw [hreturned]
    exact horderly.calls

/-! ### One call writing -/

theorem exists_putOnWire_eq_take (failed : Option ℕ) (buffer : Bytes) :
    ∃ size, putOnWire failed buffer = buffer.take size := by
  cases failed with
  | none => exact ⟨buffer.length, List.take_length.symm⟩
  | some written => exact ⟨written, rfl⟩

theorem take_add_length_take (front buffer rest : Bytes) (size : ℕ) :
    (front ++ (buffer ++ rest)).take (front.length + (buffer.take size).length) =
      front ++ buffer.take size := by
  have hsplit : buffer ++ rest =
      buffer.take size ++ (buffer.drop size ++ rest) := by
    rw [← List.append_assoc, List.take_append_drop]
  rw [List.take_length_add_append, hsplit, List.take_left]

theorem WriteFrame.write_bytes {frame : WriteFrame} (hplaced : frame.Placed)
    (hstep : frame.step = .header ∨ frame.step = .payload)
    (failed : Option ℕ) :
    frame.call.frame.take (frame.write failed).written =
      frame.call.frame.take frame.written ++
        putOnWire failed frame.buffer := by
  obtain ⟨size, hput⟩ := exists_putOnWire_eq_take failed frame.buffer
  simp only [write, hput]
  have hframe : frame.call.frame =
      encodeHeader frame.call.header ++ frame.call.payload := rfl
  rcases hstep with hstep | hstep
  · simp only [Placed, hstep] at hplaced
    have hheader := take_add_length_take [] (encodeHeader frame.call.header)
      frame.call.payload size
    simp only [List.nil_append, List.length_nil] at hheader
    simp only [buffer, hstep, hplaced, hframe, hheader, List.take_zero,
      List.nil_append]
  · simp only [Placed, hstep] at hplaced
    have hpayload := take_add_length_take (encodeHeader frame.call.header)
      frame.call.payload [] size
    rw [length_encodeHeader, List.append_nil] at hpayload
    have hheader : (encodeHeader frame.call.header ++
        frame.call.payload).take headerSize = encodeHeader frame.call.header :=
      List.take_left' (length_encodeHeader _)
    simp only [buffer, hstep, hplaced.1, hframe, hheader, hpayload]

theorem WriteFrame.write_placed {frame : WriteFrame} (hplaced : frame.Placed)
    (hstep : frame.step = .header ∨ frame.step = .payload)
    (failed : Option ℕ) : (frame.write failed).Placed := by
  cases failed with
  | some written => trivial
  | none =>
      rcases hstep with hstep | hstep
      · simp only [Placed, hstep] at hplaced
        by_cases hpayload : frame.call.payload.length > 0
        · simp only [write, putOnWire, buffer, hstep, if_pos hpayload, Placed,
            hplaced, length_encodeHeader, Nat.zero_add]
          exact ⟨trivial, List.ne_nil_of_length_pos hpayload⟩
        · simp only [write, putOnWire, buffer, hstep, if_neg hpayload, Placed,
            hplaced, length_encodeHeader, WriteCall.length_frame]
          omega
      · simp only [Placed, hstep] at hplaced
        simp only [write, putOnWire, buffer, hstep, Placed, hplaced.1,
          WriteCall.length_frame]
        exact le_rfl

theorem WriteFrame.write_step_ne_waiting (frame : WriteFrame)
    (failed : Option ℕ) : (frame.write failed).step ≠ .waiting := by
  cases failed with
  | some written => simp [write]
  | none =>
      cases hstep : frame.step <;> simp only [write, hstep] <;>
        first | split <;> simp | simp

theorem WriteFrame.write_none_step_ne_failed (frame : WriteFrame) :
    (frame.write none).step ≠ .returning false := by
  cases hstep : frame.step <;> simp only [write, hstep] <;>
    first | split <;> simp | simp

/-! ### Every step keeps the order -/

theorem WriteSide.orderly_initial : ({} : WriteSide).Orderly where
  goroutines writer :=
    { placed := fun _ hframe => by cases hframe
      mutex := by simp [Goroutine.Holds]
      calls := rfl }
  wire := rfl

/-- The goroutines after a step of one of them. -/
theorem forall_orderly_of_update {goroutines : ℕ → Goroutine} {writer : ℕ}
    {g : Goroutine} {writeMu : Option ℕ} {returned : List Attempt}
    (hself : g.Orderly writer writeMu returned)
    (hothers : ∀ other, other ≠ writer →
      (goroutines other).Orderly other writeMu returned) :
    ∀ other, (Function.update goroutines writer g other).Orderly other
      writeMu returned :=
  (Function.forall_update_iff goroutines
    fun other g => Goroutine.Orderly g other writeMu returned).mpr
      ⟨hself, hothers⟩

namespace WriteSide.Orderly

variable {s s' : WriteSide} {writer : ℕ} {frame frame' : WriteFrame}

theorem call (horderly : s.Orderly)
    (hidle : (s.goroutines writer).current = none) (call : WriteCall) :
    (s.next (.call writer call)).Orderly := by
  have hnew := horderly.goroutines writer
  -- whoever holds the mutex is in a call, so it is not this goroutine
  have hfree : s.writeMu ≠ some writer := by
    rw [Ne, hnew.mutex, Goroutine.Holds, hidle]
    simp
  refine ⟨forall_orderly_of_update ⟨?_, ?_, ?_⟩ ?_, ?_⟩
  · intro frame hframe
    cases hframe
    rfl
  · rw [Goroutine.holds_iff rfl]
    exact iff_of_false hfree (not_not.mpr rfl)
  · simp [WriteSide.next, hnew.calls, hidle]
  · exact fun other _ => horderly.goroutines other
  · have hholding : (s.next (.call writer call)).holding = s.holding := by
      cases hmutex : s.writeMu with
      | none =>
          rw [holding_of_free hmutex]
          exact holding_of_free hmutex
      | some other =>
          have hne : other ≠ writer := by
            rintro rfl
            exact hfree hmutex
          obtain ⟨frame, hframe, -⟩ :=
            (horderly.goroutines other).mutex.mp hmutex
          have hsame : (s.next (.call writer call)).goroutines other =
              s.goroutines other := Function.update_of_ne hne ..
          rw [holding_of_held hmutex hframe]
          exact holding_of_held hmutex ((congrArg _ hsame).trans hframe)
    rw [attempts, hholding]
    exact horderly.wire

variable
  (hgoroutines : s'.goroutines = Function.update s.goroutines writer
    { s.goroutines writer with current := some frame' })

include hgoroutines

theorem current_of_update :
    (s'.goroutines writer).current = some frame' := by
  rw [hgoroutines, Function.update_self]

theorem lock (horderly : s.Orderly) (hfree : s.writeMu = none)
    (hframe : (s.goroutines writer).current = some frame)
    (hstep : frame.step = .waiting) (hlocked : frame' = { frame with step := .locked })
    (hmutex : s'.writeMu = some writer) (hreturned : s'.returned = s.returned)
    (hwire : s'.wire = s.wire) : s'.Orderly := by
  have hold := horderly.goroutines writer
  have hwritten := hold.placed hframe
  simp only [WriteFrame.Placed, hstep] at hwritten
  have hheld := holding_of_held hmutex (current_of_update hgoroutines)
  subst hlocked
  refine ⟨?_, ?_⟩
  · rw [hgoroutines, hmutex, hreturned]
    refine forall_orderly_of_update ⟨?_, ?_, ?_⟩ ?_
    · intro other hother
      cases hother
      exact hwritten
    · rw [Goroutine.holds_iff rfl]
      simp
    · rw [hold.calls, hframe]
      rfl
    · intro other hne
      refine (horderly.goroutines other).of_same ?_ rfl
      simp [hfree, Ne.symm hne]
  · -- what is held now is a call that has written nothing yet
    have hbefore := horderly.wire
    rw [attempts, holding_of_free hfree, List.append_nil] at hbefore
    rw [hwire, attempts, hheld, hreturned, hbefore]
    simp [Attempt.bytes, hwritten]

/-- A step of the call that holds the mutex. -/
theorem advance (horderly : s.Orderly)
    (hframe : (s.goroutines writer).current = some frame)
    (hstep : frame.step ≠ .waiting) (hcall : frame'.call = frame.call)
    (hstep' : frame'.step ≠ .waiting) (hplaced : frame'.Placed) {out : Bytes}
    (hout : frame.call.frame.take frame'.written =
      frame.call.frame.take frame.written ++ out)
    (hmutex : s'.writeMu = s.writeMu) (hreturned : s'.returned = s.returned)
    (hwire : s'.wire = s.wire ++ out) : s'.Orderly := by
  have hold := horderly.goroutines writer
  have hlocked : s.writeMu = some writer :=
    hold.mutex.mpr ⟨frame, hframe, hstep⟩
  have hheld := holding_of_held (hmutex.trans hlocked)
    (current_of_update hgoroutines)
  refine ⟨?_, ?_⟩
  · rw [hgoroutines, hmutex, hreturned]
    refine forall_orderly_of_update ⟨?_, ?_, ?_⟩ ?_
    · intro other hother
      cases hother
      exact hplaced
    · rw [Goroutine.holds_iff rfl]
      exact iff_of_true hlocked hstep'
    · rw [hold.calls, hframe]
      simp [hcall]
    · exact fun other _ => horderly.goroutines other
  · have hbefore := horderly.wire
    rw [attempts, holding_of_held hlocked hframe] at hbefore
    rw [hwire, attempts, hheld, hreturned, hbefore]
    simp [Attempt.bytes, hcall, hout]

omit hgoroutines

theorem unlock (horderly : s.Orderly)
    (hframe : (s.goroutines writer).current = some frame)
    (hstep : frame.step ≠ .waiting)
    (hgoroutines : s'.goroutines = Function.update s.goroutines writer
      { s.goroutines writer with current := none })
    (hmutex : s'.writeMu = none) {ok : Bool}
    (hreturned : s'.returned = s.returned ++
      [(⟨writer, frame.call, frame.written⟩, ok)])
    (hwire : s'.wire = s.wire) : s'.Orderly := by
  have hold := horderly.goroutines writer
  have hlocked : s.writeMu = some writer :=
    hold.mutex.mpr ⟨frame, hframe, hstep⟩
  refine ⟨?_, ?_⟩
  · rw [hgoroutines, hmutex, hreturned]
    refine forall_orderly_of_update ⟨?_, ?_, ?_⟩ ?_
    · intro other hother
      cases hother
    · simp [Goroutine.Holds]
    · rw [hold.calls, hframe]
      simp
    · intro other hne
      refine (horderly.goroutines other).of_same ?_ ?_
      · simp [hlocked, Ne.symm hne]
      · simp [Ne.symm hne]
  · have hbefore := horderly.wire
    rw [attempts, holding_of_held hlocked hframe] at hbefore
    rw [hwire, attempts, holding_of_free hmutex, hreturned, hbefore]
    simp

end WriteSide.Orderly

theorem WriteSide.exists_of_stepOf {s : WriteSide} {writer : ℕ}
    {step : WriteStep} (hstep : s.stepOf writer = some step) :
    ∃ frame, (s.goroutines writer).current = some frame ∧
      frame.step = step :=
  Option.map_eq_some_iff.mp hstep

theorem WriteSide.exists_of_stepOf_or {s : WriteSide} {writer : ℕ}
    {step step' : WriteStep}
    (hstep : s.stepOf writer = some step ∨ s.stepOf writer = some step') :
    ∃ frame, (s.goroutines writer).current = some frame ∧
      (frame.step = step ∨ frame.step = step') := by
  rcases hstep with hstep | hstep
  · obtain ⟨frame, hframe, hstep⟩ := exists_of_stepOf hstep
    exact ⟨frame, hframe, .inl hstep⟩
  · obtain ⟨frame, hframe, hstep⟩ := exists_of_stepOf hstep
    exact ⟨frame, hframe, .inr hstep⟩

theorem WriteSide.Orderly.next {s : WriteSide} (horderly : s.Orderly)
    {action : WriteAction} (henabled : s.Enabled action) :
    (s.next action).Orderly := by
  cases action with
  | call writer call => exact horderly.call henabled call
  | lock writer =>
      obtain ⟨hfree, hwaiting⟩ := henabled
      obtain ⟨frame, hframe, hstep⟩ := exists_of_stepOf hwaiting
      simp only [WriteSide.next, hframe]
      exact lock rfl horderly hfree hframe hstep rfl rfl rfl rfl
  | setDeadline writer ok =>
      obtain ⟨frame, hframe, hstep⟩ := exists_of_stepOf henabled
      have hwritten := (horderly.goroutines writer).placed hframe
      simp only [WriteFrame.Placed, hstep] at hwritten
      simp only [WriteSide.next, hframe]
      refine advance rfl horderly hframe (by simp [hstep]) rfl ?_ ?_
        (List.append_nil _).symm rfl rfl (List.append_nil _).symm
      · cases ok <;> simp
      · cases ok
        · trivial
        · exact hwritten
  | write writer failed =>
      obtain ⟨frame, hframe, hstep⟩ := exists_of_stepOf_or henabled
      have hplaced := (horderly.goroutines writer).placed hframe
      simp only [WriteSide.next, hframe]
      exact advance rfl horderly hframe
        (by rcases hstep with hstep | hstep <;> simp [hstep]) rfl
        (frame.write_step_ne_waiting failed)
        (WriteFrame.write_placed hplaced hstep failed)
        (WriteFrame.write_bytes hplaced hstep failed) rfl rfl rfl
  | unlock writer =>
      obtain ⟨frame, hframe, hstep⟩ := exists_of_stepOf_or henabled
      simp only [WriteSide.next, hframe]
      exact unlock horderly hframe
        (by rcases hstep with hstep | hstep <;> simp [hstep]) rfl rfl rfl rfl

theorem orderly_of_run {allowed : WriteSide → WriteAction → Prop}
    {s : WriteSide} (hrun : writeMachine.Run allowed s) : s.Orderly := by
  refine hrun.invariant ?_ ?_
  · rintro state rfl
    exact WriteSide.orderly_initial
  · intro state action _ horderly henabled _
    exact horderly.next henabled

/-! ## What a reader makes of the wire -/

/-- No attempt but the last is cut within its frame. -/
def CutLast (attempts : List Attempt) : Prop :=
  ∀ attempt ∈ attempts.dropLast, attempt.Whole ∨ attempt.written = 0

theorem flatMap_bytes_of_uncut {attempts : List Attempt}
    (huncut : ∀ attempt ∈ attempts, attempt.Whole ∨ attempt.written = 0) :
    attempts.flatMap Attempt.bytes =
      ((attempts.filter (·.Whole)).map Attempt.call).flatMap
        WriteCall.frame := by
  induction attempts with
  | nil => rfl
  | cons attempt attempts ih =>
      have hrest := ih fun other hother =>
        huncut other (List.mem_cons_of_mem attempt hother)
      rw [List.flatMap_cons, hrest]
      by_cases hwhole : attempt.Whole
      · rw [hwhole.bytes_eq, List.filter_cons_of_pos (by simpa using hwhole),
          List.map_cons, List.flatMap_cons]
      · have hnothing : attempt.written = 0 :=
          (huncut attempt (by simp)).resolve_left hwhole
        rw [List.filter_cons_of_neg (by simpa using hwhole), Attempt.bytes,
          hnothing, List.take_zero, List.nil_append]

theorem exists_fragment {limit : UInt64} {attempts : List Attempt}
    (hfits : ∀ attempt ∈ attempts, attempt.call.Fits limit)
    (hcut : CutLast attempts) :
    ∃ fragment, IsFragment limit fragment ∧
      attempts.flatMap Attempt.bytes =
        ((attempts.filter (·.Whole)).map Attempt.call).flatMap
          WriteCall.frame ++ fragment := by
  rcases List.eq_nil_or_concat' attempts with rfl | ⟨front, last, rfl⟩
  · exact ⟨[], isFragment_nil limit, rfl⟩
  rw [CutLast, List.dropLast_concat] at hcut
  rw [List.flatMap_append, flatMap_bytes_of_uncut hcut, List.filter_append]
  by_cases hwhole : last.Whole
  · exact ⟨[], isFragment_nil limit, by simp [hwhole, hwhole.bytes_eq]⟩
  · refine ⟨last.bytes, ⟨last.call, last.call.frame.drop last.written,
      hfits last (by simp), (List.take_append_drop _ _).symm, ?_⟩,
      by simp [hwhole]⟩
    intro hnothing
    exact hwhole (List.drop_eq_nil_iff.mp hnothing)

/-- A reader gets the packets of the calls whose frame is whole. -/
theorem WriteSide.Orderly.packetsOf_readPackets {s : WriteSide}
    (horderly : s.Orderly) {limit : UInt64}
    (hfits : ∀ attempt ∈ s.attempts, attempt.call.Fits limit)
    (hcut : CutLast s.attempts) {conn : List Bytes}
    (hconn : conn.flatten = s.wire) (deadlines : List (Except CoreError Unit)) :
    packetsOf (readPackets limit deadlines conn) =
      ((s.attempts.filter (·.Whole)).map fun attempt =>
        attempt.call.packet).take
          (deadlines.countP fun deadline => deadline.isOk) := by
  obtain ⟨fragment, hfragment, hbytes⟩ := exists_fragment hfits hcut
  rw [horderly.wire, hbytes] at hconn
  have hcalls : ∀ call ∈ (s.attempts.filter (·.Whole)).map Attempt.call,
      call.Fits limit := by
    intro call hcall
    obtain ⟨attempt, hattempt, rfl⟩ := List.mem_map.mp hcall
    exact hfits attempt (List.mem_of_mem_filter hattempt)
  rw [Levin.packetsOf_readPackets hcalls hfragment hconn, List.map_map]
  rfl

/-- The attempts end with the call that holds the mutex. -/
theorem WriteSide.Orderly.attempts_eq {s : WriteSide} (horderly : s.Orderly) :
    (s.writeMu = none ∧ s.attempts = s.returned.map Prod.fst) ∨
      ∃ writer frame, s.writeMu = some writer ∧
        (s.goroutines writer).current = some frame ∧
        s.attempts = s.returned.map Prod.fst ++
          [⟨writer, frame.call, frame.written⟩] := by
  cases hmutex : s.writeMu with
  | none =>
      refine .inl ⟨rfl, ?_⟩
      rw [attempts, holding_of_free hmutex, List.append_nil]
  | some writer =>
      obtain ⟨frame, hframe, -⟩ := (horderly.goroutines writer).mutex.mp hmutex
      refine .inr ⟨writer, frame, rfl, hframe, ?_⟩
      rw [attempts, holding_of_held hmutex hframe]

theorem WriteSide.Orderly.mem_calls_of_mem_attempts {s : WriteSide}
    (horderly : s.Orderly) {attempt : Attempt}
    (hattempt : attempt ∈ s.attempts) :
    attempt.call ∈ (s.goroutines attempt.writer).calls := by
  have hreturned : attempt ∈ s.returned.map Prod.fst →
      attempt.call ∈ (s.goroutines attempt.writer).calls := by
    intro hmem
    rw [(horderly.goroutines attempt.writer).calls]
    refine List.mem_append_left _ (List.mem_map_of_mem ?_)
    exact List.mem_filter.mpr ⟨hmem, by simp⟩
  rcases horderly.attempts_eq with ⟨-, hattempts⟩ |
    ⟨writer, frame, -, hframe, hattempts⟩
  · rw [hattempts] at hattempt
    exact hreturned hattempt
  · rw [hattempts] at hattempt
    rcases List.mem_append.mp hattempt with hmem | hmem
    · exact hreturned hmem
    · cases List.mem_singleton.mp hmem
      rw [(horderly.goroutines writer).calls, hframe]
      simp

theorem WriteSide.calls_setFrame (s : WriteSide) (writer other : ℕ)
    (frame : Option WriteFrame) :
    ((s.setFrame other frame).goroutines writer).calls =
      (s.goroutines writer).calls := by
  by_cases hne : writer = other
  · subst hne
    simp [setFrame]
  · simp [setFrame, Function.update_of_ne hne]

/-- What a step makes of the state. -/
inductive WriteSide.Effect (s : WriteSide) (action : WriteAction) :
    WriteSide → Prop where
  | nothing : s.Effect action s
  | called {writer : ℕ} {call : WriteCall} (haction : action = .call writer call) :
      s.Effect action
        { s with
          goroutines := Function.update s.goroutines writer
            { calls := (s.goroutines writer).calls ++ [call]
              current := some { call := call } } }
  | locked {writer : ℕ} {frame : WriteFrame} (haction : action = .lock writer)
      (hframe : (s.goroutines writer).current = some frame) :
      s.Effect action
        { s.setFrame writer (some { frame with step := .locked }) with
          writeMu := some writer }
  | deadlineSet {writer : ℕ} {ok : Bool} {frame : WriteFrame}
      (haction : action = .setDeadline writer ok)
      (hframe : (s.goroutines writer).current = some frame) :
      s.Effect action
        (s.setFrame writer (some { frame with
          step := if ok then .header else .returning false }))
  | wrote {writer : ℕ} {failed : Option ℕ} {frame : WriteFrame}
      (haction : action = .write writer failed)
      (hframe : (s.goroutines writer).current = some frame) :
      s.Effect action
        { s.setFrame writer (some (frame.write failed)) with
          wire := s.wire ++ putOnWire failed frame.buffer }
  | unlocked {writer : ℕ} {frame : WriteFrame} (haction : action = .unlock writer)
      (hframe : (s.goroutines writer).current = some frame) :
      s.Effect action
        { s.setFrame writer none with
          writeMu := none
          returned := s.returned ++
            [(⟨writer, frame.call, frame.written⟩,
              frame.step == .returning true)] }

theorem WriteSide.next_effect (s : WriteSide) (action : WriteAction) :
    s.Effect action (s.next action) := by
  cases action with
  | call writer call => exact .called rfl
  | lock writer =>
      unfold next
      dsimp only
      cases hframe : (s.goroutines writer).current with
      | none => exact .nothing
      | some frame => exact .locked rfl hframe
  | setDeadline writer ok =>
      unfold next
      dsimp only
      cases hframe : (s.goroutines writer).current with
      | none => exact .nothing
      | some frame => exact .deadlineSet rfl hframe
  | write writer failed =>
      unfold next
      dsimp only
      cases hframe : (s.goroutines writer).current with
      | none => exact .nothing
      | some frame => exact .wrote rfl hframe
  | unlock writer =>
      unfold next
      dsimp only
      cases hframe : (s.goroutines writer).current with
      | none => exact .nothing
      | some frame => exact .unlocked rfl hframe

theorem WriteSide.mem_calls_next {s : WriteSide} {action : WriteAction}
    {writer : ℕ} {call : WriteCall}
    (hcall : call ∈ ((s.next action).goroutines writer).calls) :
    call ∈ (s.goroutines writer).calls ∨ action = .call writer call := by
  have heffect := s.next_effect action
  generalize s.next action = s' at heffect hcall
  cases heffect with
  | nothing => exact .inl hcall
  | @called other new haction =>
      by_cases hne : writer = other
      · subst hne
        simp only [Function.update_self] at hcall
        rcases List.mem_append.mp hcall with hold | hnew
        · exact .inl hold
        · rw [List.mem_singleton.mp hnew]
          exact .inr haction
      · simp only [Function.update_of_ne hne] at hcall
        exact .inl hcall
  | locked | deadlineSet | wrote | unlocked =>
      exact .inl ((s.calls_setFrame writer _ _) ▸ hcall)

theorem mem_calls_replay {s : WriteSide} {actions : List WriteAction}
    {writer : ℕ} {call : WriteCall}
    (hcall : call ∈
      ((writeMachine.replay s actions).goroutines writer).calls) :
    call ∈ (s.goroutines writer).calls ∨ .call writer call ∈ actions := by
  induction actions generalizing s with
  | nil => exact .inl hcall
  | cons action actions ih =>
      rcases ih hcall with hnext | hlater
      · rcases WriteSide.mem_calls_next hnext with hbefore | rfl
        · exact .inl hbefore
        · exact .inr List.mem_cons_self
      · exact .inr (List.mem_cons_of_mem action hlater)

theorem WriteSide.current_setFrame {s : WriteSide} {writer other : ℕ}
    {frame : Option WriteFrame} {found : WriteFrame}
    (hfound : ((s.setFrame other frame).goroutines writer).current =
      some found) :
    (s.goroutines writer).current = some found ∨
      (writer = other ∧ frame = some found) := by
  by_cases hne : writer = other
  · subst hne
    simp only [setFrame, Function.update_self] at hfound
    exact .inr ⟨rfl, hfound⟩
  · simp only [setFrame, Function.update_of_ne hne] at hfound
    exact .inl hfound

/-- What a call in progress comes from. -/
theorem WriteSide.current_next {s : WriteSide} {action : WriteAction}
    {writer : ℕ} {found : WriteFrame}
    (hfound : ((s.next action).goroutines writer).current = some found) :
    (s.goroutines writer).current = some found ∨
      (∃ call, action = .call writer call ∧ found = { call := call }) ∨
      ∃ frame, (s.goroutines writer).current = some frame ∧
        ((action = .lock writer ∧ found = { frame with step := .locked }) ∨
          (∃ ok, action = .setDeadline writer ok ∧ found = { frame with
            step := if ok then .header else .returning false }) ∨
          ∃ failed, action = .write writer failed ∧
            found = frame.write failed) := by
  have heffect := s.next_effect action
  generalize s.next action = s' at heffect hfound
  cases heffect with
  | nothing => exact .inl hfound
  | @called other call haction =>
      by_cases hne : writer = other
      · subst hne
        simp only [Function.update_self, Option.some.injEq] at hfound
        exact .inr (.inl ⟨call, haction, hfound.symm⟩)
      · simp only [Function.update_of_ne hne] at hfound
        exact .inl hfound
  | @locked _ frame haction hframe =>
      rcases current_setFrame hfound with hsame | ⟨rfl, hnew⟩
      · exact .inl hsame
      · cases hnew
        exact .inr (.inr ⟨frame, hframe, .inl ⟨haction, rfl⟩⟩)
  | @deadlineSet _ ok frame haction hframe =>
      rcases current_setFrame hfound with hsame | ⟨rfl, hnew⟩
      · exact .inl hsame
      · cases hnew
        exact .inr (.inr ⟨frame, hframe, .inr (.inl ⟨ok, haction, rfl⟩)⟩)
  | @wrote _ failed frame haction hframe =>
      rcases current_setFrame hfound with hsame | ⟨rfl, hnew⟩
      · exact .inl hsame
      · cases hnew
        exact .inr (.inr ⟨frame, hframe, .inr (.inr ⟨failed, haction, rfl⟩)⟩)
  | unlocked =>
      rcases current_setFrame hfound with hsame | ⟨-, hnew⟩
      · exact .inl hsame
      · cases hnew

theorem WriteSide.returned_next (s : WriteSide) (action : WriteAction) :
    (s.next action).returned = s.returned ∨
      ∃ writer frame, action = .unlock writer ∧
        (s.goroutines writer).current = some frame ∧
        (s.next action).returned = s.returned ++
          [(⟨writer, frame.call, frame.written⟩,
            frame.step == .returning true)] := by
  have heffect := s.next_effect action
  generalize s.next action = s' at heffect ⊢
  cases heffect with
  | nothing | called | locked | deadlineSet | wrote => exact .inl rfl
  | unlocked haction hframe => exact .inr ⟨_, _, haction, hframe, rfl⟩

def WriteSide.CallsFit (limit : UInt64) (s : WriteSide) : Prop :=
  ∀ writer, ∀ call ∈ (s.goroutines writer).calls, call.Fits limit

/-- If every call that is made fits, every call on record does. -/
theorem callsFit_of_run {allowed : WriteSide → WriteAction → Prop}
    {limit : UInt64}
    (hallowed : ∀ {s writer call}, allowed s (.call writer call) →
      call.Fits limit)
    {s : WriteSide} (hrun : writeMachine.Run allowed s) :
    s.CallsFit limit := by
  refine hrun.invariant ?_ ?_
  · rintro state rfl writer call hcall
    cases hcall
  · intro state action _ hfits _ hpermitted writer call hcall
    rcases WriteSide.mem_calls_next hcall with hold | rfl
    · exact hfits writer call hold
    · exact hallowed hpermitted

/-! ## All writes succeed -/

/-- Payloads within both limits, and a network that takes every write. -/
def WritesSucceed (limit : UInt64) (_ : WriteSide) : WriteAction → Prop
  | .call _ call => call.Fits limit
  | .setDeadline _ ok => ok = true
  | .write _ failed => failed = none
  | .lock _ | .unlock _ => True

instance (limit : UInt64) (s : WriteSide) :
    DecidablePred (WritesSucceed limit s)
  | .call _ call => inferInstanceAs (Decidable (call.Fits limit))
  | .setDeadline _ _ => inferInstanceAs (Decidable (_ = _))
  | .write _ _ => inferInstanceAs (Decidable (_ = _))
  | .lock _ => .isTrue trivial
  | .unlock _ => .isTrue trivial

/-- No call is about to fail, and those that have returned wrote their
frame. -/
structure WriteSide.Faultless (s : WriteSide) : Prop where
  running : ∀ ⦃writer frame⦄, (s.goroutines writer).current = some frame →
    frame.step ≠ .returning false
  returned : ∀ attempt ∈ s.returned.map Prod.fst, attempt.Whole

theorem faultless_of_run {limit : UInt64} {s : WriteSide}
    (hrun : writeMachine.Run (WritesSucceed limit) s) : s.Faultless := by
  refine hrun.invariant ?_ ?_
  · rintro state rfl
    refine ⟨?_, by simp⟩
    intro writer frame hframe
    cases hframe
  intro state action hbefore hfaultless henabled hallowed
  refine ⟨?_, ?_⟩
  · intro writer found hfound
    rcases WriteSide.current_next hfound with hsame | ⟨call, -, rfl⟩ |
      ⟨frame, hframe, ⟨rfl, rfl⟩ | ⟨ok, rfl, rfl⟩ | ⟨failed, rfl, rfl⟩⟩
    · exact hfaultless.running hsame
    · simp
    · simp
    · have hok : ok = true := hallowed
      simp [hok]
    · have hnone : failed = none := hallowed
      subst hnone
      exact frame.write_none_step_ne_failed
  · rcases state.returned_next action with hsame |
      ⟨writer, frame, rfl, hframe, hreturned⟩
    · change ∀ attempt ∈ (state.next action).returned.map Prod.fst,
        attempt.Whole
      rw [hsame]
      exact hfaultless.returned
    · change ∀ attempt ∈ (state.next (.unlock writer)).returned.map Prod.fst,
        attempt.Whole
      rw [hreturned, List.map_append]
      intro attempt hattempt
      rcases List.mem_append.mp hattempt with hold | hnew
      · exact hfaultless.returned attempt hold
      · -- the call that returns did not fail, so it wrote its frame
        cases List.mem_singleton.mp hnew
        have hplaced := ((orderly_of_run hbefore).goroutines writer).placed
          hframe
        obtain ⟨_, hframe', hstep⟩ := WriteSide.exists_of_stepOf_or henabled
        rw [hframe] at hframe'
        cases hframe'
        rcases hstep with hstep | hstep
        · simp only [WriteFrame.Placed, hstep] at hplaced
          exact hplaced
        · exact absurd hstep (hfaultless.running hframe)

/-- The call in progress, as long as its frame is not on the wire. -/
def Goroutine.unwritten (g : Goroutine) : List WriteCall :=
  match g.current with
  | none => []
  | some frame =>
      if frame.call.frame.length ≤ frame.written then [] else [frame.call]

/-- The calls whose frame is on the wire, in the order they have there. -/
def WriteSide.order (s : WriteSide) : List (ℕ × WriteCall) :=
  (s.attempts.filter (·.Whole)).map fun attempt =>
    (attempt.writer, attempt.call)

theorem WriteSide.Orderly.calls_eq_order {s : WriteSide}
    (horderly : s.Orderly) (hfaultless : s.Faultless) (writer : ℕ) :
    (s.goroutines writer).calls =
      (s.order.filter (·.1 = writer)).map Prod.snd ++
        (s.goroutines writer).unwritten := by
  have hreturned : (s.returned.map Prod.fst).filter (·.Whole) =
      s.returned.map Prod.fst :=
    List.filter_eq_self.mpr fun attempt hattempt =>
      decide_eq_true (hfaultless.returned attempt hattempt)
  have hg := horderly.goroutines writer
  -- the part of the order that has returned, and the part that is held
  have horder : (s.order.filter (·.1 = writer)).map Prod.snd =
      ((s.returned.map Prod.fst).filter (·.writer = writer)).map
          Attempt.call ++
        ((s.holding.filter (·.Whole)).filter (·.writer = writer)).map
          Attempt.call := by
    rw [order, attempts, List.filter_append, hreturned]
    simp [List.filter_map, Function.comp_def]
  rw [horder, hg.calls, List.append_assoc]
  congr 1
  unfold Goroutine.unwritten
  by_cases hmutex : s.writeMu = some writer
  · obtain ⟨frame, hframe, -⟩ := hg.mutex.mp hmutex
    rw [WriteSide.holding_of_held hmutex hframe, hframe]
    by_cases hwhole : frame.call.frame.length ≤ frame.written
    · simp [Attempt.Whole, hwhole]
    · simp [Attempt.Whole, hwhole]
  · have hnone : (s.holding.filter (·.Whole)).filter (·.writer = writer) =
        [] := by
      cases hholder : s.writeMu with
      | none => rw [WriteSide.holding_of_free hholder]; rfl
      | some other =>
          obtain ⟨frame, hframe, -⟩ :=
            (horderly.goroutines other).mutex.mp hholder
          have hne : other ≠ writer := by
            rintro rfl
            exact hmutex hholder
          rw [WriteSide.holding_of_held hholder hframe]
          simp [hne]
    rw [hnone, List.map_nil, List.nil_append]
    cases hframe : (s.goroutines writer).current with
    | none => rfl
    | some frame =>
        have hwaiting : frame.step = .waiting := by
          by_contra hstep
          exact hmutex (hg.mutex.mpr ⟨frame, hframe, hstep⟩)
        have hwritten := hg.placed hframe
        simp only [WriteFrame.Placed, hwaiting] at hwritten
        have hlength := frame.call.length_frame
        rw [headerSize] at hlength
        simp only [Option.toList_some, List.map_cons, List.map_nil]
        rw [if_neg (by omega)]

theorem WriteSide.Faultless.cutLast {s : WriteSide} (horderly : s.Orderly)
    (hfaultless : s.Faultless) : CutLast s.attempts := by
  intro attempt hattempt
  left
  rcases horderly.attempts_eq with ⟨-, hattempts⟩ | ⟨_, _, -, -, hattempts⟩
  · rw [hattempts] at hattempt
    exact hfaultless.returned attempt (List.mem_of_mem_dropLast hattempt)
  · rw [hattempts, List.dropLast_concat] at hattempt
    exact hfaultless.returned attempt hattempt

/-- Whatever the goroutines write, and however the stream is cut, successive
calls return the packets that are on the wire in one order, in which every
goroutine's packets come in its own.  A call takes exactly its packet off the
stream. -/
theorem concurrent_packets_read_back {limit : UInt64} {s : WriteSide}
    (hrun : writeMachine.Run (WritesSucceed limit) s) :
    (∃ order : List (ℕ × WriteCall),
      (∀ writer, (s.goroutines writer).calls =
        (order.filter (·.1 = writer)).map Prod.snd ++
          (s.goroutines writer).unwritten) ∧
      ∀ (conn : List Bytes) (deadlines : List (Except CoreError Unit)),
        conn.flatten = s.wire →
        packetsOf (readPackets limit deadlines conn) =
          (order.map fun entry => entry.2.packet).take
            (deadlines.countP fun deadline => deadline.isOk)) ∧
    ∀ (conn rest : List Bytes) (deadline : Except CoreError Unit)
      (packet : ReadPacketResult),
      readPacket limit deadline conn = (.ok packet, rest) →
        conn.flatten.length = 33 + packet.header.payloadSize.toNat +
          rest.flatten.length := by
  have horderly := orderly_of_run hrun
  have hfaultless := faultless_of_run hrun
  have hfits := callsFit_of_run (fun hallowed => hallowed) hrun
  refine ⟨⟨s.order, horderly.calls_eq_order hfaultless, ?_⟩, ?_⟩
  · intro conn deadlines hconn
    rw [horderly.packetsOf_readPackets ?_ (hfaultless.cutLast horderly) hconn,
      WriteSide.order, List.map_map]
    · rfl
    · intro attempt hattempt
      exact hfits attempt.writer attempt.call
        (horderly.mem_calls_of_mem_attempts hattempt)
  · intro conn rest deadline packet hread
    exact readPacket_consumes hread

/-- Two goroutines, each of which calls while the other holds the mutex. -/
def twoWriters : List WriteAction :=
  [.call 0 (.writePacket 1001 [7] true), .call 1 (.writeResponse 1003 [8, 9] (-7)),
    .lock 1, .setDeadline 1 true, .write 1 none, .write 1 none, .unlock 1,
    .lock 0, .call 1 (.writePacket 2 [] false), .setDeadline 0 true,
    .write 0 none, .write 0 none, .unlock 0, .lock 1, .setDeadline 1 true,
    .write 1 none, .unlock 1]

theorem concurrent_packets_read_back_two_writers :
    ∃ order : List (ℕ × WriteCall),
      [WriteCall.writeResponse 1003 [8, 9] (-7), .writePacket 2 [] false] =
        (order.filter (·.1 = 1)).map Prod.snd ∧
      packetsOf (readPackets maxPayloadSize (List.replicate 4 (.ok ()))
        [(writeMachine.replay {} twoWriters).wire.take 50, [],
          (writeMachine.replay {} twoWriters).wire.drop 50]) =
        (order.map fun entry => entry.2.packet).take 4 := by
  have hrun : writeMachine.Run (WritesSucceed maxPayloadSize)
      (writeMachine.replay {} twoWriters) := .replay (.start rfl) (by decide)
  obtain ⟨⟨order, hcalls, hpackets⟩, -⟩ := concurrent_packets_read_back hrun
  have hresponses := hcalls 1
  rw [show ((writeMachine.replay {} twoWriters).goroutines 1).unwritten = []
    by decide, List.append_nil] at hresponses
  exact ⟨order, hresponses, hpackets _ _ (by simp)⟩

/-! ## Some writes fail -/

/-- Payloads within both limits, and no call that writes after one that left
a part of its frame on the wire. -/
def StopsWhenCut (limit : UInt64) (s : WriteSide) : WriteAction → Prop
  | .call _ call => call.Fits limit
  | .lock _ => ∀ attempt ∈ s.returned.map Prod.fst,
      attempt.Whole ∨ attempt.written = 0
  | .setDeadline _ _ | .write _ _ | .unlock _ => True

instance (limit : UInt64) (s : WriteSide) :
    DecidablePred (StopsWhenCut limit s)
  | .call _ call => inferInstanceAs (Decidable (call.Fits limit))
  | .lock _ => inferInstanceAs (Decidable (∀ _ ∈ _, _))
  | .setDeadline _ _ => .isTrue trivial
  | .write _ _ => .isTrue trivial
  | .unlock _ => .isTrue trivial

theorem WriteSide.Orderly.dropLast_attempts {s : WriteSide}
    (horderly : s.Orderly) :
    s.attempts.dropLast =
      if s.writeMu = none then (s.returned.map Prod.fst).dropLast
      else s.returned.map Prod.fst := by
  rcases horderly.attempts_eq with ⟨hmutex, hattempts⟩ |
    ⟨writer, frame, hmutex, -, hattempts⟩
  · rw [hattempts, if_pos hmutex]
  · rw [hattempts, hmutex, if_neg (by simp), List.dropLast_concat]

/-- Only taking the mutex changes which attempts come before the last. -/
theorem WriteSide.Orderly.dropLast_attempts_next {s : WriteSide}
    (horderly : s.Orderly) {action : WriteAction}
    (henabled : s.Enabled action) :
    (∃ writer, action = .lock writer ∧
      (s.next action).attempts.dropLast = s.returned.map Prod.fst) ∨
    (s.next action).attempts.dropLast = s.attempts.dropLast := by
  have hafter := horderly.next henabled
  rw [hafter.dropLast_attempts, horderly.dropLast_attempts]
  cases action with
  | call writer call => exact .inr rfl
  | lock writer =>
      obtain ⟨frame, hframe, -⟩ := exists_of_stepOf henabled.2
      refine .inl ⟨writer, rfl, ?_⟩
      simp [WriteSide.next, hframe, setFrame]
  | setDeadline writer ok =>
      obtain ⟨frame, hframe, -⟩ := exists_of_stepOf henabled
      refine .inr ?_
      simp [WriteSide.next, hframe, setFrame]
  | write writer failed =>
      refine .inr ?_
      cases hframe : (s.goroutines writer).current with
      | none => simp [WriteSide.next, hframe]
      | some frame => simp [WriteSide.next, hframe, setFrame]
  | unlock writer =>
      refine .inr ?_
      obtain ⟨frame, hframe, hstep⟩ := exists_of_stepOf_or henabled
      have hmutex : s.writeMu = some writer :=
        (horderly.goroutines writer).mutex.mpr ⟨frame, hframe,
          by rcases hstep with hstep | hstep <;> simp [hstep]⟩
      simp [WriteSide.next, hframe, setFrame, hmutex]

def WriteSide.OnlyLastCut (s : WriteSide) : Prop := CutLast s.attempts

theorem onlyLastCut_of_run {limit : UInt64} {s : WriteSide}
    (hrun : writeMachine.Run (StopsWhenCut limit) s) : s.OnlyLastCut := by
  refine hrun.invariant ?_ ?_
  · rintro state rfl attempt hattempt
    cases hattempt
  · intro state action hbefore hcut henabled hallowed
    rcases (orderly_of_run hbefore).dropLast_attempts_next henabled with
      ⟨writer, rfl, hattempts⟩ | hattempts
    · change ∀ attempt ∈ (state.next (.lock writer)).attempts.dropLast, _
      rw [hattempts]
      exact hallowed
    · change ∀ attempt ∈ (state.next action).attempts.dropLast, _
      rw [hattempts]
      exact hcut

/-- Whatever fails, as long as nothing is written behind a frame that was cut
short, every packet a reader gets is one that some goroutine wrote. -/
theorem read_packet_was_written {limit : UInt64} {s : WriteSide}
    (hrun : writeMachine.Run (StopsWhenCut limit) s)
    {conn : List Bytes} (hconn : conn.flatten = s.wire)
    {deadlines : List (Except CoreError Unit)} {packet : ReadPacketResult}
    (hpacket : packet ∈ packetsOf (readPackets limit deadlines conn)) :
    ∃ writer, ∃ call ∈ (s.goroutines writer).calls, packet = call.packet := by
  have horderly := orderly_of_run hrun
  have hfits := callsFit_of_run (fun hallowed => hallowed) hrun
  rw [horderly.packetsOf_readPackets ?_ (onlyLastCut_of_run hrun) hconn] at hpacket
  · obtain ⟨attempt, hattempt, rfl⟩ :=
      List.mem_map.mp (List.mem_of_mem_take hpacket)
    exact ⟨attempt.writer, attempt.call,
      horderly.mem_calls_of_mem_attempts (List.mem_of_mem_filter hattempt), rfl⟩
  · intro attempt hattempt
    exact hfits attempt.writer attempt.call
      (horderly.mem_calls_of_mem_attempts hattempt)

/-- The payload of the first call is cut off whole, and nothing follows. -/
def cutAndStop : List WriteAction :=
  [.call 0 (.writePacket 1 [] false), .lock 0, .setDeadline 0 true,
    .write 0 none, .unlock 0,
    .call 0 (.writePacket 2 [5, 6] false), .lock 0, .setDeadline 0 true,
    .write 0 none, .write 0 (some 1), .unlock 0]

theorem read_packet_was_written_cut :
    ∃ writer, ∃ call ∈
      ((writeMachine.replay {} cutAndStop).goroutines writer).calls,
      (WriteCall.writePacket 1 [] false).packet = call.packet :=
  have hrun : writeMachine.Run (StopsWhenCut maxPayloadSize)
      (writeMachine.replay {} cutAndStop) := .replay (.start rfl) (by decide)
  have hconn : [(writeMachine.replay {} cutAndStop).wire].flatten =
      (writeMachine.replay {} cutAndStop).wire := List.flatten_singleton
  have hpacket : (WriteCall.writePacket 1 [] false).packet ∈
      packetsOf (readPackets maxPayloadSize [.ok ()]
        [(writeMachine.replay {} cutAndStop).wire]) := by decide +kernel
  read_packet_was_written hrun hconn hpacket

/-- The payload of the first call is lost, and the header of the second is
read in its place. -/
def cutAndContinue : List WriteAction :=
  [.call 0 (.writePacket 1 (List.replicate 33 0) false), .lock 0,
    .setDeadline 0 true, .write 0 none, .write 0 (some 0), .unlock 0,
    .call 0 (.writePacket 2 [] false), .lock 0, .setDeadline 0 true,
    .write 0 none, .unlock 0]

theorem header_read_as_payload :
    ¬ ∀ s : WriteSide, writeMachine.Reachable s →
      ∀ (limit : UInt64) (conn : List Bytes)
        (deadlines : List (Except CoreError Unit)),
        conn.flatten = s.wire →
        ∀ packet ∈ packetsOf (readPackets limit deadlines conn),
          ∃ writer, ∃ call ∈ (s.goroutines writer).calls,
            packet = call.packet := by
  intro hall
  have hrun : writeMachine.Reachable (writeMachine.replay {} cutAndContinue) :=
    .replay (.start rfl) (by decide)
  obtain ⟨writer, call, hcall, hpacket⟩ := hall _ hrun maxPayloadSize
    [(writeMachine.replay {} cutAndContinue).wire] [.ok ()]
    List.flatten_singleton
    { header := (WriteCall.writePacket 1 (List.replicate 33 0) false).header
      payload := encodeHeader (WriteCall.writePacket 2 [] false).header }
    (by decide +kernel)
  have hmade : .call writer call ∈ cutAndContinue := by
    refine (mem_calls_replay hcall).resolve_left ?_
    exact List.not_mem_nil
  simp only [cutAndContinue, List.mem_cons, WriteAction.call.injEq,
    List.not_mem_nil, reduceCtorEq, or_false, false_or] at hmade
  rcases hmade with ⟨-, rfl⟩ | ⟨-, rfl⟩
  · revert hpacket
    decide +kernel
  · revert hpacket
    decide +kernel

end GoP2P.Levin
