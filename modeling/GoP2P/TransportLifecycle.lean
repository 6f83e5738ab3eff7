import GoP2P.Bytes
import GoP2P.Processes
import GoP2P.Runs
import GoP2P.Tables

/-!
# Goroutines of a transport

A transport runs a server, a sweep of its deduplicator and, for each connection
that a handshake has left behind, a read loop and a keepalive; all of them are
counted by one `WaitGroup`.  Beside them stand calls that nobody counts: the
tails of `Connect` and `handleWSUpgrade`, calls of `Close` and of `Stop`.  A
goroutine is the point it has reached, and a turn takes it over one access to
what it shares with the others.  `closeOnce` lets one of them into the body of
`Close`; the others wait until it is done.
-/

namespace GoP2P.Node

/-! ### The machine -/

/-- How far the `closeOnce` of a connection has come. -/
inductive OnceState where
  | unused
  | running
  | done
  deriving DecidableEq, Repr

/-- A connection, with the ID under which it was stored.  The ID stays: no later
`Connect` gets the record that the connection carries. -/
structure Link where
  peerID : Bytes
  once : OnceState := .unused
  socketClosed : Bool := false
  deriving DecidableEq, Repr

/-- The point a call of `Close` or `GracefulClose` has reached; only the latter
notifies the peer. -/
inductive Closing where
  | entering
  | notifying
  | dropping
  | disconnecting
  deriving DecidableEq, Repr

/-- `handling` is within a call of the handler; `inside` is the call of `Stop`
that the handler makes, if it makes one. -/
inductive ReadLoopPoint where
  | top
  | reading
  | received
  | handling (inside : Option ℕ)
  | closing (stage : Closing)
  | finished
  deriving DecidableEq, Repr

inductive KeepalivePoint where
  | waiting
  | pinging
  | closing (stage : Closing)
  | finished
  deriving DecidableEq, Repr

/-- The tail of `Connect` and of `handleWSUpgrade`, after a handshake that
ended well. -/
inductive EstablishPoint where
  | verified (peerID : Bytes)
  | stored (connection : ℕ)
  | reading (connection : ℕ)
  | finished
  deriving DecidableEq, Repr

/-- `rest` are the connections of the snapshot that `Stop` has not closed yet,
the one it is at first. -/
inductive StopPoint where
  | called
  | cancelled
  | closing (rest : List ℕ) (stage : Closing)
  | shuttingDown
  | waiting
  | returned (ok : Bool)
  deriving DecidableEq, Repr

inductive Goroutine where
  | readLoop (connection : ℕ) (point : ReadLoopPoint)
  | keepalive (connection : ℕ) (point : KeepalivePoint)
  | serve (finished : Bool)
  | cleanup (finished : Bool)
  | establish (point : EstablishPoint)
  | closer (connection : ℕ) (graceful : Bool) (stage : Option Closing)
  | stop (point : StopPoint)
  deriving DecidableEq, Repr

/-- What a turn is given by the environment: a frame that arrives, a call that
fails, a tick of the keepalive's clock with what it then finds, the order in
which the connections are collected. -/
inductive Turn where
  | proceed
  | dispatch
  | order (connections : List ℕ)
  | fails
  | frame
  | tick (silent : Bool)
  deriving DecidableEq, Repr

/-- The turns that a goroutine takes without waiting for the network or the
clock. -/
def Turn.internal : Turn → Bool
  | .proceed | .dispatch | .order _ => true
  | .fails | .frame | .tick _ => false

namespace Goroutine

/-- Counted by the `WaitGroup` and not done. -/
def counted : Goroutine → Bool
  | .readLoop _ point => point ≠ .finished
  | .keepalive _ point => point ≠ .finished
  | .serve finished => !finished
  | .cleanup finished => !finished
  | _ => false

/-- The connection that the goroutine is closing. -/
def closing : Goroutine → Option (ℕ × Bool × Closing)
  | .readLoop connection (.closing stage) => some (connection, false, stage)
  | .keepalive connection (.closing stage) => some (connection, false, stage)
  | .closer connection graceful (some stage) =>
      some (connection, graceful, stage)
  | .stop (.closing (connection :: _) stage) => some (connection, true, stage)
  | _ => none

/-- Where the goroutine goes on when its call of `Close` moves to another point
or returns. -/
def resume : Goroutine → Option Closing → Goroutine
  | .readLoop connection _, next =>
      .readLoop connection (next.elim .finished .closing)
  | .keepalive connection _, next =>
      .keepalive connection (next.elim .finished .closing)
  | .closer connection graceful _, next => .closer connection graceful next
  | .stop (.closing (connection :: rest) _), some stage =>
      .stop (.closing (connection :: rest) stage)
  | .stop (.closing (_ :: rest) _), none => .stop (.closing rest .entering)
  | routine, _ => routine

/-- The connection whose read loop has passed the check of the context and
holds no message yet that the handler has seen. -/
def pastCheck : Goroutine → Option ℕ
  | .readLoop connection .reading => some connection
  | .readLoop connection .received => some connection
  | _ => none

end Goroutine

/-- A transport with its goroutines.  The last three fields are ghost: the
connections whose read loops were past the check of the context when it was
cancelled, those whose read loops called the handler since, and those whose
peer was sent a disconnect message. -/
structure Lifecycle where
  cancelled : Bool := false
  hasServer : Bool := false
  serverClosed : Bool := false
  links : List Link := []
  conns : Finmap (fun _ : Bytes => ℕ) := ∅
  routines : List Goroutine := []
  lastReaders : List ℕ := []
  lateCalls : List ℕ := []
  goodbyes : List ℕ := []

inductive LifecycleAction where
  | start
  | establish (peerID : Bytes)
  | close (connection : ℕ) (graceful : Bool)
  | stop
  | handlerStops (position : ℕ)
  | turn (position : ℕ) (turn : Turn)
  deriving DecidableEq, Repr

namespace Lifecycle

def spawn (s : Lifecycle) (routine : Goroutine) : Lifecycle :=
  { s with routines := s.routines ++ [routine] }

def setLink (s : Lifecycle) (connection : ℕ) (link : Link) : Lifecycle :=
  { s with links := s.links.set connection link }

def onceOf (s : Lifecycle) (connection : ℕ) : Option OnceState :=
  (s.links[connection]?).map (·.once)

def idOf (s : Lifecycle) (connection : ℕ) : Option Bytes :=
  (s.links[connection]?).map (·.peerID)

/-- Nothing that the `WaitGroup` counts is left. -/
def idle (s : Lifecycle) : Bool := s.routines.all fun routine => !routine.counted

def stopReturned (s : Lifecycle) (position : ℕ) : Bool :=
  match s.routines[position]? with
  | some (.stop (.returned _)) => true
  | _ => false

/-- The list holds the values of `conns`, in the order in which the map was
walked. -/
def Collects (s : Lifecycle) (connections : List ℕ) : Prop :=
  connections.Nodup ∧
    (∀ i ∈ s.conns.keys, ∃ n ∈ connections, s.conns.lookup i = some n) ∧
    ∀ n ∈ connections, ∃ i ∈ s.conns.keys, s.conns.lookup i = some n

instance (s : Lifecycle) (connections : List ℕ) :
    Decidable (s.Collects connections) := by
  unfold Collects
  infer_instance

/-- `Close` and `GracefulClose` around `closeOnce`.  There is no turn while
another goroutine is in the body. -/
def close (s : Lifecycle) (connection : ℕ) (graceful : Bool) (stage : Closing) :
    Option (Lifecycle × Option Closing) :=
  match s.links[connection]? with
  | none => none
  | some link =>
      match stage with
      | .entering =>
          match link.once with
          | .unused =>
              some (s.setLink connection { link with once := .running },
                some (if graceful then .notifying else .dropping))
          | .running => none
          | .done => some (s, none)
      | .notifying =>
          some ({ s with goodbyes := connection :: s.goodbyes },
            some .dropping)
      | .dropping =>
          some ({ s with
              conns :=
                if s.conns.lookup link.peerID = some connection then
                  s.conns.erase link.peerID
                else s.conns },
            some .disconnecting)
      | .disconnecting =>
          some (s.setLink connection
            { link with once := .done, socketClosed := true }, none)

def socketClosed (s : Lifecycle) (connection : ℕ) : Bool :=
  (s.links[connection]?).elim false (·.socketClosed)

/-- The read loop calls the handler. -/
def callHandler (s : Lifecycle) (connection : ℕ) : Lifecycle :=
  { s with
    lateCalls :=
      if s.cancelled then connection :: s.lateCalls else s.lateCalls }

/-- `readLoop` between its closes.  A read ends by itself once the socket is
closed; a frame that was limited, unreadable or a duplicate is dropped.  A
handler comes back by itself unless it has called `Stop`. -/
def advanceReadLoop (s : Lifecycle) (connection : ℕ) :
    ReadLoopPoint → Turn → Option (Lifecycle × ReadLoopPoint)
  | .top, .proceed =>
      some (s, if s.cancelled then .closing .entering else .reading)
  | .top, .fails => if s.cancelled then none else some (s, .closing .entering)
  | .reading, .frame => some (s, .received)
  | .reading, .fails => some (s, .closing .entering)
  | .reading, .proceed =>
      if s.socketClosed connection then some (s, .closing .entering) else none
  | .received, .proceed => some (s, .top)
  | .received, .dispatch => some (s.callHandler connection, .handling none)
  | .handling none, .proceed => some (s, .top)
  | .handling (some stop), .proceed =>
      if s.stopReturned stop then some (s, .top) else none
  | _, _ => none

/-- `keepalive` between its closes; a tick finds the peer silent for too long
or sends a ping. -/
def advanceKeepalive (s : Lifecycle) :
    KeepalivePoint → Turn → Option KeepalivePoint
  | .waiting, .proceed => if s.cancelled then some .finished else none
  | .waiting, .tick silent =>
      some (if silent then .closing .entering else .pinging)
  | .pinging, .proceed => some .waiting
  | .pinging, .fails => some (.closing .entering)
  | _, _ => none

def advanceEstablish (s : Lifecycle) :
    EstablishPoint → Turn → Option (Lifecycle × EstablishPoint)
  | .verified peerID, .proceed =>
      some ({ s with
          links := s.links ++ [{ peerID := peerID }]
          conns := s.conns.insert peerID s.links.length },
        .stored s.links.length)
  | .stored connection, .proceed =>
      some (s.spawn (.readLoop connection .top), .reading connection)
  | .reading connection, .proceed =>
      some (s.spawn (.keepalive connection .waiting), .finished)
  | _, _ => none

/-- `t.cancel()`; a second cancellation does nothing. -/
def cancel (s : Lifecycle) : Lifecycle :=
  if s.cancelled then s
  else
    { s with
      cancelled := true
      lastReaders := s.routines.filterMap (·.pastCheck) }

/-- `Stop` between its closes. -/
def advanceStop (s : Lifecycle) :
    StopPoint → Turn → Option (Lifecycle × StopPoint)
  | .called, .proceed => some (s.cancel, .cancelled)
  | .cancelled, .order connections =>
      if s.Collects connections then some (s, .closing connections .entering)
      else none
  | .closing [] _, .proceed => some (s, .shuttingDown)
  | .shuttingDown, .proceed =>
      some ({ s with serverClosed := s.serverClosed || s.hasServer }, .waiting)
  | .shuttingDown, .fails =>
      if s.hasServer then
        some ({ s with serverClosed := true }, .returned false)
      else none
  | .waiting, .proceed => if s.idle then some (s, .returned true) else none
  | _, _ => none

/-- One turn of a goroutine that is not closing a connection. -/
def advanceOpen (s : Lifecycle) (routine : Goroutine) (turn : Turn) :
    Option (Lifecycle × Goroutine) :=
  match routine with
  | .readLoop connection point =>
      (s.advanceReadLoop connection point turn).map fun moved =>
        (moved.1, .readLoop connection moved.2)
  | .keepalive connection point =>
      (s.advanceKeepalive point turn).map fun moved =>
        (s, .keepalive connection moved)
  | .serve finished =>
      -- `ListenAndServe` returns once the server is shut down, or fails.
      if !finished && (turn = .fails || (turn = .proceed && s.serverClosed)) then
        some (s, .serve true)
      else none
  | .cleanup finished =>
      if !finished && turn = .proceed && s.cancelled then
        some (s, .cleanup true)
      else none
  | .establish point =>
      (s.advanceEstablish point turn).map fun moved =>
        (moved.1, .establish moved.2)
  | .closer _ _ _ => none
  | .stop point =>
      (s.advanceStop point turn).map fun moved => (moved.1, .stop moved.2)

def advance (s : Lifecycle) (routine : Goroutine) (turn : Turn) :
    Option (Lifecycle × Goroutine) :=
  match routine.closing with
  | some (connection, graceful, stage) =>
      if turn = .proceed then
        (s.close connection graceful stage).map fun moved =>
          (moved.1, routine.resume moved.2)
      else none
  | none => s.advanceOpen routine turn

/-- `Start` is called once at most: nothing shuts the server down that a second
call replaces. -/
def next? (s : Lifecycle) : LifecycleAction → Option Lifecycle
  | .start =>
      if s.hasServer then none
      else
        let serving : Lifecycle := { s with hasServer := true }
        some ((serving.spawn (.serve false)).spawn (.cleanup false))
  | .establish peerID => some (s.spawn (.establish (.verified peerID)))
  | .close connection graceful =>
      if connection < s.links.length then
        some (s.spawn (.closer connection graceful (some .entering)))
      else none
  | .stop => some (s.spawn (.stop .called))
  | .handlerStops position =>
      match s.routines[position]? with
      | some (.readLoop connection (.handling none)) =>
          some { s with
            routines :=
              s.routines.set position
                (.readLoop connection (.handling (some s.routines.length))) ++
                [.stop .called] }
      | _ => none
  | .turn position turn =>
      match s.routines[position]? with
      | none => none
      | some routine =>
          (s.advance routine turn).map fun moved =>
            { moved.1 with routines := moved.1.routines.set position moved.2 }

def machine : Machine Lifecycle LifecycleAction where
  initial s := s = {}
  enabled s action := (s.next? action).isSome
  next s action := (s.next? action).getD s

instance (s : Lifecycle) (action : LifecycleAction) :
    Decidable (machine.enabled s action) :=
  inferInstanceAs (Decidable ((s.next? action).isSome = true))

end Lifecycle

/-! ### What a goroutine stands for -/

namespace Goroutine

/-- The connection that the goroutine reads from, or will start to read from;
every connection has one such goroutine. -/
def origin : Goroutine → Option ℕ
  | .readLoop connection _ => some connection
  | .establish (.stored connection) => some connection
  | _ => none

/-- The connection in whose `closeOnce` the goroutine is. -/
def holds (routine : Goroutine) : Option ℕ :=
  match routine.closing with
  | some (_, _, .entering) => none
  | some (connection, _, _) => some connection
  | none => none

def mentions : Goroutine → List ℕ
  | .readLoop connection _ => [connection]
  | .keepalive connection _ => [connection]
  | .establish (.stored connection) => [connection]
  | .establish (.reading connection) => [connection]
  | .closer connection _ _ => [connection]
  | .stop (.closing rest _) => rest
  | _ => []

/-- What a call of `Stop` has still to close, from its snapshot on. -/
def remaining : Goroutine → Option (List ℕ)
  | .stop (.closing rest _) => some rest
  | .stop .shuttingDown => some []
  | .stop .waiting => some []
  | _ => none

/-- A call of `Stop` that has cancelled the context. -/
def hasCancelled : Goroutine → Bool
  | .stop point => point ≠ .called
  | _ => false

theorem hasCancelled_of_remaining {routine : Goroutine} {rest : List ℕ}
    (hrest : routine.remaining = some rest) : routine.hasCancelled = true := by
  unfold remaining at hrest
  split at hrest <;> first | rfl | cases hrest

/-- The goroutine is neither closing nor reading, nor done with it. -/
structure Fresh (routine : Goroutine) : Prop where
  holds : routine.holds = none
  hasCancelled : routine.hasCancelled = false
  reading : ∀ n, routine ≠ .readLoop n .reading
  finished : ∀ n, routine ≠ .readLoop n .finished

/-- A goroutine that is no read loop and has nothing to do with closing. -/
theorem Fresh.plain (routine : Goroutine) (horigin : routine.origin = none)
    (hholds : routine.holds = none)
    (hcancelled : routine.hasCancelled = false) : routine.Fresh where
  holds := hholds
  hasCancelled := hcancelled
  reading := by
    rintro n rfl
    cases horigin
  finished := by
    rintro n rfl
    cases horigin

theorem holds_of_closing {routine : Goroutine} {connection : ℕ}
    {graceful : Bool} {stage : Closing}
    (hclosing : routine.closing = some (connection, graceful, stage))
    (hstage : stage ≠ .entering) : routine.holds = some connection := by
  unfold holds
  rw [hclosing]
  cases stage <;> first | exact absurd rfl hstage | rfl

theorem holds_of_entering {routine : Goroutine} {connection : ℕ}
    {graceful : Bool}
    (hclosing : routine.closing = some (connection, graceful, .entering)) :
    routine.holds = none := by
  unfold holds
  rw [hclosing]

theorem closing_of_holds {routine : Goroutine} {connection : ℕ}
    (hholds : routine.holds = some connection) :
    ∃ graceful stage,
      routine.closing = some (connection, graceful, stage) ∧
        stage ≠ .entering := by
  unfold holds at hholds
  split at hholds
  · cases hholds
  next hstage hclosing =>
    cases hholds
    exact ⟨_, _, hclosing, hstage⟩
  · cases hholds

theorem mem_mentions_of_closing {routine : Goroutine} {connection : ℕ}
    {graceful : Bool} {stage : Closing}
    (hclosing : routine.closing = some (connection, graceful, stage)) :
    connection ∈ routine.mentions := by
  unfold closing at hclosing
  split at hclosing <;> cases hclosing <;> simp [mentions]

/-! A goroutine that is closing a connection moves on within its `Close`. -/

section Resume

variable {routine : Goroutine} {connection : ℕ} {graceful : Bool}
  {stage : Closing}
  (hclosing : routine.closing = some (connection, graceful, stage))

include hclosing

theorem closing_resume_some (next : Closing) :
    (routine.resume (some next)).closing =
      some (connection, graceful, next) := by
  unfold closing at hclosing
  split at hclosing <;> cases hclosing <;> rfl

theorem holds_resume_none : (routine.resume none).holds = none := by
  unfold closing at hclosing
  split at hclosing <;> cases hclosing
  · rfl
  · rfl
  · rfl
  next rest => cases rest <;> rfl

theorem origin_resume (next : Option Closing) :
    (routine.resume next).origin = routine.origin := by
  unfold closing at hclosing
  split at hclosing <;> cases hclosing <;> cases next <;> rfl

theorem mentions_resume (next : Option Closing) :
    ∀ n ∈ (routine.resume next).mentions, n ∈ routine.mentions := by
  intro n hn
  unfold closing at hclosing
  split at hclosing <;> cases hclosing <;> cases next
  all_goals first
    | exact hn
    | exact List.mem_cons_of_mem _ hn

theorem hasCancelled_resume (next : Option Closing) :
    (routine.resume next).hasCancelled = routine.hasCancelled := by
  unfold closing at hclosing
  split at hclosing <;> cases hclosing <;> cases next <;> rfl

theorem resume_ne_reading (next : Option Closing) (n : ℕ) :
    routine.resume next ≠ .readLoop n .reading := by
  unfold closing at hclosing
  split at hclosing <;> cases hclosing <;> cases next <;> simp [resume]

theorem eq_of_resume_eq_finished {next : Option Closing} {n : ℕ}
    (hfinished : routine.resume next = .readLoop n .finished) :
    next = none ∧ n = connection := by
  unfold closing at hclosing
  split at hclosing <;> cases hclosing <;> cases next <;>
    simp_all [resume]

/-- A call of `Stop` that goes on has left at most the connection it was
closing. -/
theorem remaining_resume {next : Option Closing} {rest : List ℕ}
    (hrest : (routine.resume next).remaining = some rest) :
    ∃ before, routine.remaining = some before ∧
      ∀ n ∈ before, n = connection ∨ n ∈ rest := by
  unfold closing at hclosing
  split at hclosing <;> cases hclosing <;> cases next
  all_goals cases hrest
  · refine ⟨_, rfl, ?_⟩
    intro n hn
    exact List.mem_cons.mp hn
  · refine ⟨_, rfl, ?_⟩
    intro n hn
    exact .inr hn

end Resume

end Goroutine

end GoP2P.Node
