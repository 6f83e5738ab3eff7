import GoP2P.BusDelivery
import GoP2P.PeerRebinding
import GoP2P.TransportKeys

/-!
# The senders of content events

`NewController` makes `handleMessage` the handler of a transport.  Every read
loop then passes it the connection and the decrypted message, and it ignores
the connection: `PeerID` is the `From` of the message, which its sender chose.
Neither the envelope nor the transport compares `From` with the peer of the
connection.

A read loop waits for the handler before it reads again.
-/

namespace GoP2P.ContentBus

open Node

/-! ### The calls of the bus -/

namespace Controller

variable {channelBuffer : ℕ} {codec : EventCodec}
  {c c' : Controller channelBuffer} {position : ℕ} {g : Goroutine}

/-- The calls in the order in which they were made. -/
def calls (c : Controller channelBuffer) : List Call :=
  c.goroutines.map Goroutine.call

theorem move_calls (hg : c.goroutines[position]? = some g)
    (hgoroutines : c'.goroutines = c.goroutines) (stage : Stage) :
    (c'.move position g stage).calls = c.calls := by
  unfold calls move
  rw [hgoroutines, List.map_set]
  apply set_eq_of_getElem?
  rw [List.getElem?_map, hg]
  rfl

theorem stepCalled_calls (hg : c.goroutines[position]? = some g) :
    (c.stepCalled codec position g).calls = c.calls := by
  unfold stepCalled
  split
  · exact move_calls hg rfl _
  · rfl
  · exact move_calls hg rfl _
  · split <;> exact move_calls hg rfl _

theorem stepAdmitted_calls (hg : c.goroutines[position]? = some g)
    (input : Input) : (c.stepAdmitted codec position g input).calls = c.calls := by
  unfold stepAdmitted
  split
  · split_ifs
    · exact move_calls hg rfl _
    · rfl
  · split <;> exact move_calls hg rfl _

theorem stepDelivering_calls (hg : c.goroutines[position]? = some g)
    (input : Input) (delivery : ℕ) (event : Event) (visited : Finset ℕ) :
    (c.stepDelivering position g input delivery event visited).calls =
      c.calls := by
  unfold stepDelivering
  split
  · split
    next subscription _ =>
      split_ifs
      · rfl
      · exact move_calls hg (send_sameCalls c _ _ _).goroutines _
    · rfl
  · split_ifs
    · exact move_calls hg rfl _
    · rfl

theorem stepClearing_calls (hg : c.goroutines[position]? = some g)
    (input : Input) : (c.stepClearing position g input).calls = c.calls := by
  unfold stepClearing
  split
  · split
    · exact congrArg (List.map Goroutine.call)
        (closeSub_sameCalls c _ _ _).goroutines
    · rfl
  · split_ifs
    · exact move_calls hg rfl _
    · rfl
    · rfl

theorem advance_calls (hg : c.goroutines[position]? = some g) (input : Input) :
    (c.advance codec position g input).calls = c.calls := by
  unfold advance
  cases g.stage with
  | called => exact stepCalled_calls hg
  | admitted => exact stepAdmitted_calls hg input
  | delivering => exact stepDelivering_calls hg input _ _ _
  | clearing => exact stepClearing_calls hg input
  | waiting | ready | locking | marked =>
      dsimp only
      split_ifs
      · exact move_calls hg rfl _
      · rfl
  | entered =>
      dsimp only
      split_ifs <;> exact move_calls hg rfl _
  | inserting | delivered | leaving | locked | cleared | released =>
      exact move_calls hg rfl _
  | returned => rfl

/-- Only a call adds a goroutine, and none changes its call. -/
theorem next_calls (c : Controller channelBuffer) (action : Action) :
    (c.next codec action).calls = c.calls ++
      match action with
      | .call call => [call]
      | _ => [] := by
  cases action with
  | call call => simp [next, calls]
  | step position input =>
      rw [List.append_nil]
      dsimp only [next]
      cases hg : c.goroutines[position]? with
      | none => rfl
      | some g => exact advance_calls hg input
  | receive subscription =>
      rw [List.append_nil]
      exact congrArg (List.map Goroutine.call)
        (receive_sameCalls c subscription).goroutines

end Controller

/-- The goroutine that delivered the copy. -/
def Controller.origin {channelBuffer : ℕ} (c : Controller channelBuffer)
    (copy : Copy) : Option ℕ := do
  let send ← c.sends[copy.number]?
  let delivery ← c.deliveries[send.delivery]?
  return delivery.goroutine

theorem Controller.Accounted.origin {channelBuffer : ℕ} {events : EventCodec}
    {c : Controller channelBuffer} (haccounted : Accounted events c)
    {sub : Subscription channelBuffer} (hsub : sub ∈ c.subscriptions)
    {copy : Copy} (hcopy : copy ∈ sub.received) :
    ∃ position call, c.origin copy = some position ∧
      c.calls[position]? = some call ∧ call.Carries events copy.event := by
  rcases List.getElem?_of_mem hsub with ⟨k, hk⟩
  rcases haccounted.exists_send hk hcopy with ⟨send, hsend, hto, rfl⟩
  rcases (haccounted.receives hk).sent send
    (mem_sendsTo_iff.mpr ⟨hsend, hto⟩) with
    ⟨delivery, g, hdelivery, hg, hcarries, hevent, -⟩
  refine ⟨delivery.goroutine, g.call, ?_, ?_, ?_⟩
  · simp [Controller.origin, Send.copy,
      haccounted.progress.getElem?_number hsend, hdelivery]
  · rw [calls, List.getElem?_map, hg, Option.map_some]
  · rw [Send.copy, hevent]
    exact hcarries

theorem wireEvent_eq_some {events : EventCodec} {msg received : Message}
    {payload : WireEvent}
    (hwire : wireEvent events (some msg) = some (received, payload)) :
    received = msg ∧ msg.type = contentEventMessageType := by
  dsimp only [wireEvent] at hwire
  split_ifs at hwire with htype
  split at hwire
  · split_ifs at hwire
    cases hwire
    exact ⟨rfl, not_not.mp htype⟩
  · cases hwire

/-! ### A transport with a bus -/

/-- A message that a read loop passed to the handler: the frame and the
connection on which it came, and the goroutine of the bus that handles it. -/
structure Carried where
  goroutine : ℕ
  connection : ℕ
  pc : PeerConnection
  frame : Except CoreError Bytes
  msg : Message

/-- `carried` is ghost but for the order of a connection's messages. -/
structure ContentNode (channelBuffer : ℕ) where
  transport : TransportCalls
  bus : Controller channelBuffer := {}
  carried : List Carried := []

inductive ContentAction where
  | transport (action : TransportAction)
  | onMessage
  | carry (connection : ℕ) (now : Time) (frame : Except CoreError Bytes)
  | bus (action : Action)

def Stage.isReturned : Stage → Bool
  | .returned _ _ => true
  | _ => false

namespace ContentNode

variable {channelBuffer : ℕ}

/-- The handler has returned from the messages of the connection. -/
def Reads (s : ContentNode channelBuffer) (connection : ℕ) : Prop :=
  ∀ carried ∈ s.carried, carried.connection = connection →
    ∀ g ∈ s.bus.goroutines[carried.goroutine]?, g.stage.isReturned = true

instance (s : ContentNode channelBuffer) (connection : ℕ) :
    Decidable (s.Reads connection) :=
  inferInstanceAs (Decidable (∀ carried ∈ s.carried,
    carried.connection = connection →
      ∀ g ∈ s.bus.goroutines[carried.goroutine]?, g.stage.isReturned = true))

section

variable (crypto : NodePrimitives) (codec : Codec) (events : EventCodec)

/-- One turn of a read loop, and the call of the handler. -/
def carry (s : ContentNode channelBuffer) (connection : ℕ) (now : Time)
    (frame : Except CoreError Bytes) : ContentNode channelBuffer :=
  match s.transport.transport.connections[connection]? with
  | none => s
  | some pc =>
      let done := s.transport.transport.readLoopTurn crypto codec connection now
        frame
      let read :=
        { s with transport := { s.transport with transport := done.transport } }
      match done.handled with
      | none => read
      | some msg =>
          { read with
            bus := s.bus.next events (.call (.handleMessage pc.peer.id (some msg)))
            carried := s.carried ++
              [{ goroutine := s.bus.goroutines.length, connection := connection
                 pc := pc, frame := frame, msg := msg }] }

def next (s : ContentNode channelBuffer) :
    ContentAction → ContentNode channelBuffer
  | .transport action =>
      { s with transport := s.transport.next crypto codec action }
  | .onMessage =>
      { s with
        transport :=
          { s.transport with
            transport := { s.transport.transport with hasHandler := true } } }
  | .carry connection now frame => s.carry crypto codec events connection now frame
  | .bus action => { s with bus := s.bus.next events action }

/-- `handleMessage` is called by read loops only. -/
def Enabled (s : ContentNode channelBuffer) : ContentAction → Prop
  | .transport action => s.transport.Enabled action
  | .onMessage => True
  | .carry connection _ _ => s.Reads connection
  | .bus (.call (.handleMessage _ _)) => False
  | .bus _ => True

instance (s : ContentNode channelBuffer) : DecidablePred s.Enabled
  | .transport action => inferInstanceAs (Decidable (s.transport.Enabled action))
  | .onMessage => .isTrue trivial
  | .carry connection _ _ => inferInstanceAs (Decidable (s.Reads connection))
  | .bus (.call (.handleMessage _ _)) => .isFalse id
  | .bus (.call (.subscribe _)) | .bus (.call (.publish _ _))
  | .bus (.call .close) | .bus (.step _ _) | .bus (.receive _) => .isTrue trivial

def machine (channelBuffer : ℕ) :
    Machine (ContentNode channelBuffer) ContentAction where
  initial s := ∃ transport, TransportCalls.Initial transport ∧
    s = { transport := transport }
  enabled := Enabled
  next := next crypto codec events

instance (s : ContentNode channelBuffer) (action : ContentAction) :
    Decidable ((machine crypto codec events channelBuffer).enabled s action) :=
  inferInstanceAs (Decidable (s.Enabled action))

end

section

variable {crypto : NodePrimitives} {codec : Codec} {events : EventCodec}
  {s : ContentNode channelBuffer}

/-- Every call of `handleMessage` is that of a message that a connection
carried. -/
structure Linked (crypto : NodePrimitives) (codec : Codec) (events : EventCodec)
    (s : ContentNode channelBuffer) : Prop where
  bus : (Controller.machine events channelBuffer).Reachable s.bus
  carried : ∀ carried ∈ s.carried, ∃ data, carried.frame = .ok data ∧
    decryptMessage crypto codec data carried.pc.sharedSecret =
      .returned carried.msg
  handled : ∀ ⦃position peerID msg⦄,
    s.bus.calls[position]? = some (.handleMessage peerID msg) →
      ∃ carried ∈ s.carried, carried.goroutine = position ∧
        carried.pc.peer.id = peerID ∧ msg = some carried.msg

theorem Linked.of_eq {s' : ContentNode channelBuffer}
    (hlinked : Linked crypto codec events s) (hbus : s'.bus = s.bus)
    (hcarried : s'.carried = s.carried) : Linked crypto codec events s' := by
  constructor
  · rw [hbus]
    exact hlinked.bus
  · rw [hcarried]
    exact hlinked.carried
  · rw [hbus, hcarried]
    exact hlinked.handled

theorem Linked.carry (hlinked : Linked crypto codec events s) (connection : ℕ)
    (now : Time) (frame : Except CoreError Bytes) :
    Linked crypto codec events
      (s.carry crypto codec events connection now frame) := by
  unfold ContentNode.carry
  cases hpc : s.transport.transport.connections[connection]? with
  | none => exact hlinked
  | some pc =>
      dsimp only
      cases hhandled : (s.transport.transport.readLoopTurn crypto codec
          connection now frame).handled with
      | none => exact hlinked.of_eq rfl rfl
      | some msg =>
          rcases Transport.readLoopTurn_handled hhandled with
            ⟨found, data, hfound, hframe, hdecrypted⟩
          rw [hpc, Option.some.injEq] at hfound
          subst hfound
          constructor
          · exact hlinked.bus.step trivial trivial
          · intro carried hcarried
            rcases List.mem_append.mp hcarried with hold | hnew
            · exact hlinked.carried carried hold
            · rw [List.mem_singleton.mp hnew]
              exact ⟨data, hframe, hdecrypted⟩
          · intro position peerID received hcall
            dsimp only at hcall
            rw [Controller.next_calls] at hcall
            rcases getElem?_concat_cases hcall with hold | ⟨hposition, hnew⟩
            · rcases hlinked.handled hold with ⟨carried, hcarried, hrest⟩
              exact ⟨carried, List.mem_append_left _ hcarried, hrest⟩
            · cases hnew
              refine ⟨_, List.mem_append_right _ (List.mem_singleton_self _),
                ?_, rfl, rfl⟩
              rw [hposition, Controller.calls, List.length_map]

/-- No other step of the bus starts a call of `handleMessage`. -/
theorem Linked.busStep (hlinked : Linked crypto codec events s)
    {action : Action} (henabled : s.Enabled (.bus action)) :
    Linked crypto codec events { s with bus := s.bus.next events action } := by
  constructor
  · exact hlinked.bus.step trivial trivial
  · exact hlinked.carried
  · intro position peerID msg hcall
    dsimp only at hcall
    rw [Controller.next_calls] at hcall
    cases action with
    | call call =>
        rcases getElem?_concat_cases hcall with hold | ⟨-, hnew⟩
        · exact hlinked.handled hold
        · rw [← hnew] at henabled
          exact henabled.elim
    | step | receive =>
        rw [List.append_nil] at hcall
        exact hlinked.handled hcall

theorem linked_of_reachable
    (hreachable : (machine crypto codec events channelBuffer).Reachable s) :
    Linked crypto codec events s := by
  apply hreachable.invariant
  · rintro s ⟨transport, -, rfl⟩
    refine ⟨.start rfl, ?_, ?_⟩
    · intro carried hcarried
      cases hcarried
    · intro position peerID msg hcall
      cases hcall
  · intro s action _ hlinked henabled _
    cases action with
    | transport | onMessage => exact hlinked.of_eq rfl rfl
    | carry connection now frame => exact hlinked.carry connection now frame
    | bus action => exact hlinked.busStep henabled

/-- In every state of every run an event that a subscriber has received was
published here or was in a message that a connection carried, and then `PeerID`
is the `From` of that message: it is the ID of the connection's peer exactly if
the message says so. -/
theorem event_names_message_sender (crypto : NodePrimitives) (codec : Codec)
    (events : EventCodec)
    (hreachable : (machine crypto codec events channelBuffer).Reachable s)
    {sub : Subscription channelBuffer} (hsub : sub ∈ s.bus.subscriptions)
    {copy : Copy} (hcopy : copy ∈ sub.received) :
    ∃ position call, s.bus.origin copy = some position ∧
      s.bus.calls[position]? = some call ∧
      ((∃ topic payload, call = .publish topic payload) ∨
        ∃ carried ∈ s.carried, carried.goroutine = position ∧
          call = .handleMessage carried.pc.peer.id (some carried.msg) ∧
          carried.msg.type = contentEventMessageType ∧
          (∃ data, carried.frame = .ok data ∧
            decryptMessage crypto codec data carried.pc.sharedSecret =
              .returned carried.msg) ∧
          copy.event.peerID = carried.msg.fromNode ∧
          (copy.event.peerID = carried.pc.peer.id ↔
            carried.msg.fromNode = carried.pc.peer.id)) := by
  have hlinked := linked_of_reachable hreachable
  have haccounted := Controller.accounted_of_reachable hlinked.bus
  rcases haccounted.origin hsub hcopy with
    ⟨position, call, horigin, hcall, hcarries⟩
  refine ⟨position, call, horigin, hcall, ?_⟩
  cases call with
  | subscribe | close => exact hcarries.elim
  | publish topic payload => exact .inl ⟨topic, payload, rfl⟩
  | handleMessage peerID msg =>
      right
      rcases hlinked.handled hcall with ⟨carried, hcarried, hposition, rfl, rfl⟩
      rcases hcarries with ⟨received, payload, hwire, -, -, hpeer⟩
      rcases wireEvent_eq_some hwire with ⟨rfl, htype⟩
      refine ⟨carried, hcarried, hposition, rfl, htype,
        hlinked.carried carried hcarried, hpeer, ?_⟩
      rw [hpeer]

end

/-! ### Two peers -/

/-- The server with key 1 answers the handshake as peer 1 and then sends a
content event with this `From`. -/
def sampleSender (sender : UInt8) : Codec :=
  .ofTables []
    [([2], { identity := { id := [1], publicKey := [1] }
             challengeResponse := signChallenge samplePrimitives
               (List.replicate challengeSize 7)
               ([1, 9] ++ List.replicate 30 0)
             accepted := true })]
    [([2], { type := .handshakeAck, payload := some [2] }),
      ([5], { id := [5], type := contentEventMessageType, fromNode := [sender]
              payload := some [4] })]

def sampleEventFrame : Bytes :=
  1 :: List.replicate 12 0 ++ ([1, 9] ++ List.replicate 14 0) ++ [5]

/-- `handleMessage` up to the send to the first subscriber. -/
def sampleHandle : List Input :=
  [{}, {}, {}, {}, {}, { subscriber := some 0 }]

/-- A subscription to topic 4, a connection to peer 1, and an event on it. -/
def sampleCarry : List ContentAction :=
  .onMessage ::
    .transport (.dial { address := [8] } [] (List.replicate challengeSize 7)
      (.ok [2])) ::
    List.replicate 4 (.transport (.connect 0 0)) ++
    (Controller.sampleCall 0 (.subscribe [4]) (List.replicate 6 {})).map .bus ++
    [.carry 0 0 (.ok sampleEventFrame)] ++
    (sampleHandle.map fun input => .bus (.step 1 input)) ++
    [.bus (.receive 0)]

def sampleReceived (sender : UInt8) : ContentNode 1 :=
  (machine samplePrimitives (sampleSender sender) Controller.sampleEvents 1).replay
    { transport := TransportCalls.sampleKnown } sampleCarry

theorem sampleReceived_reachable (sender : UInt8)
    (hreplays : (machine samplePrimitives (sampleSender sender)
      Controller.sampleEvents 1).Replays (fun _ _ => True)
        { transport := TransportCalls.sampleKnown } sampleCarry) :
    (machine samplePrimitives (sampleSender sender)
      Controller.sampleEvents 1).Reachable (sampleReceived sender) := by
  refine Machine.Run.replay (.start ?_) hreplays
  exact ⟨_, TransportCalls.sampleKnown_initial, rfl⟩

theorem event_names_message_sender_own :
    ∃ sub ∈ (sampleReceived 1).bus.subscriptions, ∃ copy ∈ sub.received,
      copy.event.peerID = [1] ∧
        ∃ position call, (sampleReceived 1).bus.origin copy = some position ∧
          (sampleReceived 1).bus.calls[position]? = some call := by
  have hreachable := sampleReceived_reachable 1 (by decide +kernel)
  have hreceived : ∃ sub ∈ (sampleReceived 1).bus.subscriptions,
      ∃ copy ∈ sub.received, copy.event.peerID = [1] := by decide +kernel
  rcases hreceived with ⟨sub, hsub, copy, hcopy, hpeer⟩
  rcases event_names_message_sender samplePrimitives (sampleSender 1)
    Controller.sampleEvents hreachable hsub hcopy with
    ⟨position, call, horigin, hcall, -⟩
  exact ⟨sub, hsub, copy, hcopy, hpeer, position, call, horigin, hcall⟩

/-- The connection of peer 1 carries an event that reaches the subscriber under
the ID of peer 2. -/
theorem event_under_other_peers_name :
    (machine samplePrimitives (sampleSender 2) Controller.sampleEvents
        1).Reachable (sampleReceived 2) ∧
      ((sampleReceived 2).carried.map fun carried =>
        (carried.goroutine, carried.pc.peer.id)) = [(1, [1])] ∧
      ((sampleReceived 2).bus.subscriptions.map fun sub =>
        sub.received.map fun copy =>
          ((sampleReceived 2).bus.origin copy, copy.event.peerID)) =
        [[(some 1, [2])]] := by
  refine ⟨?_, by decide +kernel, by decide +kernel⟩
  apply sampleReceived_reachable 2
  decide +kernel

end ContentNode

end GoP2P.ContentBus
