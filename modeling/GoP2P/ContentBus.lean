import GoP2P.Runs
import GoP2P.ReadWriteLocks
import GoP2P.Tables
import GoP2P.Channels
import GoP2P.NodeMessage

/-!
# The content bus

Any number of goroutines call `Subscribe`, `Publish`, `handleMessage` and
`Close` on one controller.  Where a goroutine stands decides which of the two
locks it holds; a step takes it from one lock operation or access to shared
state to the next, and a step that has to wait for a lock does nothing.

`deliver` sends to one subscriber of the topic at a time, in whatever order
the map is ranged over, and gives up a send for which the buffer has no room.
The buffers have at least one slot, so a receiver that waits finds room there.
A channel is known by its position in the list of all channels ever made.
Subscription IDs do not wrap around: an entry stays until `Close`, and there is
no memory for `2 ^ 64` of them.
-/

namespace GoP2P.ContentBus

open Node

def contentEventMessageType : MessageType := .other (text "content_event")

def errClosed : CoreError :=
  .op "contentbus.Controller" (text "controller closed")

def errInvalidTopic : CoreError :=
  .op "contentbus.Controller" (text "topic is required")

/-! ### Events -/

/-- A nil payload is `none`. -/
structure Event where
  topic : Bytes
  payload : Option Bytes
  peerID : Bytes
  timestamp : Time
  deriving DecidableEq, Repr

structure WireEvent where
  topic : Bytes := []
  payload : Option Bytes := none
  deriving DecidableEq, Repr

structure EventCodec where
  marshalEvent : WireEvent → Except CoreError Bytes
  unmarshalEvent : Bytes → Except CoreError WireEvent

/-- Appending nothing to a nil slice gives a nil slice. -/
def cloneBytes : Option Bytes → Option Bytes
  | none => none
  | some [] => none
  | some bytes => some bytes

def cloneEvent (event : Event) : Event :=
  { event with payload := cloneBytes event.payload }

/-- What `cloneEvent` returned in one send.  `number` is ghost and stands for
the array that the clone has to itself. -/
structure Copy where
  number : ℕ
  event : Event
  deriving DecidableEq, Repr

/-! ### Calls -/

/-- `peerID` is that of the connection that `handleMessage` is given and
ignores. -/
inductive Call where
  | subscribe (topic : Bytes)
  | publish (topic : Bytes) (payload : Option Bytes)
  | handleMessage (peerID : Bytes) (msg : Option Message)
  | close
  deriving DecidableEq, Repr

inductive Result where
  | channel (subscription : ℕ)
  | ok
  | failed (error : CoreError)
  deriving DecidableEq, Repr

/-- Where a goroutine stands in its call.  `afterClosed` is ghost: `closed` was
set when the call returned. -/
inductive Stage where
  | called
  | waiting
  | entered
  | admitted
  | inserting (topic : Bytes)
  | ready (event : Event)
  | delivering (delivery : ℕ) (event : Event) (visited : Finset ℕ)
  | delivered (event : Event)
  | leaving (result : Result)
  | locking
  | locked
  | marked
  | clearing
  | cleared
  | released
  | returned (result : Result) (afterClosed : Bool)
  deriving DecidableEq

structure Goroutine where
  call : Call
  stage : Stage := .called
  deriving DecidableEq

/-- What the goroutine holds of `c.mu`. -/
def Goroutine.mu (g : Goroutine) : Hold :=
  match g.stage with
  | .entered | .admitted | .inserting _ | .ready _ | .delivering _ _ _
  | .delivered _ | .leaving _ => .reading
  | .locked | .marked | .clearing | .cleared => .writing
  | .called | .waiting | .locking | .released | .returned _ _ => .free

/-- What the goroutine holds of `c.subsMu`. -/
def Goroutine.subsMu (g : Goroutine) : Hold :=
  match g.stage with
  | .delivering _ _ _ => .reading
  | .inserting _ | .clearing => .writing
  | _ => .free

/-- The choices of the environment in one step: what `GetIdentity`, the clock
and `NewMessage` gave, what the map yields next, and how `Broadcast` or the
shutdown ended. -/
structure Input where
  identity : Option Bytes := none
  now : Time := 0
  messageID : Bytes := []
  topic : Bytes := []
  subscriber : Option ℕ := none
  outcome : Option CoreError := none

section

variable (codec : EventCodec)

/-- The message and its payload, if `handleMessage` goes on with it. -/
def wireEvent (msg : Option Message) : Option (Message × WireEvent) :=
  match msg with
  | none => none
  | some msg =>
      if msg.type ≠ contentEventMessageType then
        none
      else
        match msg.parsePayload {} codec.unmarshalEvent with
        | .returned payload =>
            if payload.topic = [] then none else some (msg, payload)
        | _ => none

namespace Call

/-- What the call returns before it asks for a lock. -/
def early : Call → Option Result
  | .subscribe topic | .publish topic _ =>
      if topic = [] then some (.failed errInvalidTopic) else none
  | .handleMessage _ msg => if (wireEvent codec msg).isNone then some .ok else none
  | .close => none

def whenClosed : Call → Result
  | .subscribe _ | .publish _ _ => .failed errClosed
  | .handleMessage _ _ | .close => .ok

/-- The event that the call delivers. -/
def makeEvent (input : Input) : Call → Option Event
  | .publish topic payload =>
      input.identity.map fun identity =>
        { topic := topic, payload := cloneBytes payload, peerID := identity,
          timestamp := input.now }
  | .handleMessage _ msg =>
      match wireEvent codec msg with
      | none => none
      | some (msg, payload) =>
          some
            { topic := payload.topic, payload := cloneBytes payload.payload
              peerID := msg.fromNode
              timestamp :=
                if msg.timestamp = 0 then input.now else msg.timestamp }
  | .subscribe _ | .close => none

/-- How the call ends when it has delivered. -/
def afterDelivery (input : Input) (event : Event) : Call → Result
  | .publish topic _ =>
      let message := newMessage input.messageID input.now
        contentEventMessageType event.peerID []
        (codec.marshalEvent { topic := topic, payload := event.payload })
      match message with
      | .failed error =>
          .failed (.wrap "contentbus.Controller.Publish"
            (text "create content event message") error)
      | _ =>
          match input.outcome with
          | none => .ok
          | some error =>
              .failed (.wrap "contentbus.Controller.Publish"
                (text "broadcast content event") error)
  | _ => .ok

end Call

end

/-! ### The controller -/

structure Subscription (channelBuffer : ℕ) where
  topic : Bytes
  channel : Channel Copy channelBuffer := {}
  received : List Copy := []

/-- One call of `deliver`: its event, and how many channels and how many sends
there were when it had taken `subsMu` and when it gave it back. -/
structure Delivery where
  goroutine : ℕ
  event : Event
  subscriptions : ℕ
  sendsBefore : ℕ
  sendsAfter : Option ℕ := none
  deriving DecidableEq

/-- One send of `deliver`, tried while this many events were in the buffer. -/
structure Send where
  number : ℕ
  subscription : ℕ
  delivery : ℕ
  event : Event
  buffered : ℕ
  deriving DecidableEq

inductive Once where
  | fresh
  | running
  | done
  deriving DecidableEq, Repr

/-- `subscriptions` has all channels ever made; `deliveries`, `sends` and what
was received are ghost. -/
structure Controller (channelBuffer : ℕ) where
  subscribers : Finmap fun _ : Bytes => Finmap fun _ : ℕ => ℕ := ∅
  nextSubID : ℕ := 0
  closed : Bool := false
  closeOnce : Once := .fresh
  closeErr : Option CoreError := none
  panicked : Bool := false
  subscriptions : List (Subscription channelBuffer) := []
  goroutines : List Goroutine := []
  deliveries : List Delivery := []
  sends : List Send := []

inductive Action where
  | call (call : Call)
  | step (goroutine : ℕ) (input : Input)
  | receive (subscription : ℕ)

namespace Controller

variable {channelBuffer : ℕ}

def topicSubs (c : Controller channelBuffer) (topic : Bytes) :
    Finmap fun _ : ℕ => ℕ :=
  (c.subscribers.lookup topic).getD ∅

def move (c : Controller channelBuffer) (position : ℕ) (g : Goroutine)
    (stage : Stage) : Controller channelBuffer :=
  { c with goroutines := c.goroutines.set position { g with stage := stage } }

/-- A new channel under the next ID. -/
def insertSub (c : Controller channelBuffer) (topic : Bytes) :
    Controller channelBuffer :=
  { c with
    subscribers := c.subscribers.insert topic
      ((c.topicSubs topic).insert c.nextSubID c.subscriptions.length)
    nextSubID := c.nextSubID + 1
    subscriptions := c.subscriptions ++ [{ topic := topic }] }

def beginDelivery (c : Controller channelBuffer) (goroutine : ℕ)
    (event : Event) : Controller channelBuffer :=
  { c with
    deliveries := c.deliveries ++
      [{ goroutine := goroutine, event := event
         subscriptions := c.subscriptions.length
         sendsBefore := c.sends.length }] }

def endDelivery (c : Controller channelBuffer) (delivery : ℕ) :
    Controller channelBuffer :=
  { c with
    deliveries := c.deliveries.modify delivery fun ended =>
      { ended with sendsAfter := some c.sends.length } }

/-- The `select` of `deliver` on one channel. -/
def send (c : Controller channelBuffer) (delivery : ℕ) (event : Event)
    (subscription : ℕ) : Controller channelBuffer :=
  match c.subscriptions[subscription]? with
  | none => c
  | some sub =>
      let copy := { number := c.sends.length, event := cloneEvent event }
      let sends := c.sends ++
        [{ number := c.sends.length, subscription := subscription
           delivery := delivery, event := cloneEvent event
           buffered := sub.channel.buffer.length }]
      match sub.channel.trySend copy with
      | .sent channel =>
          { c with
            subscriptions := c.subscriptions.set subscription
              { sub with channel := channel }
            sends := sends }
      | .notReady => { c with sends := sends }
      | .panicked => { c with panicked := true }

/-- `close(ch)` and `delete(topicSubs, id)`. -/
def closeSub (c : Controller channelBuffer) (topic : Bytes) (id : ℕ)
    (subscription : ℕ) : Controller channelBuffer :=
  match c.subscriptions[subscription]? with
  | none => c
  | some sub =>
      if sub.channel.closed then
        { c with panicked := true }
      else
        { c with
          subscribers := c.subscribers.insert topic ((c.topicSubs topic).erase id)
          subscriptions := c.subscriptions.set subscription
            { sub with channel := sub.channel.close } }

def receive (c : Controller channelBuffer) (subscription : ℕ) :
    Controller channelBuffer :=
  match c.subscriptions[subscription]? with
  | none => c
  | some sub =>
      match sub.channel.receive? with
      | none => c
      | some (copy, channel) =>
          { c with
            subscriptions := c.subscriptions.set subscription
              { sub with
                channel := channel
                received := sub.received ++ [copy] } }

section

variable (codec : EventCodec)

/-- A goroutine that has not asked for a lock yet; later calls of `Close` wait
for the first. -/
def stepCalled (c : Controller channelBuffer) (position : ℕ)
    (g : Goroutine) : Controller channelBuffer :=
  match g.call, c.closeOnce with
  | .close, .fresh => { c with closeOnce := .running }.move position g .locking
  | .close, .running => c
  | .close, .done =>
      c.move position g (.returned (c.closeErr.elim .ok .failed) c.closed)
  | call, _ =>
      match call.early codec with
      | some result => c.move position g (.returned result c.closed)
      | none => c.move position g .waiting

def stepAdmitted (c : Controller channelBuffer) (position : ℕ) (g : Goroutine)
    (input : Input) : Controller channelBuffer :=
  match g.call with
  | .subscribe topic =>
      if ReadWriteLock.CanWrite Goroutine.subsMu c.goroutines then
        c.move position g (.inserting topic)
      else
        c
  | call =>
      match call.makeEvent codec input with
      | none => c.move position g (.leaving (.failed errIdentityNotInitialized))
      | some event => c.move position g (.ready event)

def stepDelivering (c : Controller channelBuffer) (position : ℕ)
    (g : Goroutine) (input : Input) (delivery : ℕ) (event : Event)
    (visited : Finset ℕ) : Controller channelBuffer :=
  match input.subscriber with
  | some id =>
      match (c.topicSubs event.topic).lookup id with
      | some subscription =>
          if id ∈ visited then
            c
          else
            (c.send delivery event subscription).move position g
              (.delivering delivery event (insert id visited))
      | none => c
  | none =>
      if (c.topicSubs event.topic).keys ⊆ visited then
        (c.endDelivery delivery).move position g (.delivered event)
      else
        c

def stepClearing (c : Controller channelBuffer) (position : ℕ) (g : Goroutine)
    (input : Input) : Controller channelBuffer :=
  match input.subscriber with
  | some id =>
      match (c.topicSubs input.topic).lookup id with
      | some subscription => c.closeSub input.topic id subscription
      | none => c
  | none =>
      if c.subscribers = ∅ then
        c.move position g .cleared
      else if c.subscribers.lookup input.topic = some ∅ then
        { c with subscribers := c.subscribers.erase input.topic }
      else
        c

def advance (c : Controller channelBuffer) (position : ℕ) (g : Goroutine)
    (input : Input) : Controller channelBuffer :=
  match g.stage with
  | .called => c.stepCalled codec position g
  | .waiting =>
      if ReadWriteLock.CanRead Goroutine.mu c.goroutines then
        c.move position g .entered
      else
        c
  | .entered =>
      if c.closed then c.move position g (.leaving g.call.whenClosed)
      else c.move position g .admitted
  | .admitted => c.stepAdmitted codec position g input
  | .inserting topic =>
      (c.insertSub topic).move position g
        (.leaving (.channel c.subscriptions.length))
  | .ready event =>
      if ReadWriteLock.CanRead Goroutine.subsMu c.goroutines then
        (c.beginDelivery position event).move position g
          (.delivering c.deliveries.length event ∅)
      else
        c
  | .delivering delivery event visited =>
      c.stepDelivering position g input delivery event visited
  | .delivered event =>
      c.move position g (.leaving (g.call.afterDelivery codec input event))
  | .leaving result => c.move position g (.returned result c.closed)
  | .locking =>
      if ReadWriteLock.CanWrite Goroutine.mu c.goroutines then
        c.move position g .locked
      else
        c
  | .locked => { c with closed := true }.move position g .marked
  | .marked =>
      if ReadWriteLock.CanWrite Goroutine.subsMu c.goroutines then
        c.move position g .clearing
      else
        c
  | .clearing => c.stepClearing position g input
  | .cleared => c.move position g .released
  | .released =>
      { c with closeOnce := .done, closeErr := input.outcome }.move position g
        (.returned (input.outcome.elim .ok .failed) c.closed)
  | .returned _ _ => c

def next (c : Controller channelBuffer) : Action → Controller channelBuffer
  | .call call => { c with goroutines := c.goroutines ++ [{ call := call }] }
  | .step position input =>
      match c.goroutines[position]? with
      | none => c
      | some g => c.advance codec position g input
  | .receive subscription => c.receive subscription

def machine (channelBuffer : ℕ) :
    Machine (Controller channelBuffer) Action where
  initial c := c = {}
  enabled _ _ := True
  next := next codec

instance (c : Controller channelBuffer) (action : Action) :
    Decidable ((machine codec channelBuffer).enabled c action) :=
  .isTrue trivial

end

/-! ### What a step can do -/

/-- The steps after which only the goroutine stands elsewhere. -/
inductive Moves (codec : EventCodec) (c : Controller channelBuffer)
    (g : Goroutine) : Stage → Prop where
  | refused {result : Result} (hstage : g.stage = .called)
      (hearly : g.call.early codec = some result) :
      Moves codec c g (.returned result c.closed)
  | again (hstage : g.stage = .called) (hcall : g.call = .close)
      (hdone : c.closeOnce = .done) :
      Moves codec c g (.returned (c.closeErr.elim .ok .failed) c.closed)
  | asks (hstage : g.stage = .called) (hcall : g.call ≠ .close)
      (hearly : g.call.early codec = none) : Moves codec c g .waiting
  | enters (hstage : g.stage = .waiting)
      (hcan : ReadWriteLock.CanRead Goroutine.mu c.goroutines) :
      Moves codec c g .entered
  | rejected (hstage : g.stage = .entered) (hclosed : c.closed = true) :
      Moves codec c g (.leaving g.call.whenClosed)
  | admitted (hstage : g.stage = .entered) (hopen : c.closed = false) :
      Moves codec c g .admitted
  | inserting {topic : Bytes} (hstage : g.stage = .admitted)
      (hcall : g.call = .subscribe topic)
      (hcan : ReadWriteLock.CanWrite Goroutine.subsMu c.goroutines) :
      Moves codec c g (.inserting topic)
  | anonymous (hstage : g.stage = .admitted) :
      Moves codec c g (.leaving (.failed errIdentityNotInitialized))
  | ready {input : Input} {event : Event} (hstage : g.stage = .admitted)
      (hevent : g.call.makeEvent codec input = some event) :
      Moves codec c g (.ready event)
  | ends {input : Input} {event : Event} (hstage : g.stage = .delivered event) :
      Moves codec c g (.leaving (g.call.afterDelivery codec input event))
  | returns {result : Result} (hstage : g.stage = .leaving result) :
      Moves codec c g (.returned result c.closed)
  | locks (hstage : g.stage = .locking)
      (hcan : ReadWriteLock.CanWrite Goroutine.mu c.goroutines) :
      Moves codec c g .locked
  | clears (hstage : g.stage = .marked)
      (hcan : ReadWriteLock.CanWrite Goroutine.subsMu c.goroutines) :
      Moves codec c g .clearing
  | cleared (hstage : g.stage = .clearing) (hempty : c.subscribers = ∅) :
      Moves codec c g .cleared
  | releases (hstage : g.stage = .cleared) : Moves codec c g .released

/-- What a step of the machine does, one constructor for each way it can go. -/
inductive Effect (codec : EventCodec) (c : Controller channelBuffer) :
    Controller channelBuffer → Prop where
  | nothing : Effect codec c c
  | called (call : Call) :
      Effect codec c { c with goroutines := c.goroutines ++ [{ call := call }] }
  | moved {position : ℕ} {g : Goroutine} {stage : Stage}
      (hg : c.goroutines[position]? = some g) (hmoves : Moves codec c g stage) :
      Effect codec c (c.move position g stage)
  | inserted {position : ℕ} {g : Goroutine} {topic : Bytes}
      (hg : c.goroutines[position]? = some g)
      (hstage : g.stage = .inserting topic) :
      Effect codec c ((c.insertSub topic).move position g
        (.leaving (.channel c.subscriptions.length)))
  | begun {position : ℕ} {g : Goroutine} {event : Event}
      (hg : c.goroutines[position]? = some g) (hstage : g.stage = .ready event)
      (hcan : ReadWriteLock.CanRead Goroutine.subsMu c.goroutines) :
      Effect codec c ((c.beginDelivery position event).move position g
        (.delivering c.deliveries.length event ∅))
  | sent {position : ℕ} {g : Goroutine} {delivery : ℕ} {event : Event}
      {visited : Finset ℕ} {id subscription : ℕ}
      (hg : c.goroutines[position]? = some g)
      (hstage : g.stage = .delivering delivery event visited)
      (hlookup : (c.topicSubs event.topic).lookup id = some subscription)
      (hunvisited : id ∉ visited) :
      Effect codec c ((c.send delivery event subscription).move position g
        (.delivering delivery event (insert id visited)))
  | ended {position : ℕ} {g : Goroutine} {delivery : ℕ} {event : Event}
      {visited : Finset ℕ} (hg : c.goroutines[position]? = some g)
      (hstage : g.stage = .delivering delivery event visited)
      (hall : (c.topicSubs event.topic).keys ⊆ visited) :
      Effect codec c ((c.endDelivery delivery).move position g
        (.delivered event))
  | started {position : ℕ} {g : Goroutine}
      (hg : c.goroutines[position]? = some g) (hstage : g.stage = .called)
      (hcall : g.call = .close) (hfresh : c.closeOnce = .fresh) :
      Effect codec c ({ c with closeOnce := .running }.move position g .locking)
  | marked {position : ℕ} {g : Goroutine}
      (hg : c.goroutines[position]? = some g) (hstage : g.stage = .locked) :
      Effect codec c ({ c with closed := true }.move position g .marked)
  | closedSub {position : ℕ} {g : Goroutine} {topic : Bytes}
      {id subscription : ℕ} (hg : c.goroutines[position]? = some g)
      (hstage : g.stage = .clearing)
      (hlookup : (c.topicSubs topic).lookup id = some subscription) :
      Effect codec c (c.closeSub topic id subscription)
  | dropped {position : ℕ} {g : Goroutine} {topic : Bytes}
      (hg : c.goroutines[position]? = some g) (hstage : g.stage = .clearing)
      (hempty : c.subscribers.lookup topic = some ∅) :
      Effect codec c { c with subscribers := c.subscribers.erase topic }
  | finished {position : ℕ} {g : Goroutine} {outcome : Option CoreError}
      (hg : c.goroutines[position]? = some g) (hstage : g.stage = .released) :
      Effect codec c
        ({ c with closeOnce := .done, closeErr := outcome }.move position g
          (.returned (outcome.elim .ok .failed) c.closed))
  | received (subscription : ℕ) : Effect codec c (c.receive subscription)

section

variable {codec : EventCodec} {c : Controller channelBuffer} {position : ℕ}
  {g : Goroutine}

theorem stepCalled_effect (hg : c.goroutines[position]? = some g)
    (hstage : g.stage = .called) :
    Effect codec c (c.stepCalled codec position g) := by
  by_cases hcall : g.call = .close
  · unfold stepCalled
    rw [hcall]
    cases honce : c.closeOnce with
    | fresh => exact .started hg hstage hcall honce
    | running => exact .nothing
    | done => exact .moved hg (.again hstage hcall honce)
  · have hstep : c.stepCalled codec position g =
        match g.call.early codec with
        | some result => c.move position g (.returned result c.closed)
        | none => c.move position g .waiting := by
      unfold stepCalled
      cases hcase : g.call with
      | close => exact absurd hcase hcall
      | _ => rfl
    rw [hstep]
    cases hearly : g.call.early codec with
    | some result => exact .moved hg (.refused hstage hearly)
    | none => exact .moved hg (.asks hstage hcall hearly)

theorem stepAdmitted_effect (hg : c.goroutines[position]? = some g)
    (hstage : g.stage = .admitted) (input : Input) :
    Effect codec c (c.stepAdmitted codec position g input) := by
  have hdelivers : ∀ call, g.call = call → Effect codec c
      (match call.makeEvent codec input with
        | none => c.move position g (.leaving (.failed errIdentityNotInitialized))
        | some event => c.move position g (.ready event)) := by
    rintro call rfl
    cases hevent : g.call.makeEvent codec input with
    | none => exact .moved hg (.anonymous hstage)
    | some event => exact .moved hg (.ready hstage hevent)
  unfold stepAdmitted
  cases hcall : g.call with
  | subscribe topic =>
      dsimp only
      split_ifs with hcan
      · exact .moved hg (.inserting hstage hcall hcan)
      · exact .nothing
  | _ => exact hdelivers _ hcall

theorem stepDelivering_effect (hg : c.goroutines[position]? = some g)
    {delivery : ℕ} {event : Event} {visited : Finset ℕ}
    (hstage : g.stage = .delivering delivery event visited) (input : Input) :
    Effect codec c
      (c.stepDelivering position g input delivery event visited) := by
  unfold stepDelivering
  cases input.subscriber with
  | some id =>
      dsimp only
      cases hlookup : (c.topicSubs event.topic).lookup id with
      | none => exact .nothing
      | some subscription =>
          dsimp only
          split_ifs with hvisited
          · exact .nothing
          · exact .sent hg hstage hlookup hvisited
  | none =>
      dsimp only
      split_ifs with hall
      · exact .ended hg hstage hall
      · exact .nothing

theorem stepClearing_effect (hg : c.goroutines[position]? = some g)
    (hstage : g.stage = .clearing) (input : Input) :
    Effect codec c (c.stepClearing position g input) := by
  unfold stepClearing
  cases input.subscriber with
  | some id =>
      dsimp only
      cases hlookup : (c.topicSubs input.topic).lookup id with
      | none => exact .nothing
      | some subscription => exact .closedSub hg hstage hlookup
  | none =>
      dsimp only
      split_ifs with hempty hdrained
      · exact .moved hg (.cleared hstage hempty)
      · exact .dropped hg hstage hdrained
      · exact .nothing

theorem advance_effect (hg : c.goroutines[position]? = some g)
    (input : Input) : Effect codec c (c.advance codec position g input) := by
  unfold advance
  cases hstage : g.stage with
  | called => exact stepCalled_effect hg hstage
  | waiting =>
      dsimp only
      split_ifs with hcan
      · exact .moved hg (.enters hstage hcan)
      · exact .nothing
  | entered =>
      dsimp only
      split_ifs with hclosed
      · exact .moved hg (.rejected hstage hclosed)
      · exact .moved hg (.admitted hstage (Bool.not_eq_true _ ▸ hclosed))
  | admitted => exact stepAdmitted_effect hg hstage input
  | inserting topic => exact .inserted hg hstage
  | ready event =>
      dsimp only
      split_ifs with hcan
      · exact .begun hg hstage hcan
      · exact .nothing
  | delivering delivery event visited =>
      exact stepDelivering_effect hg hstage input
  | delivered event => exact .moved hg (.ends hstage)
  | leaving result => exact .moved hg (.returns hstage)
  | locking =>
      dsimp only
      split_ifs with hcan
      · exact .moved hg (.locks hstage hcan)
      · exact .nothing
  | locked => exact .marked hg hstage
  | marked =>
      dsimp only
      split_ifs with hcan
      · exact .moved hg (.clears hstage hcan)
      · exact .nothing
  | clearing => exact stepClearing_effect hg hstage input
  | cleared => exact .moved hg (.releases hstage)
  | released => exact .finished hg hstage
  | returned => exact .nothing

theorem next_effect (c : Controller channelBuffer) (action : Action) :
    Effect codec c (c.next codec action) := by
  cases action with
  | call call => exact .called call
  | step position input =>
      dsimp only [next]
      cases hg : c.goroutines[position]? with
      | none => exact .nothing
      | some g => exact advance_effect hg input
  | receive subscription => exact .received subscription

end

end Controller

end GoP2P.ContentBus
