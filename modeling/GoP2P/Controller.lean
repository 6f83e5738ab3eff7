import GoP2P.Channels
import GoP2P.Processes
import GoP2P.Runs
import GoP2P.Tables
import GoP2P.Transport

/-!
# The controller

`sendRequest` registers a response channel under the ID of its message, sends
the message and waits; its cleanup removes the entry and closes the channel.
`handleResponse` takes the channel out of the table under the lock and sends on
it after it has given the lock back.  Each of these is a step of its own, so
any number of requests and replies may be between two of them at once.
-/

namespace GoP2P.Node

/-! ### Requests -/

/-- What `sendRequest` finds when it looks for the peer: a connection, or else
the record of the peer and what `Connect` made of it. -/
structure PeerSearch where
  isConnected : Bool
  peer : Option Peer
  connected : Except CoreError Peer
  deriving DecidableEq

/-- The peer that a request goes to and the message as it is sent; a new
connection may have another ID than the one asked for. -/
def requestTarget (peerID : Bytes) (msg : Message) (search : PeerSearch) :
    Except CoreError (Bytes × Message) :=
  if search.isConnected then .ok (peerID, msg)
  else
    match search.peer with
    | none =>
        .error (.op "Controller.sendRequest" (text "peer not found: " ++ peerID))
    | some _ =>
        match search.connected with
        | .error err =>
            .error (.wrap "Controller.sendRequest"
              (text "failed to connect to peer") err)
        | .ok peer => .ok (peer.id, { msg with toNode := peer.id })

inductive RequestStage where
  | created
  | registered
  | waiting
  | leaving
  | removed
  | returned
  deriving DecidableEq, Repr

/-- The table may hold the channel of a request at this stage. -/
def RequestStage.listed : RequestStage → Bool
  | .registered | .waiting | .leaving => true
  | _ => false

/-- A call of `sendRequest` that has found its peer, with the channel it made. -/
structure SendRequestCall where
  actualPeerID : Bytes
  msg : Message
  respCh : Channel Message 1 := {}
  stage : RequestStage := .created
  result : Option (Except CoreError Message) := none
  deriving DecidableEq

/-! ### Responses -/

inductive ResponseStage where
  | arrived
  | holding (request : ℕ)
  | returned
  | panicked
  deriving DecidableEq, Repr

def ResponseStage.isHolding : ResponseStage → Bool
  | .holding _ => true
  | _ => false

/-- A call of `handleResponse`; the channel it holds is the one of `request`. -/
structure HandleResponseCall where
  conn : PeerConnection
  msg : Message
  stage : ResponseStage := .arrived
  deriving DecidableEq

/-! ### The machine -/

structure ControllerCalls where
  pending : Finmap (fun _ : Bytes => ℕ) := ∅
  requests : List SendRequestCall := []
  responses : List HandleResponseCall := []

inductive ControllerAction where
  | request (peerID : Bytes) (msg : Message) (search : PeerSearch)
  | register (request : ℕ)
  | send (request : ℕ) (sent : Except CoreError Unit)
  | receive (request : ℕ)
  | timeout (request : ℕ)
  | remove (request : ℕ)
  | close (request : ℕ)
  | respond (conn : PeerConnection) (msg : Message)
  | take (response : ℕ)
  | deliver (response : ℕ)
  deriving DecidableEq

namespace SendRequestCall

def leave (call : SendRequestCall) (result : Except CoreError Message) :
    SendRequestCall :=
  { call with stage := .leaving, result := some result }

def afterSend (call : SendRequestCall) (sent : Except CoreError Unit) :
    SendRequestCall :=
  match sent with
  | .ok _ => { call with stage := .waiting }
  | .error err =>
      call.leave (.error (.wrap "Controller.sendRequest"
        (text "failed to send message") err))

def afterReceive (call : SendRequestCall) : SendRequestCall :=
  match call.respCh.receive? with
  | none => call
  | some (resp, respCh) => { call with respCh := respCh }.leave (.ok resp)

def afterTimeout (call : SendRequestCall) : SendRequestCall :=
  call.leave (.error (.op "Controller.sendRequest" (text "request timeout")))

end SendRequestCall

namespace ControllerCalls

def stepRequest (s : ControllerCalls) (request : ℕ)
    (change : SendRequestCall → SendRequestCall) : ControllerCalls :=
  match s.requests[request]? with
  | none => s
  | some call =>
      { s with requests := s.requests.set request (change call) }

/-- The first half of `handleResponse`, under the lock. -/
def take (s : ControllerCalls) (response : ℕ) : ControllerCalls :=
  match s.responses[response]? with
  | none => s
  | some call =>
      if call.msg.replyTo = [] then
        { s with responses :=
            s.responses.set response { call with stage := .returned } }
      else
        match s.pending.lookup call.msg.replyTo with
        | none =>
            { s with responses :=
                s.responses.set response { call with stage := .returned } }
        | some request =>
            { s with
              pending := s.pending.erase call.msg.replyTo
              responses :=
                s.responses.set response
                  { call with stage := .holding request } }

/-- The second half: the send on the channel it holds. -/
def deliver (s : ControllerCalls) (response : ℕ) : ControllerCalls :=
  match s.responses[response]? with
  | none => s
  | some call =>
      match call.stage with
      | .holding request =>
          match s.requests[request]? with
          | none => s
          | some requested =>
              match requested.respCh.trySend call.msg with
              | .sent respCh =>
                  { s with
                    requests :=
                      s.requests.set request { requested with respCh := respCh }
                    responses :=
                      s.responses.set response { call with stage := .returned } }
              | .notReady =>
                  { s with responses :=
                      s.responses.set response { call with stage := .returned } }
              | .panicked =>
                  { s with responses :=
                      s.responses.set response { call with stage := .panicked } }
      | _ => s

def next (s : ControllerCalls) : ControllerAction → ControllerCalls
  | .request peerID msg search =>
      match requestTarget peerID msg search with
      | .error _ => s
      | .ok (actualPeerID, msg) =>
          { s with requests :=
              s.requests ++ [{ actualPeerID := actualPeerID, msg := msg }] }
  | .register request =>
      match s.requests[request]? with
      | none => s
      | some call =>
          { s with
            pending := s.pending.insert call.msg.id request
            requests :=
              s.requests.set request { call with stage := .registered } }
  | .send request sent => s.stepRequest request (·.afterSend sent)
  | .receive request => s.stepRequest request (·.afterReceive)
  | .timeout request => s.stepRequest request (·.afterTimeout)
  | .remove request =>
      match s.requests[request]? with
      | none => s
      | some call =>
          { s with
            pending := s.pending.erase call.msg.id
            requests := s.requests.set request { call with stage := .removed } }
  | .close request =>
      s.stepRequest request fun call =>
        { call with stage := .returned, respCh := call.respCh.close }
  | .respond conn msg =>
      { s with responses := s.responses ++ [{ conn := conn, msg := msg }] }
  | .take response => s.take response
  | .deliver response => s.deliver response

def RequestAt (s : ControllerCalls) (request : ℕ) (stage : RequestStage) :
    Prop :=
  (s.requests[request]?).map (·.stage) = some stage

instance (s : ControllerCalls) (request : ℕ) (stage : RequestStage) :
    Decidable (s.RequestAt request stage) :=
  inferInstanceAs (Decidable (_ = _))

def Ready (s : ControllerCalls) : ControllerAction → Prop
  | .request _ _ _ | .respond _ _ => True
  | .register request => s.RequestAt request .created
  | .send request _ => s.RequestAt request .registered
  | .receive request =>
      s.RequestAt request .waiting ∧
        ((s.requests[request]?).bind (·.respCh.receive?)).isSome
  | .timeout request => s.RequestAt request .waiting
  | .remove request => s.RequestAt request .leaving
  | .close request => s.RequestAt request .removed
  | .take response =>
      (s.responses[response]?).map (·.stage) = some .arrived
  | .deliver response =>
      (s.responses[response]?).map (·.stage.isHolding) = some true

instance (s : ControllerCalls) (action : ControllerAction) :
    Decidable (s.Ready action) := by
  unfold Ready
  split <;> infer_instance

/-- A send on a closed channel. -/
def Panicked (s : ControllerCalls) : Prop :=
  ∃ call ∈ s.responses, call.stage = .panicked

instance (s : ControllerCalls) : Decidable s.Panicked :=
  inferInstanceAs (Decidable (∃ call ∈ _, _))

/-- A panic in a goroutine ends the process. -/
def Enabled (s : ControllerCalls) (action : ControllerAction) : Prop :=
  ¬s.Panicked ∧ s.Ready action

def machine : Machine ControllerCalls ControllerAction where
  initial s := s = {}
  enabled := Enabled
  next := next

instance (s : ControllerCalls) (action : ControllerAction) :
    Decidable (machine.enabled s action) :=
  inferInstanceAs (Decidable (_ ∧ _))

/-! ### What a step does -/

end ControllerCalls

/-- The request that the action moves without touching the table, and how. -/
def ControllerAction.moves :
    ControllerAction → Option (ℕ × (SendRequestCall → SendRequestCall))
  | .send position sent => some (position, (·.afterSend sent))
  | .receive position => some (position, (·.afterReceive))
  | .timeout position => some (position, (·.afterTimeout))
  | .close position => some (position, fun call =>
      { call with stage := .returned, respCh := call.respCh.close })
  | _ => none

namespace ControllerCalls

/-- What a step does to the calls and to the table, one constructor for each
way it can go. -/
inductive Effect (s : ControllerCalls) (action : ControllerAction) :
    ControllerCalls → Prop where
  | nothing
      (hmissing : ∀ request, action = .remove request →
        s.requests[request]? = none) :
      Effect s action s
  | requested {peerID : Bytes} {msg : Message} {search : PeerSearch}
      {target : Bytes × Message} (haction : action = .request peerID msg search)
      (htarget : requestTarget peerID msg search = .ok target) :
      Effect s action
        { s with requests :=
            s.requests ++ [{ actualPeerID := target.1, msg := target.2 }] }
  | registered {request : ℕ} {call : SendRequestCall}
      (haction : action = .register request)
      (hcall : s.requests[request]? = some call) :
      Effect s action
        { s with
          pending := s.pending.insert call.msg.id request
          requests := s.requests.set request { call with stage := .registered } }
  | moved {request : ℕ} {change : SendRequestCall → SendRequestCall}
      {call : SendRequestCall} (hmoves : action.moves = some (request, change))
      (hcall : s.requests[request]? = some call) :
      Effect s action
        { s with requests := s.requests.set request (change call) }
  | removed {request : ℕ} {call : SendRequestCall}
      (haction : action = .remove request)
      (hcall : s.requests[request]? = some call) :
      Effect s action
        { s with
          pending := s.pending.erase call.msg.id
          requests := s.requests.set request { call with stage := .removed } }
  | arrived {conn : PeerConnection} {msg : Message}
      (haction : action = .respond conn msg) :
      Effect s action
        { s with responses := s.responses ++ [{ conn := conn, msg := msg }] }
  | passed {response : ℕ} {reply : HandleResponseCall}
      (haction : action = .take response ∨ action = .deliver response)
      (hreply : s.responses[response]? = some reply) :
      Effect s action
        { s with responses :=
            s.responses.set response { reply with stage := .returned } }
  | took {response request : ℕ} {reply : HandleResponseCall}
      (haction : action = .take response)
      (hreply : s.responses[response]? = some reply)
      (hnamed : reply.msg.replyTo ≠ [])
      (hlookup : s.pending.lookup reply.msg.replyTo = some request) :
      Effect s action
        { s with
          pending := s.pending.erase reply.msg.replyTo
          responses :=
            s.responses.set response { reply with stage := .holding request } }
  | sent {response request : ℕ} {reply : HandleResponseCall}
      {requested : SendRequestCall} {respCh : Channel Message 1}
      (haction : action = .deliver response)
      (hreply : s.responses[response]? = some reply)
      (hholding : reply.stage = .holding request)
      (hrequested : s.requests[request]? = some requested)
      (hsent : requested.respCh.trySend reply.msg = .sent respCh) :
      Effect s action
        { s with
          requests := s.requests.set request { requested with respCh := respCh }
          responses :=
            s.responses.set response { reply with stage := .returned } }
  | panicked {response request : ℕ} {reply : HandleResponseCall}
      {requested : SendRequestCall} (haction : action = .deliver response)
      (hreply : s.responses[response]? = some reply)
      (hholding : reply.stage = .holding request)
      (hrequested : s.requests[request]? = some requested)
      (hclosed : requested.respCh.closed = true) :
      Effect s action
        { s with responses :=
            s.responses.set response { reply with stage := .panicked } }

theorem stepRequest_effect {s : ControllerCalls} {action : ControllerAction}
    {request : ℕ} {change : SendRequestCall → SendRequestCall}
    (hmoves : action.moves = some (request, change)) :
    Effect s action (s.stepRequest request change) := by
  unfold stepRequest
  split
  · apply Effect.nothing
    intro other haction
    subst haction
    cases hmoves
  next call hcall => exact .moved hmoves hcall

theorem take_effect (s : ControllerCalls) (response : ℕ) :
    Effect s (.take response) (s.take response) := by
  unfold take
  split
  · exact .nothing (by simp)
  next reply hreply =>
    split
    · exact .passed (.inl rfl) hreply
    next hnamed =>
      split
      · exact .passed (.inl rfl) hreply
      next request hlookup => exact .took rfl hreply hnamed hlookup

theorem deliver_effect (s : ControllerCalls) (response : ℕ) :
    Effect s (.deliver response) (s.deliver response) := by
  unfold deliver
  split
  · exact .nothing (by simp)
  next reply hreply =>
    split
    next request hholding =>
      split
      · exact .nothing (by simp)
      next requested hrequested =>
        split
        next respCh hsent => exact .sent rfl hreply hholding hrequested hsent
        · exact .passed (.inr rfl) hreply
        next hpanicked =>
          exact .panicked rfl hreply hholding hrequested
            (Channel.trySend_eq_panicked_iff.mp hpanicked)
    · exact .nothing (by simp)

theorem next_effect (s : ControllerCalls) (action : ControllerAction) :
    Effect s action (s.next action) := by
  cases action with
  | request peerID msg search =>
      unfold next
      dsimp only
      split
      · exact .nothing (by simp)
      next htarget => exact .requested rfl htarget
  | register request =>
      unfold next
      dsimp only
      split
      · exact .nothing (by simp)
      next call hcall => exact .registered rfl hcall
  | remove request =>
      unfold next
      dsimp only
      split
      next hmissing =>
        apply Effect.nothing
        intro other haction
        cases haction
        exact hmissing
      next call hcall => exact .removed rfl hcall
  | send | receive | timeout | close => exact stepRequest_effect rfl
  | respond conn msg => exact .arrived rfl
  | take response => exact s.take_effect response
  | deliver response => exact s.deliver_effect response

/-- What a step may do to a request: its message stays, it leaves the listed
stages only by removing its entry, and its channel is closed only when it
returns. -/
structure RequestAdvances (action : ControllerAction) (request : ℕ)
    (call call' : SendRequestCall) : Prop where
  msg : call'.msg = call.msg
  listed : call.stage.listed = true → action ≠ .remove request →
    call'.stage.listed = true
  returned : call.stage = .returned → call'.stage = .returned
  closed : call'.respCh.closed = true →
    call.respCh.closed = true ∨
      (action = .close request ∧ call'.stage = .returned)

theorem RequestAdvances.refl (action : ControllerAction) (request : ℕ)
    (call : SendRequestCall) : RequestAdvances action request call call where
  msg := rfl
  listed hlisted _ := hlisted
  returned hreturned := hreturned
  closed := .inl

theorem RequestAt.stage_eq {s : ControllerCalls} {request : ℕ}
    {stage : RequestStage} {call : SendRequestCall}
    (hat : s.RequestAt request stage)
    (hcall : s.requests[request]? = some call) : call.stage = stage := by
  unfold RequestAt at hat
  rw [hcall] at hat
  exact Option.some.inj hat

theorem exists_advance_of_set {action : ControllerAction}
    {requests : List SendRequestCall} {position request : ℕ}
    {old new call : SendRequestCall} (hold : requests[position]? = some old)
    (hadvances : RequestAdvances action position old new)
    (hcall : requests[request]? = some call) :
    ∃ call', (requests.set position new)[request]? = some call' ∧
      RequestAdvances action request call call' := by
  refine exists_getElem?_set hold hcall ?_ (.refl action request call)
  intro hposition hsame
  subst hposition hsame
  exact hadvances

theorem moves_advances {s : ControllerCalls} {action : ControllerAction}
    (hready : s.Ready action) {request : ℕ}
    {change : SendRequestCall → SendRequestCall}
    (hmoves : action.moves = some (request, change)) {call : SendRequestCall}
    (hcall : s.requests[request]? = some call) :
    RequestAdvances action request call (change call) := by
  cases action with
  | send position sent =>
      cases hmoves
      have hstage := RequestAt.stage_eq hready hcall
      dsimp only [SendRequestCall.afterSend]
      split <;> constructor <;>
        simp [hstage, RequestStage.listed, SendRequestCall.leave]
  | receive position =>
      cases hmoves
      have hstage := RequestAt.stage_eq hready.1 hcall
      dsimp only [SendRequestCall.afterReceive]
      split
      · exact .refl _ _ _
      next resp respCh hreceived =>
        have hclosed := Channel.closed_of_receive? hreceived
        constructor <;>
          simp [hstage, hclosed, RequestStage.listed, SendRequestCall.leave]
  | timeout position =>
      cases hmoves
      have hstage := RequestAt.stage_eq hready hcall
      constructor <;>
        simp [hstage, RequestStage.listed, SendRequestCall.afterTimeout,
          SendRequestCall.leave]
  | close position =>
      cases hmoves
      have hstage := RequestAt.stage_eq hready hcall
      constructor <;> simp [hstage, RequestStage.listed]
  | _ => cases hmoves

theorem next_requests {s : ControllerCalls} {action : ControllerAction}
    (hready : s.Ready action) {request : ℕ} {call : SendRequestCall}
    (hcall : s.requests[request]? = some call) :
    ∃ call', (s.next action).requests[request]? = some call' ∧
      RequestAdvances action request call call' := by
  have heffect := s.next_effect action
  generalize s.next action = s' at heffect ⊢
  have hsame := RequestAdvances.refl action request call
  cases heffect with
  | requested =>
      exact ⟨call, getElem?_concat_of_some hcall _, hsame⟩
  | registered haction hold =>
      subst haction
      have hstage := RequestAt.stage_eq hready hold
      refine exists_advance_of_set hold ?_ hcall
      constructor <;> simp [hstage, RequestStage.listed]
  | moved hmoves hold =>
      exact exists_advance_of_set hold (moves_advances hready hmoves hold) hcall
  | removed haction hold =>
      subst haction
      have hstage := RequestAt.stage_eq hready hold
      refine exists_advance_of_set hold ?_ hcall
      constructor <;> simp [hstage]
  | sent haction _ _ hrequested hsent =>
      refine exists_advance_of_set hrequested ?_ hcall
      constructor <;> simp [Channel.closed_of_trySend hsent, haction]
  | nothing | arrived | passed | took | panicked => exact ⟨call, hcall, hsame⟩

end ControllerCalls

end GoP2P.Node
