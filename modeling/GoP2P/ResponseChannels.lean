import GoP2P.Controller

/-!
# Sends on response channels

An entry of the table leads to a channel that is still open: the request that
made it removes the entry before it closes the channel.  A reply that has taken
the channel out of the table keeps it past that point, and nothing stops the
request from closing it in the meantime.
-/

namespace GoP2P.Node

namespace ControllerCalls

/-! ### Where the parts of the next state come from -/

theorem next_pending {s : ControllerCalls} {action : ControllerAction}
    {id : Bytes} {request : ℕ}
    (hlookup : (s.next action).pending.lookup id = some request) :
    (s.pending.lookup id = some request ∧
      (action = .remove request → ∀ call,
        s.requests[request]? = some call → call.msg.id ≠ id)) ∨
      (action = .register request ∧
        ∃ call, s.requests[request]? = some call ∧ call.msg.id = id) := by
  have heffect := s.next_effect action
  generalize s.next action = s' at heffect hlookup
  cases heffect with
  | nothing hmissing =>
      refine .inl ⟨hlookup, ?_⟩
      intro haction call hcall
      rw [hmissing request haction] at hcall
      cases hcall
  | @registered position call haction hcall =>
      subst haction
      by_cases hid : id = call.msg.id
      · subst hid
        rw [Finmap.lookup_insert, Option.some.injEq] at hlookup
        subst hlookup
        exact .inr ⟨rfl, call, hcall, rfl⟩
      · rw [Finmap.lookup_insert_of_ne _ hid] at hlookup
        exact .inl ⟨hlookup, by simp⟩
  | removed haction hremoved =>
      subst haction
      rcases lookup_of_lookup_erase hlookup with ⟨hid, hlookup⟩
      refine .inl ⟨hlookup, ?_⟩
      intro haction call hcall
      cases haction
      rw [hremoved, Option.some.injEq] at hcall
      subst hcall
      exact Ne.symm hid
  | moved hmoves _ =>
      refine .inl ⟨hlookup, ?_⟩
      intro haction
      subst haction
      cases hmoves
  | took haction =>
      exact .inl ⟨(lookup_of_lookup_erase hlookup).2, by simp [haction]⟩
  | passed haction =>
      refine .inl ⟨hlookup, ?_⟩
      rcases haction with haction | haction <;> simp [haction]
  | requested haction | arrived haction | sent haction | panicked haction =>
      exact .inl ⟨hlookup, by simp [haction]⟩

theorem next_requests_new {s : ControllerCalls} {action : ControllerAction}
    {request : ℕ} {call : SendRequestCall}
    (hnone : s.requests[request]? = none)
    (hcall : (s.next action).requests[request]? = some call) :
    call.respCh.closed = false := by
  have heffect := s.next_effect action
  generalize s.next action = s' at heffect hcall
  have hset : ∀ position changed,
      (s.requests.set position changed)[request]? = none := by
    intro position changed
    rw [List.getElem?_eq_none_iff, List.length_set]
    exact List.getElem?_eq_none_iff.mp hnone
  cases heffect with
  | requested =>
      rcases getElem?_concat_cases hcall with hold | ⟨-, rfl⟩
      · rw [hnone] at hold
        cases hold
      · rfl
  | registered | moved | removed | sent =>
      rw [hset] at hcall
      cases hcall
  | nothing | arrived | passed | took | panicked =>
      rw [hnone] at hcall
      cases hcall

/-- How a reply comes to its stage in the next state: it was there, it holds
nothing, it has taken a channel from the table, or it has sent on a closed
one. -/
inductive ResponseOrigin (s : ControllerCalls) (response : ℕ)
    (call : HandleResponseCall) : Prop where
  | kept (hold : s.responses[response]? = some call)
  | idle (hstage : call.stage = .arrived ∨ call.stage = .returned)
  | taken {id : Bytes} {request : ℕ}
      (hlookup : s.pending.lookup id = some request)
      (hstage : call.stage = .holding request)
  | panicked {old : HandleResponseCall} {request : ℕ}
      {requested : SendRequestCall} (hold : s.responses[response]? = some old)
      (hstage : old.stage = .holding request)
      (hrequested : s.requests[request]? = some requested)
      (hclosed : requested.respCh.closed = true)
      (hpanicked : call.stage = .panicked)

theorem origin_of_set {s : ControllerCalls} {position response : ℕ}
    {new call : HandleResponseCall}
    (hcall : (s.responses.set position new)[response]? = some call)
    (hnew : ResponseOrigin s position new) :
    ResponseOrigin s response call := by
  rcases getElem?_set_cases hcall with ⟨rfl, rfl⟩ | ⟨-, hold⟩
  · exact hnew
  · exact .kept hold

theorem next_responses {s : ControllerCalls} {action : ControllerAction}
    {response : ℕ} {call : HandleResponseCall}
    (hcall : (s.next action).responses[response]? = some call) :
    ResponseOrigin s response call := by
  have heffect := s.next_effect action
  generalize s.next action = s' at heffect hcall
  cases heffect with
  | arrived =>
      rcases getElem?_concat_cases hcall with hold | ⟨-, rfl⟩
      · exact .kept hold
      · exact .idle (.inl rfl)
  | passed | sent => exact origin_of_set hcall (.idle (.inr rfl))
  | took _ _ _ hlookup => exact origin_of_set hcall (.taken hlookup rfl)
  | panicked _ hreply hholding hrequested hclosed =>
      exact origin_of_set hcall
        (.panicked hreply hholding hrequested hclosed rfl)
  | nothing | requested | registered | moved | removed => exact .kept hcall

/-! ### Open channels -/

/-- An entry of the table is of a request that has its ID and has not removed
it yet. -/
def EntriesListed (s : ControllerCalls) : Prop :=
  ∀ ⦃id : Bytes⦄ ⦃request : ℕ⦄, s.pending.lookup id = some request →
    ∃ call, s.requests[request]? = some call ∧ call.msg.id = id ∧
      call.stage.listed = true

theorem next_listed {s : ControllerCalls} {action : ControllerAction}
    (hready : s.Ready action) (hentries : s.EntriesListed) :
    (s.next action).EntriesListed := by
  intro id request hlookup
  rcases next_pending hlookup with
    ⟨hlookup, hkept⟩ | ⟨haction, call, hcall, hid⟩
  · rcases hentries hlookup with ⟨call, hcall, hid, hlisted⟩
    rcases next_requests hready hcall with ⟨call', hcall', hadvances⟩
    refine ⟨call', hcall', by rw [hadvances.msg, hid], ?_⟩
    apply hadvances.listed hlisted
    intro haction
    exact hkept haction call hcall hid
  · subst haction
    have hlt := (List.getElem?_eq_some_iff.mp hcall).1
    unfold ControllerCalls.next
    simp only [hcall]
    exact ⟨_, List.getElem?_set_self hlt, hid, rfl⟩

structure ChannelsOpen (s : ControllerCalls) : Prop where
  listed : s.EntriesListed
  closed : ∀ ⦃request : ℕ⦄ ⦃call : SendRequestCall⦄,
    s.requests[request]? = some call → call.respCh.closed = true →
      call.stage = .returned
  held : ∀ ⦃response : ℕ⦄ ⦃call : HandleResponseCall⦄ ⦃request : ℕ⦄,
    s.responses[response]? = some call → call.stage = .holding request →
      ∃ requested, s.requests[request]? = some requested ∧
        requested.respCh.closed = false
  running : ¬s.Panicked

theorem ChannelsOpen.listed_open {s : ControllerCalls} (hopen : s.ChannelsOpen)
    {id : Bytes} {request : ℕ} (hlookup : s.pending.lookup id = some request) :
    ∃ call, s.requests[request]? = some call ∧ call.stage.listed = true ∧
      call.respCh.closed = false := by
  rcases hopen.listed hlookup with ⟨call, hcall, -, hlisted⟩
  refine ⟨call, hcall, hlisted, ?_⟩
  by_contra hclosed
  rw [Bool.not_eq_false] at hclosed
  rw [hopen.closed hcall hclosed] at hlisted
  cases hlisted

/-- A request closes its channel only while no reply holds it. -/
def ClosesUnheld (s : ControllerCalls) : ControllerAction → Prop
  | .close request => ∀ call ∈ s.responses, call.stage ≠ .holding request
  | _ => True

instance (s : ControllerCalls) : DecidablePred s.ClosesUnheld
  | .close request =>
      inferInstanceAs
        (Decidable (∀ call ∈ s.responses, call.stage ≠ .holding request))
  | .request _ _ _ | .register _ | .send _ _ | .receive _ | .timeout _
  | .remove _ | .respond _ _ | .take _ | .deliver _ => .isTrue trivial

/-- A channel that is open and not the one being closed stays open. -/
theorem next_open {s : ControllerCalls} {action : ControllerAction}
    (hready : s.Ready action) {request : ℕ} {call : SendRequestCall}
    (hcall : s.requests[request]? = some call)
    (hopen : call.respCh.closed = false) (haction : action ≠ .close request) :
    ∃ call', (s.next action).requests[request]? = some call' ∧
      call'.respCh.closed = false := by
  rcases next_requests hready hcall with ⟨call', hcall', hadvances⟩
  refine ⟨call', hcall', ?_⟩
  by_contra hclosed
  rw [Bool.not_eq_false] at hclosed
  rcases hadvances.closed hclosed with h | h
  · rw [hopen] at h
    cases h
  · exact haction h.1

theorem ChannelsOpen.next {s : ControllerCalls} (hopen : s.ChannelsOpen)
    {action : ControllerAction} (hready : s.Ready action)
    (hunheld : s.ClosesUnheld action) : (s.next action).ChannelsOpen := by
  constructor
  · exact next_listed hready hopen.listed
  · intro request call' hcall' hclosed'
    cases hcall : s.requests[request]? with
    | none =>
        rw [next_requests_new hcall hcall'] at hclosed'
        cases hclosed'
    | some call =>
        rcases next_requests hready hcall with ⟨_, hsame, hadvances⟩
        rw [hcall', Option.some.injEq] at hsame
        subst hsame
        rcases hadvances.closed hclosed' with hclosed | ⟨-, hreturned⟩
        · exact hadvances.returned (hopen.closed hcall hclosed)
        · exact hreturned
  · intro response call request hcall hstage
    cases next_responses hcall with
    | kept hold =>
        rcases hopen.held hold hstage with ⟨requested, hrequested, hclosed⟩
        apply next_open hready hrequested hclosed
        intro haction
        subst haction
        exact hunheld call (List.mem_of_getElem? hold) hstage
    | idle hidle =>
        rw [hstage] at hidle
        rcases hidle with h | h <;> cases h
    | taken hlookup htaken =>
        rw [hstage] at htaken
        cases htaken
        rcases hopen.listed_open hlookup with
          ⟨requested, hrequested, hlisted, hclosed⟩
        apply next_open hready hrequested hclosed
        intro haction
        subst haction
        rw [RequestAt.stage_eq hready hrequested] at hlisted
        cases hlisted
    | panicked hold hheld hrequested hclosed hpanicked =>
        rw [hstage] at hpanicked
        cases hpanicked
  · intro hpanicked
    rcases hpanicked with ⟨call, hmem, hstage⟩
    rcases List.getElem?_of_mem hmem with ⟨response, hcall⟩
    cases next_responses hcall with
    | kept hold => exact hopen.running ⟨call, List.mem_of_getElem? hold, hstage⟩
    | idle hidle =>
        rw [hstage] at hidle
        rcases hidle with h | h <;> cases h
    | taken hlookup htaken =>
        rw [hstage] at htaken
        cases htaken
    | panicked hold hheld hrequested hclosed =>
        rcases hopen.held hold hheld with ⟨requested, hrequested', hopen'⟩
        rw [hrequested, Option.some.injEq] at hrequested'
        subst hrequested'
        rw [hopen'] at hclosed
        cases hclosed

/-- In every run in which no request closes a channel that a reply holds, no
reply is sent on a closed channel. -/
theorem never_sends_on_closed {s : ControllerCalls}
    (hrun : machine.Run ClosesUnheld s) : ¬s.Panicked := by
  have hopen : s.ChannelsOpen := by
    apply hrun.invariant
    · intro start hinitial
      cases hinitial
      constructor
      · intro id request hlookup
        cases hlookup
      · intro request call hcall
        cases hcall
      · intro response call request hcall
        cases hcall
      · simp [Panicked]
    · intro before action _ hbefore henabled hunheld
      exact hbefore.next henabled.2 hunheld
  exact hopen.running

/-! ### Sample runs -/

/-- A request with the ID 1 to a connected peer. -/
def sampleRequest : ControllerAction :=
  .request [2] { id := [1] }
    { isConnected := true, peer := none, connected := .error .eof }

def sampleReply : ControllerAction :=
  .respond
    { peer := { id := [2] }
      sharedSecret := []
      lastActivity := 0
      rateLimiter := none }
    { id := [3], replyTo := [1] }

/-- The reply arrives in time and the request returns it. -/
def sampleAnswered : List ControllerAction :=
  [sampleRequest, .register 0, .send 0 (.ok ()), sampleReply, .take 0,
    .deliver 0, .receive 0, .remove 0, .close 0]

theorem never_sends_on_closed_answered :
    let s := machine.replay {} sampleAnswered
    s.requests.map (·.result) =
        [some (.ok { id := [3], replyTo := [1] })] ∧ ¬s.Panicked := by
  refine ⟨by decide, ?_⟩
  exact never_sends_on_closed (Machine.Run.replay (.start rfl) (by decide))

/-- The request times out while the reply holds its channel. -/
def sampleLateReply : List ControllerAction :=
  [sampleRequest, .register 0, .send 0 (.ok ()), sampleReply, .take 0,
    .timeout 0, .remove 0, .close 0, .deliver 0]

theorem late_reply_sends_on_closed :
    ∃ s, machine.Reachable s ∧ s.Panicked := by
  have hreplays : machine.Replays (fun _ _ => True) {} sampleLateReply := by
    decide
  exact ⟨_, Machine.Run.replay (.start rfl) hreplays, by decide⟩

end ControllerCalls

end GoP2P.Node
