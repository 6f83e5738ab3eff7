import GoP2P.ResponseChannels

/-!
# Which reply answers which request

A reply takes the entry it answers out of the table, so the pairs of a reply
and the request whose entry it took form a matching: neither side occurs
twice.  Whatever lies in the channel of a request, and whatever the request
returns, is the message of the reply it is matched with.  The entry is found by
the ID alone; the connection a reply came on is not looked at.
-/

namespace GoP2P.Node

/-- The message is in the channel of the call or is its result. -/
def SendRequestCall.Carries (call : SendRequestCall) (msg : Message) : Prop :=
  msg ∈ call.respCh.buffer ∨ call.result = some (.ok msg)

namespace ControllerCalls

/-! ### What a step does to a request -/

/-- What a request keeps in a step, and where the messages it carries
afterwards come from. -/
structure RequestKeeps (s : ControllerCalls) (request : ℕ)
    (old new : SendRequestCall) : Prop where
  actualPeerID : new.actualPeerID = old.actualPeerID
  msg : new.msg = old.msg
  started : old.stage ≠ .created → new.stage ≠ .created
  carried : ∀ msg, new.Carries msg → old.Carries msg ∨
    ∃ (response : ℕ) (reply : HandleResponseCall),
      s.responses[response]? = some reply ∧
        reply.stage = .holding request ∧ reply.msg = msg

theorem RequestKeeps.refl (s : ControllerCalls) (request : ℕ)
    (call : SendRequestCall) : s.RequestKeeps request call call where
  actualPeerID := rfl
  msg := rfl
  started hstarted := hstarted
  carried _ hcarries := .inl hcarries

/-- A request in the next state is one from before, or the one that the action
makes. -/
inductive RequestOrigin (s : ControllerCalls) (action : ControllerAction)
    (request : ℕ) (call : SendRequestCall) : Prop where
  | kept {old : SendRequestCall} (hold : s.requests[request]? = some old)
      (hkeeps : s.RequestKeeps request old call)
  | made {peerID : Bytes} {msg : Message} {search : PeerSearch}
      (haction : action = .request peerID msg search)
      (htarget : requestTarget peerID msg search =
        .ok (call.actualPeerID, call.msg))
      (hcall : call = { actualPeerID := call.actualPeerID, msg := call.msg })
      (hnew : request = s.requests.length)

theorem RequestOrigin.same {s : ControllerCalls} {action : ControllerAction}
    {request : ℕ} {call : SendRequestCall}
    (hcall : s.requests[request]? = some call) :
    s.RequestOrigin action request call :=
  .kept hcall (.refl s request call)

theorem requestOrigin_of_set {s : ControllerCalls} {action : ControllerAction}
    {position request : ℕ} {old new call : SendRequestCall}
    (hold : s.requests[position]? = some old)
    (hkeeps : s.RequestKeeps position old new)
    (hcall : (s.requests.set position new)[request]? = some call) :
    s.RequestOrigin action request call := by
  rcases getElem?_set_cases hcall with ⟨rfl, rfl⟩ | ⟨-, hother⟩
  · exact .kept hold hkeeps
  · exact .same hother

/-- A change of the stage alone, to one that is not the first. -/
theorem requestKeeps_stage (s : ControllerCalls) (request : ℕ)
    (old : SendRequestCall) {stage : RequestStage} (hstage : stage ≠ .created) :
    s.RequestKeeps request old { old with stage := stage } where
  actualPeerID := rfl
  msg := rfl
  started _ := hstage
  carried _ hcarries := .inl hcarries

theorem requestKeeps_fail (s : ControllerCalls) (request : ℕ)
    (old : SendRequestCall) (err : CoreError) :
    s.RequestKeeps request old (old.leave (.error err)) where
  actualPeerID := rfl
  msg := rfl
  started _ := by simp [SendRequestCall.leave]
  carried msg hcarries := by
    rcases hcarries with hbuffer | hresult
    · exact .inl (.inl hbuffer)
    · cases hresult

theorem requestKeeps_afterReceive (s : ControllerCalls) (request : ℕ)
    (old : SendRequestCall) : s.RequestKeeps request old old.afterReceive := by
  unfold SendRequestCall.afterReceive
  cases hreceived : old.respCh.receive? with
  | none => exact .refl s request old
  | some received =>
      rcases received with ⟨resp, respCh⟩
      have hbuffer := Channel.buffer_of_receive? hreceived
      refine ⟨rfl, rfl, by simp [SendRequestCall.leave], ?_⟩
      intro msg hcarries
      left
      left
      rw [hbuffer]
      rcases hcarries with hrest | hresult
      · exact List.mem_cons_of_mem _ hrest
      · cases hresult
        exact List.mem_cons_self

theorem moves_keeps {s : ControllerCalls} {action : ControllerAction}
    {request : ℕ} {change : SendRequestCall → SendRequestCall}
    (hmoves : action.moves = some (request, change)) (call : SendRequestCall) :
    s.RequestKeeps request call (change call) := by
  cases action with
  | send position sent =>
      cases hmoves
      cases sent with
      | error err => exact requestKeeps_fail s request call _
      | ok => exact requestKeeps_stage s request call (by decide)
  | receive position =>
      cases hmoves
      exact requestKeeps_afterReceive s request call
  | timeout position =>
      cases hmoves
      exact requestKeeps_fail s request call _
  | close position =>
      cases hmoves
      exact ⟨rfl, rfl, fun _ => by simp, fun _ hcarries => .inl hcarries⟩
  | _ => cases hmoves

theorem requestKeeps_sent {s : ControllerCalls} {response request : ℕ}
    {reply : HandleResponseCall} (hreply : s.responses[response]? = some reply)
    (hholding : reply.stage = .holding request) {call : SendRequestCall}
    {respCh : Channel Message 1}
    (hsent : call.respCh.trySend reply.msg = .sent respCh) :
    s.RequestKeeps request call { call with respCh := respCh } := by
  refine ⟨rfl, rfl, fun hstarted => hstarted, ?_⟩
  intro msg hcarries
  rcases hcarries with hbuffer | hresult
  · rw [Channel.buffer_of_trySend hsent, List.mem_append,
      List.mem_singleton] at hbuffer
    rcases hbuffer with hbuffer | hmsg
    · exact .inl (.inl hbuffer)
    · exact .inr ⟨response, reply, hreply, hholding, hmsg.symm⟩
  · exact .inl (.inr hresult)

theorem next_requests_origin {s : ControllerCalls} {action : ControllerAction}
    {request : ℕ} {call : SendRequestCall}
    (hcall : (s.next action).requests[request]? = some call) :
    s.RequestOrigin action request call := by
  have heffect := s.next_effect action
  generalize s.next action = s' at heffect hcall
  cases heffect with
  | requested haction htarget =>
      rcases getElem?_concat_cases hcall with hold | ⟨hnew, rfl⟩
      · exact .same hold
      · exact .made haction htarget rfl hnew
  | registered _ hold =>
      exact requestOrigin_of_set hold
        (requestKeeps_stage s _ _ (by decide)) hcall
  | removed _ hold =>
      exact requestOrigin_of_set hold
        (requestKeeps_stage s _ _ (by decide)) hcall
  | moved hmoves hold =>
      exact requestOrigin_of_set hold (moves_keeps hmoves _) hcall
  | sent _ hreply hholding hrequested hsent =>
      exact requestOrigin_of_set hrequested
        (requestKeeps_sent hreply hholding hsent) hcall
  | nothing | arrived | passed | took | panicked => exact .same hcall

/-- A request is kept in every step, with all that it keeps. -/
theorem next_requests_keeps {s : ControllerCalls} {action : ControllerAction}
    (hready : s.Ready action) {request : ℕ} {call : SendRequestCall}
    (hcall : s.requests[request]? = some call) :
    ∃ call', (s.next action).requests[request]? = some call' ∧
      s.RequestKeeps request call call' := by
  rcases next_requests hready hcall with ⟨call', hcall', -⟩
  refine ⟨call', hcall', ?_⟩
  cases next_requests_origin hcall' with
  | kept hold hkeeps =>
      rw [hcall, Option.some.injEq] at hold
      subst hold
      exact hkeeps
  | made _ _ _ hnew =>
      have hlt := (List.getElem?_eq_some_iff.mp hcall).1
      omega

/-! ### What a step does to a reply -/

structure ReplyKeeps (old new : HandleResponseCall) : Prop where
  conn : new.conn = old.conn
  msg : new.msg = old.msg
  begun : old.stage ≠ .arrived → new.stage ≠ .arrived

theorem ReplyKeeps.refl (reply : HandleResponseCall) : ReplyKeeps reply reply :=
  ⟨rfl, rfl, id⟩

theorem exists_reply_of_set {responses : List HandleResponseCall}
    {position response : ℕ} {old reply : HandleResponseCall}
    (hold : responses[position]? = some old) {stage : ResponseStage}
    (hstage : stage ≠ .arrived) (hreply : responses[response]? = some reply) :
    ∃ reply', (responses.set position { old with stage := stage })[response]? =
      some reply' ∧ ReplyKeeps reply reply' := by
  refine exists_getElem?_set hold hreply ?_ (.refl reply)
  intro _ hsame
  subst hsame
  exact ⟨rfl, rfl, fun _ => hstage⟩

theorem next_responses_keeps {s : ControllerCalls} (action : ControllerAction)
    {response : ℕ} {reply : HandleResponseCall}
    (hreply : s.responses[response]? = some reply) :
    ∃ reply', (s.next action).responses[response]? = some reply' ∧
      ReplyKeeps reply reply' := by
  have heffect := s.next_effect action
  generalize s.next action = s' at heffect ⊢
  have hsame := ReplyKeeps.refl reply
  cases heffect with
  | arrived => exact ⟨reply, getElem?_concat_of_some hreply _, hsame⟩
  | passed _ hold => exact exists_reply_of_set hold (by decide) hreply
  | took _ hold => exact exists_reply_of_set hold (by simp) hreply
  | sent _ hold => exact exists_reply_of_set hold (by decide) hreply
  | panicked _ hold => exact exists_reply_of_set hold (by decide) hreply
  | nothing | requested | registered | moved | removed =>
      exact ⟨reply, hreply, hsame⟩

theorem next_responses_new {s : ControllerCalls} {action : ControllerAction}
    {response : ℕ} {reply : HandleResponseCall}
    (hnone : s.responses[response]? = none)
    (hreply : (s.next action).responses[response]? = some reply) :
    action = .respond reply.conn reply.msg := by
  have heffect := s.next_effect action
  generalize s.next action = s' at heffect hreply
  have hset : ∀ position changed,
      (s.responses.set position changed)[response]? = none := by
    intro position changed
    rw [List.getElem?_eq_none_iff, List.length_set]
    exact List.getElem?_eq_none_iff.mp hnone
  cases heffect with
  | arrived haction =>
      rcases getElem?_concat_cases hreply with hold | ⟨-, rfl⟩
      · rw [hnone] at hold
        cases hold
      · exact haction
  | passed | took | sent | panicked =>
      rw [hset] at hreply
      cases hreply
  | nothing | requested | registered | moved | removed =>
      rw [hnone] at hreply
      cases hreply

/-! ### Consumed replies -/

/-- The reply that the action lets take an entry of the table, and the request
the entry is of. -/
def taken (s : ControllerCalls) : ControllerAction → Option (ℕ × ℕ)
  | .take response =>
      (s.responses[response]?).bind fun reply =>
        if reply.msg.replyTo = [] then none
        else (s.pending.lookup reply.msg.replyTo).map fun request =>
          (response, request)
  | _ => none

/-- The replies that were consumed and the requests they were consumed for,
over a whole sequence of actions. -/
def consumed : ControllerCalls → List ControllerAction → List (ℕ × ℕ)
  | _, [] => []
  | s, action :: rest => (s.taken action).toList ++ consumed (s.next action) rest

theorem consumed_append (s : ControllerCalls)
    (first second : List ControllerAction) :
    s.consumed (first ++ second) =
      s.consumed first ++ (machine.replay s first).consumed second := by
  induction first generalizing s with
  | nil => rfl
  | cons action rest ih =>
      simp only [List.cons_append, consumed, List.append_assoc, ih]
      rfl

theorem consumed_concat (s : ControllerCalls) (actions : List ControllerAction)
    (action : ControllerAction) :
    s.consumed (actions ++ [action]) =
      s.consumed actions ++ ((machine.replay s actions).taken action).toList := by
  rw [consumed_append]
  simp only [consumed, List.append_nil]

/-- An entry is taken by a reply that names its ID. -/
structure Takes (s : ControllerCalls) (action : ControllerAction)
    (response request : ℕ) (reply : HandleResponseCall) : Prop where
  taking : action = .take response
  arrived : s.responses[response]? = some reply
  named : reply.msg.replyTo ≠ []
  lookup : s.pending.lookup reply.msg.replyTo = some request

theorem exists_takes {s : ControllerCalls} {action : ControllerAction}
    {response request : ℕ} (htaken : s.taken action = some (response, request)) :
    ∃ reply, s.Takes action response request reply := by
  cases action with
  | take position =>
      unfold taken at htaken
      rcases Option.bind_eq_some_iff.mp htaken with ⟨reply, hreply, hentry⟩
      split at hentry
      · cases hentry
      next hnamed =>
        rcases Option.map_eq_some_iff.mp hentry with ⟨found, hlookup, hpair⟩
        cases hpair
        exact ⟨reply, rfl, hreply, hnamed, hlookup⟩
  | _ => cases htaken

theorem Takes.next_eq {s : ControllerCalls} {action : ControllerAction}
    {response request : ℕ} {reply : HandleResponseCall}
    (htakes : s.Takes action response request reply) :
    s.next action =
      { s with
        pending := s.pending.erase reply.msg.replyTo
        responses :=
          s.responses.set response { reply with stage := .holding request } } := by
  rw [htakes.taking]
  simp only [next, take, htakes.arrived, if_neg htakes.named, htakes.lookup]

theorem holding_of_set {s : ControllerCalls} {position response request : ℕ}
    {new reply : HandleResponseCall} (hstage : reply.stage = .holding request)
    (hreply : (s.responses.set position new)[response]? = some reply)
    (hnew : new.stage.isHolding = false) :
    s.responses[response]? = some reply := by
  rcases getElem?_set_cases hreply with ⟨-, rfl⟩ | ⟨-, hold⟩
  · rw [hstage] at hnew
    cases hnew
  · exact hold

/-- A reply comes to hold a channel only by taking the entry. -/
theorem next_holding {s : ControllerCalls} {action : ControllerAction}
    {response request : ℕ} {reply : HandleResponseCall}
    (hreply : (s.next action).responses[response]? = some reply)
    (hstage : reply.stage = .holding request) :
    s.responses[response]? = some reply ∨
      s.taken action = some (response, request) := by
  have heffect := s.next_effect action
  generalize s.next action = s' at heffect hreply
  cases heffect with
  | arrived =>
      rcases getElem?_concat_cases hreply with hold | ⟨-, rfl⟩
      · exact .inl hold
      · cases hstage
  | took haction hold hnamed hlookup =>
      subst haction
      rcases getElem?_set_cases hreply with ⟨rfl, rfl⟩ | ⟨-, hother⟩
      · cases hstage
        right
        simp only [taken, hold, Option.bind_some, if_neg hnamed, hlookup,
          Option.map_some]
      · exact .inl hother
  | passed | sent | panicked =>
      exact .inl (holding_of_set hstage hreply rfl)
  | nothing | requested | registered | moved | removed => exact .inl hreply

/-! ### The matching of replies and requests -/

/-- The reply and the request of a consumed pair: the reply names the ID of the
request, and neither is where it could be matched again. -/
def Matched (s : ControllerCalls) (response request : ℕ) : Prop :=
  ∃ reply call, s.responses[response]? = some reply ∧
    reply.stage ≠ .arrived ∧ s.requests[request]? = some call ∧
    call.stage ≠ .created ∧ reply.msg.replyTo ≠ [] ∧
    reply.msg.replyTo = call.msg.id

structure Correlated (pairs : List (ℕ × ℕ)) (s : ControllerCalls) : Prop where
  listed : s.EntriesListed
  replies : (pairs.map Prod.fst).Nodup
  requests : (pairs.map Prod.snd).Nodup
  matched : ∀ ⦃response request : ℕ⦄, (response, request) ∈ pairs →
    s.Matched response request
  unlisted : ∀ ⦃response request : ℕ⦄, (response, request) ∈ pairs →
    ∀ id, s.pending.lookup id ≠ some request
  held : ∀ ⦃response : ℕ⦄ ⦃reply : HandleResponseCall⦄ ⦃request : ℕ⦄,
    s.responses[response]? = some reply → reply.stage = .holding request →
      (response, request) ∈ pairs
  carried : ∀ ⦃request : ℕ⦄ ⦃call : SendRequestCall⦄ ⦃msg : Message⦄,
    s.requests[request]? = some call → call.Carries msg →
      ∃ response reply, (response, request) ∈ pairs ∧
        s.responses[response]? = some reply ∧ reply.msg = msg

section Step

variable {pairs : List (ℕ × ℕ)} {s : ControllerCalls}
  {action : ControllerAction}

theorem Matched.next {response request : ℕ}
    (hmatched : s.Matched response request) (hready : s.Ready action) :
    (s.next action).Matched response request := by
  rcases hmatched with
    ⟨reply, call, hreply, hbegun, hcall, hstarted, hnamed, hid⟩
  rcases next_responses_keeps action hreply with ⟨reply', hreply', hreplyKeeps⟩
  rcases next_requests_keeps hready hcall with ⟨call', hcall', hcallKeeps⟩
  refine ⟨reply', call', hreply', hreplyKeeps.begun hbegun, hcall',
    hcallKeeps.started hstarted, ?_, ?_⟩
  · rw [hreplyKeeps.msg]
    exact hnamed
  · rw [hreplyKeeps.msg, hcallKeeps.msg, hid]

theorem Takes.next_reply {response request : ℕ} {reply : HandleResponseCall}
    (htakes : s.Takes action response request reply) :
    (s.next action).responses[response]? =
      some { reply with stage := .holding request } := by
  have hlt := (List.getElem?_eq_some_iff.mp htakes.arrived).1
  rw [htakes.next_eq]
  exact List.getElem?_set_self hlt

theorem Correlated.matched_of_takes (hcorrelated : Correlated pairs s)
    {response request : ℕ} {reply : HandleResponseCall}
    (htakes : s.Takes action response request reply) :
    (s.next action).Matched response request := by
  rcases hcorrelated.listed htakes.lookup with ⟨call, hcall, hid, hlisted⟩
  have hstarted : call.stage ≠ .created := by
    intro hstage
    rw [hstage] at hlisted
    cases hlisted
  refine ⟨_, call, htakes.next_reply, by simp, ?_, hstarted, htakes.named,
    hid.symm⟩
  rw [htakes.next_eq]
  exact hcall

/-- A reply that takes an entry is not matched yet. -/
theorem Correlated.reply_unmatched (hcorrelated : Correlated pairs s)
    (hready : s.Ready action) {response request : ℕ} {reply : HandleResponseCall}
    (htakes : s.Takes action response request reply) :
    response ∉ pairs.map Prod.fst := by
  intro hmem
  rcases List.mem_map.mp hmem with ⟨⟨response', other⟩, hpair, rfl⟩
  rcases hcorrelated.matched hpair with ⟨reply', _, hreply', hbegun, -⟩
  rw [htakes.taking] at hready
  have hstage : (s.responses[response']?).map (·.stage) = some .arrived := hready
  rw [hreply'] at hstage
  exact hbegun (Option.some.inj hstage)

/-- A request that has an entry is not matched yet. -/
theorem Correlated.request_unmatched (hcorrelated : Correlated pairs s)
    {id : Bytes} {request : ℕ} (hlookup : s.pending.lookup id = some request) :
    request ∉ pairs.map Prod.snd := by
  intro hmem
  rcases List.mem_map.mp hmem with ⟨⟨response, request'⟩, hpair, rfl⟩
  exact hcorrelated.unlisted hpair id hlookup

theorem Correlated.next_unlisted (hcorrelated : Correlated pairs s)
    (hready : s.Ready action) {response request : ℕ}
    (hpair : (response, request) ∈ pairs) (id : Bytes) :
    (s.next action).pending.lookup id ≠ some request := by
  intro hlookup
  rcases next_pending hlookup with ⟨hlookup, -⟩ | ⟨rfl, call, hcall, -⟩
  · exact hcorrelated.unlisted hpair id hlookup
  · rcases hcorrelated.matched hpair with ⟨_, call', -, -, hcall', hstarted, -⟩
    exact hstarted (RequestAt.stage_eq hready hcall')

/-- The entry that a reply takes was the only one of its request. -/
theorem Correlated.unlisted_of_takes (hcorrelated : Correlated pairs s)
    {response request : ℕ} {reply : HandleResponseCall}
    (htakes : s.Takes action response request reply) (id : Bytes) :
    (s.next action).pending.lookup id ≠ some request := by
  intro hlookup
  rw [htakes.next_eq] at hlookup
  rcases lookup_of_lookup_erase hlookup with ⟨hother, hlookup⟩
  rcases hcorrelated.listed hlookup with ⟨call, hcall, hid, -⟩
  rcases hcorrelated.listed htakes.lookup with ⟨call', hcall', hid', -⟩
  rw [hcall, Option.some.injEq] at hcall'
  subst hcall'
  exact hother (hid.symm.trans hid')

theorem Correlated.next_carried (hcorrelated : Correlated pairs s)
    {request : ℕ} {call : SendRequestCall} {msg : Message}
    (hcall : (s.next action).requests[request]? = some call)
    (hcarries : call.Carries msg) :
    ∃ response reply, (response, request) ∈ pairs ∧
      (s.next action).responses[response]? = some reply ∧ reply.msg = msg := by
  have hreplied : ∃ response reply, (response, request) ∈ pairs ∧
      s.responses[response]? = some reply ∧ reply.msg = msg := by
    cases next_requests_origin hcall with
    | kept hold hkeeps =>
        rcases hkeeps.carried msg hcarries with
          hcarries | ⟨response, reply, hreply, hstage, hmsg⟩
        · exact hcorrelated.carried hold hcarries
        · exact ⟨response, reply, hcorrelated.held hreply hstage, hreply, hmsg⟩
    | made _ _ hnew _ =>
        rw [hnew] at hcarries
        rcases hcarries with hbuffer | hresult
        · cases hbuffer
        · cases hresult
  rcases hreplied with ⟨response, reply, hpair, hreply, hmsg⟩
  rcases next_responses_keeps action hreply with ⟨reply', hreply', hkeeps⟩
  exact ⟨response, reply', hpair, hreply', hkeeps.msg.trans hmsg⟩

theorem nodup_map_append_toList {α β : Type*} {f : α → β} {l : List α}
    {added : Option α} (hl : (l.map f).Nodup)
    (hadded : ∀ a, added = some a → f a ∉ l.map f) :
    ((l ++ added.toList).map f).Nodup := by
  cases added with
  | none => simpa using hl
  | some a =>
      rw [Option.toList_some, List.map_append, List.map_singleton,
        ← List.concat_eq_append]
      exact hl.concat (hadded a rfl)

/-- The matching grows by what the step takes. -/
theorem Correlated.next (hcorrelated : Correlated pairs s)
    (hready : s.Ready action) :
    Correlated (pairs ++ (s.taken action).toList) (s.next action) := by
  constructor
  · exact next_listed hready hcorrelated.listed
  · apply nodup_map_append_toList hcorrelated.replies
    intro pair htaken
    rcases exists_takes htaken with ⟨reply, htakes⟩
    exact hcorrelated.reply_unmatched hready htakes
  · apply nodup_map_append_toList hcorrelated.requests
    intro pair htaken
    rcases exists_takes htaken with ⟨reply, htakes⟩
    exact hcorrelated.request_unmatched htakes.lookup
  · intro response request hpair
    rcases List.mem_append.mp hpair with hold | htaken
    · exact (hcorrelated.matched hold).next hready
    · rcases exists_takes (Option.mem_toList.mp htaken) with ⟨reply, htakes⟩
      exact hcorrelated.matched_of_takes htakes
  · intro response request hpair
    rcases List.mem_append.mp hpair with hold | htaken
    · exact hcorrelated.next_unlisted hready hold
    · rcases exists_takes (Option.mem_toList.mp htaken) with ⟨reply, htakes⟩
      exact hcorrelated.unlisted_of_takes htakes
  · intro response reply request hreply hstage
    rw [List.mem_append]
    rcases next_holding hreply hstage with hold | htaken
    · exact .inl (hcorrelated.held hold hstage)
    · exact .inr (Option.mem_toList.mpr htaken)
  · intro request call msg hcall hcarries
    rcases hcorrelated.next_carried hcall hcarries with
      ⟨response, reply, hpair, hreply, hmsg⟩
    exact ⟨response, reply, List.mem_append_left _ hpair, hreply, hmsg⟩

end Step

theorem correlated_replay {allowed : ControllerCalls → ControllerAction → Prop}
    {actions : List ControllerAction}
    (hactions : machine.Replays allowed {} actions) :
    Correlated (consumed {} actions) (machine.replay {} actions) := by
  apply hactions.invariant fun actions s => Correlated (consumed {} actions) s
  · refine ⟨?_, List.nodup_nil, List.nodup_nil, ?_, ?_, ?_, ?_⟩
    · intro id request hlookup
      cases hlookup
    · intro response request hpair
      cases hpair
    · intro response request hpair
      cases hpair
    · intro response reply request hreply
      cases hreply
    · intro request call msg hcall
      cases hcall
  · intro actions action hbefore henabled _
    rw [consumed_concat]
    exact hbefore.next henabled.2

/-- A request that succeeds returns the message of the reply it is matched
with. -/
theorem Correlated.exists_reply {pairs : List (ℕ × ℕ)} {s : ControllerCalls}
    (hcorrelated : Correlated pairs s) {request : ℕ} {call : SendRequestCall}
    {resp : Message} (hcall : s.requests[request]? = some call)
    (hresult : call.result = some (.ok resp)) :
    ∃ response reply, (response, request) ∈ pairs ∧
      s.responses[response]? = some reply ∧ reply.msg = resp ∧
      resp.replyTo ≠ [] ∧ resp.replyTo = call.msg.id := by
  rcases hcorrelated.carried hcall (.inr hresult) with
    ⟨response, reply, hpair, hreply, rfl⟩
  rcases hcorrelated.matched hpair with
    ⟨reply', call', hreply', -, hcall', -, hnamed, hid⟩
  rw [hreply, Option.some.injEq] at hreply'
  subst hreply'
  rw [hcall, Option.some.injEq] at hcall'
  subst hcall'
  exact ⟨response, reply, hpair, hreply, rfl, hnamed, hid⟩

/-! ### Requests with distinct IDs -/

/-- A new request has an ID that no request before it had. -/
def FreshID (s : ControllerCalls) : ControllerAction → Prop
  | .request _ msg _ => ∀ call ∈ s.requests, call.msg.id ≠ msg.id
  | _ => True

instance (s : ControllerCalls) : DecidablePred s.FreshID
  | .request _ msg _ =>
      inferInstanceAs (Decidable (∀ call ∈ s.requests, call.msg.id ≠ msg.id))
  | .register _ | .send _ _ | .receive _ | .timeout _ | .remove _ | .close _
  | .respond _ _ | .take _ | .deliver _ => .isTrue trivial

def DistinctIDs (s : ControllerCalls) : Prop :=
  ∀ ⦃first second : ℕ⦄ ⦃call call' : SendRequestCall⦄,
    s.requests[first]? = some call → s.requests[second]? = some call' →
      call.msg.id = call'.msg.id → first = second

theorem requestTarget_id {peerID : Bytes} {msg : Message} {search : PeerSearch}
    {target : Bytes × Message} (htarget : requestTarget peerID msg search = .ok target) :
    target.2.id = msg.id := by
  unfold requestTarget at htarget
  split at htarget
  · cases htarget
    rfl
  · split at htarget
    · cases htarget
    · split at htarget
      · cases htarget
      · cases htarget
        rfl

theorem FreshID.ne_target {s : ControllerCalls} {peerID : Bytes}
    {msg : Message} {search : PeerSearch}
    (hfresh : s.FreshID (.request peerID msg search)) {target : Bytes × Message}
    (htarget : requestTarget peerID msg search = .ok target) {position : ℕ}
    {call : SendRequestCall} (hcall : s.requests[position]? = some call) :
    call.msg.id ≠ target.2.id := by
  rw [requestTarget_id htarget]
  exact hfresh call (List.mem_of_getElem? hcall)

theorem DistinctIDs.next {s : ControllerCalls} (hdistinct : s.DistinctIDs)
    {action : ControllerAction} (hfresh : s.FreshID action) :
    (s.next action).DistinctIDs := by
  intro first second call call' hcall hcall' hid
  cases next_requests_origin hcall with
  | kept hold hkeeps =>
      rw [hkeeps.msg] at hid
      cases next_requests_origin hcall' with
      | kept hold' hkeeps' =>
          rw [hkeeps'.msg] at hid
          exact hdistinct hold hold' hid
      | made haction htarget _ _ =>
          subst haction
          exact absurd hid (hfresh.ne_target htarget hold)
  | made haction htarget _ hnew =>
      cases next_requests_origin hcall' with
      | kept hold' hkeeps' =>
          subst haction
          rw [hkeeps'.msg] at hid
          exact absurd hid.symm (hfresh.ne_target htarget hold')
      | made _ _ _ hnew' => rw [hnew, hnew']

theorem distinctIDs_of_run {s : ControllerCalls}
    (hrun : machine.Run FreshID s) : s.DistinctIDs := by
  apply hrun.invariant
  · intro start hinitial
    cases hinitial
    intro first second call call' hcall
    cases hcall
  · intro before action _ hbefore _ hfresh
    exact hbefore.next hfresh

/-- In every run whose requests have distinct IDs: a request that succeeds
returns the message of the reply that was consumed for it, which names its ID;
no reply is consumed twice and none for a request that has had one; and every
entry of the table is of the request in progress that has its ID, so that a
request which has returned has no entry, and none is left when all have. -/
theorem requests_correlate {actions : List ControllerAction}
    (hactions : machine.Replays FreshID {} actions) :
    let s := machine.replay {} actions
    (∀ request call resp, s.requests[request]? = some call →
      call.result = some (.ok resp) →
        resp.replyTo = call.msg.id ∧
        ∃ response reply, (response, request) ∈ consumed {} actions ∧
          s.responses[response]? = some reply ∧ reply.msg = resp) ∧
    ((consumed {} actions).map Prod.fst).Nodup ∧
    ((consumed {} actions).map Prod.snd).Nodup ∧
    (∀ id request, s.pending.lookup id = some request →
      ∃ call, s.requests[request]? = some call ∧ call.msg.id = id ∧
        call.stage.listed = true) ∧
    (∀ call ∈ s.requests, call.stage = .returned →
      s.pending.lookup call.msg.id = none) ∧
    ((∀ call ∈ s.requests, call.stage = .returned) → s.pending = ∅) := by
  intro s
  have hcorrelated := correlated_replay hactions
  have hdistinct := distinctIDs_of_run (Machine.Run.replay (.start rfl) hactions)
  refine ⟨?_, hcorrelated.replies, hcorrelated.requests, hcorrelated.listed,
    ?_, ?_⟩
  · intro request call resp hcall hresult
    rcases hcorrelated.exists_reply hcall hresult with
      ⟨response, reply, hpair, hreply, hmsg, -, hid⟩
    exact ⟨hid, response, reply, hpair, hreply, hmsg⟩
  · intro call hmem hreturned
    rcases List.getElem?_of_mem hmem with ⟨position, hcall⟩
    by_contra hentry
    rcases Option.ne_none_iff_exists'.mp hentry with ⟨request, hlookup⟩
    rcases hcorrelated.listed hlookup with ⟨call', hcall', hid, hlisted⟩
    have hsame : request = position := hdistinct hcall' hcall hid
    subst hsame
    have hcalls : call' = call := Option.some.inj (hcall'.symm.trans hcall)
    rw [hcalls, hreturned] at hlisted
    cases hlisted
  · intro hreturned
    apply Finmap.ext_lookup
    intro id
    rw [Finmap.lookup_empty, Option.eq_none_iff_forall_ne_some]
    intro request hlookup
    rcases hcorrelated.listed hlookup with ⟨call, hcall, -, hlisted⟩
    rw [hreturned call (List.mem_of_getElem? hcall)] at hlisted
    cases hlisted

/-- Two requests in progress at once: the first is answered, by a reply that
comes twice, and the second times out before its reply. -/
def sampleConcurrent : List ControllerAction :=
  [sampleRequest, .register 0,
    .request [2] { id := [4] }
      { isConnected := true, peer := none, connected := .error .eof },
    .register 1, .send 1 (.ok ()), .send 0 (.ok ()), sampleReply, sampleReply,
    .take 1, .timeout 1, .take 0, .deliver 1, .remove 1, .receive 0, .close 1,
    .remove 0, .close 0]

theorem requests_correlate_concurrent :
    let s := machine.replay {} sampleConcurrent
    s.requests.map (fun call => call.result.isSome) = [true, true] ∧
      consumed {} sampleConcurrent = [(1, 0)] ∧ s.pending = ∅ := by
  have hreplays : machine.Replays FreshID {} sampleConcurrent := by decide
  have hcorrelate := requests_correlate hreplays
  exact ⟨by decide, by decide, hcorrelate.2.2.2.2.2 (by decide)⟩

/-! ### Replies from the peer that was asked -/

/-- No peer names a request that was sent to another one: neither a reply that
arrives, of the requests there are, nor one that is there, of a new request. -/
def AnswersOwn (s : ControllerCalls) : ControllerAction → Prop
  | .respond conn msg => msg.replyTo ≠ [] → ∀ call ∈ s.requests,
      call.msg.id = msg.replyTo → call.actualPeerID = conn.peer.id
  | .request peerID msg search =>
      ∀ target ∈ (requestTarget peerID msg search).toOption,
        ∀ reply ∈ s.responses, reply.msg.replyTo ≠ [] →
          reply.msg.replyTo = msg.id → reply.conn.peer.id = target.1
  | _ => True

instance (s : ControllerCalls) : DecidablePred s.AnswersOwn
  | .respond conn msg =>
      inferInstanceAs (Decidable (msg.replyTo ≠ [] → ∀ call ∈ s.requests,
        call.msg.id = msg.replyTo → call.actualPeerID = conn.peer.id))
  | .request peerID msg search =>
      inferInstanceAs
        (Decidable (∀ target ∈ (requestTarget peerID msg search).toOption,
          ∀ reply ∈ s.responses, reply.msg.replyTo ≠ [] →
            reply.msg.replyTo = msg.id → reply.conn.peer.id = target.1))
  | .register _ | .send _ _ | .receive _ | .timeout _ | .remove _ | .close _
  | .take _ | .deliver _ => .isTrue trivial

def NamesOwn (s : ControllerCalls) : Prop :=
  ∀ ⦃response request : ℕ⦄ ⦃reply : HandleResponseCall⦄ ⦃call : SendRequestCall⦄,
    s.responses[response]? = some reply → s.requests[request]? = some call →
      reply.msg.replyTo ≠ [] → reply.msg.replyTo = call.msg.id →
        reply.conn.peer.id = call.actualPeerID

theorem NamesOwn.next {s : ControllerCalls} (hown : s.NamesOwn)
    {action : ControllerAction} (hanswers : s.AnswersOwn action) :
    (s.next action).NamesOwn := by
  intro response request reply call hreply hcall hnamed hid
  cases hold : s.responses[response]? with
  | none =>
      have haction := next_responses_new hold hreply
      subst haction
      exact (hanswers hnamed call (List.mem_of_getElem? hcall) hid.symm).symm
  | some old =>
      rcases next_responses_keeps action hold with ⟨_, hsame, hkeeps⟩
      rw [hreply, Option.some.injEq] at hsame
      subst hsame
      rw [hkeeps.msg] at hnamed hid
      rw [hkeeps.conn]
      cases next_requests_origin hcall with
      | kept hasked hkept =>
          rw [hkept.msg] at hid
          rw [hkept.actualPeerID]
          exact hown hold hasked hnamed hid
      | made haction htarget _ _ =>
          subst haction
          apply hanswers (call.actualPeerID, call.msg) (by rw [htarget]; rfl) old
            (List.mem_of_getElem? hold) hnamed
          rw [hid]
          exact requestTarget_id htarget

/-- In every run in which no peer names a request sent to another one, a
request that succeeds returns the message of the reply consumed for it, and
this reply came on a connection of the peer the request was sent to. -/
theorem reply_from_asked_peer {actions : List ControllerAction}
    (hactions : machine.Replays AnswersOwn {} actions) :
    let s := machine.replay {} actions
    ∀ request call resp, s.requests[request]? = some call →
      call.result = some (.ok resp) →
        ∃ response reply, (response, request) ∈ consumed {} actions ∧
          s.responses[response]? = some reply ∧ reply.msg = resp ∧
          reply.conn.peer.id = call.actualPeerID := by
  intro s request call resp hcall hresult
  have hown : s.NamesOwn := by
    have hrun : machine.Run AnswersOwn s := .replay (.start rfl) hactions
    apply hrun.invariant
    · intro start hinitial
      cases hinitial
      intro response request reply call hreply
      cases hreply
    · intro before action _ hbefore _ hanswers
      exact hbefore.next hanswers
  rcases (correlated_replay hactions).exists_reply hcall hresult with
    ⟨response, reply, hpair, hreply, rfl, hnamed, hid⟩
  exact ⟨response, reply, hpair, hreply, rfl, hown hreply hcall hnamed hid⟩

theorem reply_from_asked_peer_answered :
    ∃ reply ∈ (machine.replay {} sampleAnswered).responses,
      reply.msg = { id := [3], replyTo := [1] } ∧ reply.conn.peer.id = [2] := by
  have hreplays : machine.Replays AnswersOwn {} sampleAnswered := by decide
  rcases reply_from_asked_peer hreplays 0
    ((machine.replay {} sampleAnswered).requests.get ⟨0, by decide⟩)
    { id := [3], replyTo := [1] } (by decide) (by decide) with
    ⟨response, reply, -, hreply, hmsg, hpeer⟩
  exact ⟨reply, List.mem_of_getElem? hreply, hmsg, hpeer⟩

/-- Peer 3 answers the request that was sent to peer 2. -/
def sampleStranger : List ControllerAction :=
  [sampleRequest, .register 0, .send 0 (.ok ()),
    .respond
      { peer := { id := [3] }
        sharedSecret := []
        lastActivity := 0
        rateLimiter := none }
      { id := [3], fromNode := [3], replyTo := [1] },
    .take 0, .deliver 0, .receive 0, .remove 0, .close 0]

theorem other_peers_reply_returned :
    let s := machine.replay {} sampleStranger
    machine.Reachable s ∧
      s.requests.map (fun call => (call.actualPeerID, call.result)) =
        [([2], some (.ok { id := [3], fromNode := [3], replyTo := [1] }))] ∧
      s.responses.map (fun reply => reply.conn.peer.id) = [[3]] := by
  have hreplays : machine.Replays (fun _ _ => True) {} sampleStranger := by
    decide
  exact ⟨Machine.Run.replay (.start rfl) hreplays, by decide, by decide⟩

end ControllerCalls

end GoP2P.Node
