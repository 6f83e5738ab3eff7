import GoP2P.DeliveryAccounts

/-!
# What subscribers receive

Every call of `deliver` tries one send on each channel that its topic has when
it takes `subsMu`, and what a subscriber receives is what of these sends found
room, in the order in which they were tried.  Deliveries may overlap, and then
two subscribers may get their events in different orders; a delivery that
ended before another began comes first everywhere.
-/

namespace GoP2P.ContentBus

theorem cloneBytes_cloneBytes (payload : Option Bytes) :
    cloneBytes (cloneBytes payload) = cloneBytes payload := by
  cases payload with
  | none => rfl
  | some bytes => cases bytes <;> rfl

/-- A clone has the same bytes. -/
theorem getD_cloneBytes (payload : Option Bytes) :
    (cloneBytes payload).getD [] = payload.getD [] := by
  cases payload with
  | none => rfl
  | some bytes => cases bytes <;> rfl

/-- The event has the topic and the bytes of the call, and names the sender of
a message. -/
def Call.Carries (codec : EventCodec) (event : Event) : Call → Prop
  | .publish topic payload =>
      event.topic = topic ∧ event.payload.getD [] = payload.getD []
  | .handleMessage _ msg =>
      ∃ received payload, wireEvent codec msg = some (received, payload) ∧
        event.topic = payload.topic ∧
        event.payload.getD [] = payload.payload.getD [] ∧
        event.peerID = received.fromNode
  | .subscribe _ | .close => False

theorem Call.carries_of_makeEvent {codec : EventCodec} {call : Call}
    {input : Input} {event : Event}
    (hevent : call.makeEvent codec input = some event) :
    call.Carries codec event ∧ cloneEvent event = event := by
  cases call with
  | publish topic payload =>
      rcases Option.map_eq_some_iff.mp hevent with ⟨identity, -, rfl⟩
      refine ⟨⟨rfl, getD_cloneBytes payload⟩, ?_⟩
      simp [cloneEvent, cloneBytes_cloneBytes]
  | handleMessage peerID msg =>
      dsimp only [makeEvent] at hevent
      split at hevent
      · cases hevent
      next received payload hwire =>
        cases hevent
        refine ⟨⟨received, payload, hwire, rfl, getD_cloneBytes _, rfl⟩, ?_⟩
        simp [cloneEvent, cloneBytes_cloneBytes]
  | subscribe | close => cases hevent

/-! ### Steps of the controller -/

namespace Controller

variable {channelBuffer : ℕ} {codec : EventCodec}
  {c c' : Controller channelBuffer} {position : ℕ} {g : Goroutine}
  {stage : Stage}

theorem effect_streams (hmapped : Mapped c)
    (hstreams : Streams c.subscriptions c.sends)
    (heffect : Effect codec c c') : Streams c'.subscriptions c'.sends := by
  cases heffect with
  | nothing | called | moved | begun | ended | started | marked | dropped
  | finished => exact hstreams
  | inserted => exact hstreams.subscribe _
  | sent hg hstage hlookup =>
      rcases (hmapped.lookup_iff _ _ _).mp hlookup with
        ⟨rfl, sub, hsub, -, hopen⟩
      rcases c.send_eq _ _ hsub hopen with ⟨new, -, -, hnew, hsend⟩
      dsimp only [move]
      rw [hsend]
      exact hstreams.send (c.sendOn _ _ _ sub) hsub hnew
  | @closedSub position g topic id subscription =>
      rcases c.closeSub_cases topic id subscription with
        ⟨_, hclose⟩ | ⟨sub, hsub, hclose⟩
      · rw [hclose]
        exact hstreams
      · rw [hclose]
        exact hstreams.set hsub rfl
  | received subscription =>
      rcases c.receive_cases subscription with
        hreceive | ⟨sub, copy, channel, hsub, hreceived, hreceive⟩
      · rw [hreceive]
        exact hstreams
      · rw [hreceive]
        apply hstreams.set hsub
        dsimp only
        rw [Channel.buffer_of_receive? hreceived, List.append_assoc]
        rfl

/-- The topics of all channels ever made. -/
def topics (c : Controller channelBuffer) : List Bytes :=
  c.subscriptions.map Subscription.topic

theorem map_topic_set {subs : List (Subscription channelBuffer)} {k : ℕ}
    {sub new : Subscription channelBuffer} (hsub : subs[k]? = some sub)
    (htopic : new.topic = sub.topic) :
    (subs.set k new).map Subscription.topic =
      subs.map Subscription.topic := by
  rw [List.map_set, htopic]
  apply set_eq_of_getElem?
  rw [List.getElem?_map, hsub]
  rfl

/-- The calls and the deliveries are the same, on the same channels. -/
structure SameDeliveries (c c' : Controller channelBuffer) : Prop where
  topics : c'.topics = c.topics
  goroutines : c'.goroutines = c.goroutines
  deliveries : c'.deliveries = c.deliveries
  sends : c'.sends = c.sends

theorem closeSub_sameDeliveries (c : Controller channelBuffer) (topic : Bytes)
    (id subscription : ℕ) :
    SameDeliveries c (c.closeSub topic id subscription) := by
  rcases c.closeSub_cases topic id subscription with
    ⟨_, hclose⟩ | ⟨sub, hsub, hclose⟩
  · rw [hclose]
    exact ⟨rfl, rfl, rfl, rfl⟩
  · rw [hclose]
    exact ⟨map_topic_set hsub rfl, rfl, rfl, rfl⟩

theorem receive_sameDeliveries (c : Controller channelBuffer)
    (subscription : ℕ) : SameDeliveries c (c.receive subscription) := by
  rcases c.receive_cases subscription with
    hreceive | ⟨sub, _, _, hsub, -, hreceive⟩
  · rw [hreceive]
    exact ⟨rfl, rfl, rfl, rfl⟩
  · rw [hreceive]
    exact ⟨map_topic_set hsub rfl, rfl, rfl, rfl⟩

/-- No channel is closed before the flag is set. -/
def Flagged (c : Controller channelBuffer) : Prop :=
  c.closed = false → ∀ sub ∈ c.subscriptions, sub.channel.closed = false

theorem effect_flagged (hchecked : Checked codec c) (hmapped : Mapped c)
    (hflagged : Flagged c) (heffect : Effect codec c c') : Flagged c' := by
  cases heffect with
  | nothing | called | moved | begun | ended | started | dropped | finished =>
      exact hflagged
  | inserted =>
      intro hclosed sub hsub
      rcases List.mem_append.mp hsub with hold | hnew
      · exact hflagged hclosed sub hold
      · rw [List.mem_singleton.mp hnew]
  | sent hg hstage hlookup =>
      rcases (hmapped.lookup_iff _ _ _).mp hlookup with
        ⟨rfl, sub, hsub, -, hopen⟩
      rcases c.send_eq _ _ hsub hopen with ⟨new, -, hnew, -, hsend⟩
      rw [hsend]
      intro hclosed found hfound
      rcases List.mem_or_eq_of_mem_set hfound with hold | rfl
      · exact hflagged hclosed found hold
      · exact hnew
  | marked =>
      intro hclosed
      cases hclosed
  | closedSub hg hstage =>
      intro hclosed
      have hfits := hchecked.fits _ (List.mem_of_getElem? hg)
      rw [Fits, hstage] at hfits
      rw [(closeSub_sameCalls c _ _ _).closed, hfits.2] at hclosed
      cases hclosed
  | received subscription =>
      rcases c.receive_cases subscription with
        hreceive | ⟨sub, copy, channel, hsub, hreceived, hreceive⟩
      · rw [hreceive]
        exact hflagged
      · rw [hreceive]
        intro hclosed found hfound
        rcases List.mem_or_eq_of_mem_set hfound with hold | rfl
        · exact hflagged hclosed found hold
        · rw [Channel.closed_of_receive? hreceived]
          exact hflagged hclosed sub (List.mem_of_getElem? hsub)

theorem Moves.not_delivering (hmoves : Moves codec c g stage) (index : ℕ)
    (event : Event) (visited : Finset ℕ) :
    stage ≠ .delivering index event visited := by
  cases hmoves <;> simp

/-- While a goroutine writes the map, no other delivers. -/
theorem Locked.not_delivering (hlocked : Locked c)
    (hg : c.goroutines[position]? = some g) (hwriting : g.subsMu = .writing)
    {i : ℕ} {other : Goroutine} (hother : c.goroutines[i]? = some other)
    (hne : i ≠ position) (index : ℕ) (event : Event) (visited : Finset ℕ) :
    other.stage ≠ .delivering index event visited := by
  intro hstage
  have hfree : other.subsMu = .free :=
    hlocked.subsMu hg hother (Ne.symm hne) hwriting
  rw [Goroutine.subsMu, hstage] at hfree
  cases hfree

/-- When the range over the map ends, every channel of the topic was
visited. -/
theorem mem_of_keys_subset (hmapped : Mapped c) (hflagged : Flagged c)
    (hclosed : c.closed = false) {topic : Bytes} {visited : Finset ℕ}
    (hall : (c.topicSubs topic).keys ⊆ visited) {k : ℕ}
    (htopic : c.topics[k]? = some topic) : k ∈ visited := by
  rw [topics, List.getElem?_map] at htopic
  rcases Option.map_eq_some_iff.mp htopic with ⟨sub, hsub, hsubTopic⟩
  have hopen := hflagged hclosed sub (List.mem_of_getElem? hsub)
  have hlookup := (hmapped.lookup_iff topic k k).mpr
    ⟨rfl, sub, hsub, hsubTopic, hopen⟩
  exact hall (Finmap.mem_keys.mpr (Finmap.mem_of_lookup_eq_some hlookup))

theorem effect_progress (hlocked : Locked c) (hchecked : Checked codec c)
    (hmapped : Mapped c) (hflagged : Flagged c)
    (hprogress : Progress c.topics c.goroutines c.deliveries c.sends)
    (heffect : Effect codec c c') :
    Progress c'.topics c'.goroutines c'.deliveries c'.sends := by
  cases heffect with
  | nothing | dropped => exact hprogress
  | called call => exact hprogress.call call
  | moved hg hmoves => exact hprogress.move hmoves.not_delivering
  | @inserted position g topic hg hstage =>
      have htopics : (c.insertSub topic).topics = c.topics ++ [topic] := by
        simp [topics, insertSub]
      have hmoved : Progress c.topics
          (c.goroutines.set position
            { g with stage := .leaving (.channel c.subscriptions.length) })
          c.deliveries c.sends := hprogress.move (by simp)
      dsimp only [Controller.move]
      change Progress (c.insertSub topic).topics _ _ _
      rw [htopics]
      apply hmoved.subscribe
      intro other hother
      rcases List.getElem?_of_mem hother with ⟨i, hi⟩
      rcases getElem?_set_cases hi with ⟨-, rfl⟩ | ⟨hne, hold⟩
      · simp
      · apply hlocked.not_delivering hg _ hold hne
        simp [Goroutine.subsMu, hstage]
  | @begun position g event =>
      have hbegun := hprogress.begin position g event
      rw [topics, List.length_map] at hbegun
      exact hbegun
  | @sent position g index event visited id k hg hstage hlookup hunvisited =>
      rcases (hmapped.lookup_iff _ _ _).mp hlookup with
        ⟨rfl, sub, hsub, htopic, hopen⟩
      rcases c.send_eq index event hsub hopen with ⟨new, hnew, -, -, hsend⟩
      have htopics : c.topics[k]? = some event.topic := by
        rw [topics, List.getElem?_map, hsub, Option.map_some, htopic]
      rw [hsend]
      dsimp only [Controller.move]
      change Progress ((c.subscriptions.set _ new).map Subscription.topic) _ _ _
      rw [map_topic_set hsub hnew]
      exact hprogress.send (c.sendOn index event k sub) hg hstage htopics
        hunvisited rfl rfl
  | ended hg hstage hall =>
      have hfits := hchecked.fits _ (List.mem_of_getElem? hg)
      rw [Fits, hstage] at hfits
      apply hprogress.end hg hstage
      intro k htopic
      exact mem_of_keys_subset hmapped hflagged hfits hall htopic
  | started | marked | finished => exact hprogress.move (by simp)
  | @closedSub position g topic id subscription =>
      have hsame := closeSub_sameDeliveries c topic id subscription
      rw [hsame.topics, hsame.goroutines, hsame.deliveries, hsame.sends]
      exact hprogress
  | received subscription =>
      have hsame := receive_sameDeliveries c subscription
      rw [hsame.topics, hsame.goroutines, hsame.deliveries, hsame.sends]
      exact hprogress

theorem send_deliveries (c : Controller channelBuffer) (delivery : ℕ)
    (event : Event) (subscription : ℕ) :
    (c.send delivery event subscription).deliveries = c.deliveries := by
  rcases c.send_shape delivery event subscription with ⟨_, _, _, -, hsend⟩
  rw [hsend]

theorem Moves.makes (hmoves : Moves codec c g stage) {event : Event}
    (hready : stage = .ready event) : g.call.Makes codec event := by
  cases hmoves with
  | ready _ hevent =>
      cases hready
      exact ⟨_, hevent⟩
  | _ => cases hready

theorem effect_sourced (hsourced : Sourced codec c.goroutines c.deliveries)
    (heffect : Effect codec c c') :
    Sourced codec c'.goroutines c'.deliveries := by
  cases heffect with
  | nothing | dropped => exact hsourced
  | called call => exact hsourced.call call
  | moved hg hmoves => exact hsourced.set hg fun _ => hmoves.makes
  | inserted hg | started hg | marked hg | finished hg =>
      exact hsourced.set hg (by simp)
  | begun hg hstage =>
      have hmakes := hsourced.ready _ (List.mem_of_getElem? hg) _ hstage
      exact (hsourced.begin hg hmakes).set hg (by simp)
  | sent hg =>
      dsimp only [Controller.move]
      rw [send_deliveries, (send_sameCalls c _ _ _).goroutines]
      exact hsourced.set hg (by simp)
  | ended hg => exact (hsourced.end _ _).set hg (by simp)
  | @closedSub position g topic id subscription =>
      have hsame := closeSub_sameDeliveries c topic id subscription
      rw [hsame.goroutines, hsame.deliveries]
      exact hsourced
  | received subscription =>
      have hsame := receive_sameDeliveries c subscription
      rw [hsame.goroutines, hsame.deliveries]
      exact hsourced

/-! ### All runs -/

structure Accounted (codec : EventCodec) (c : Controller channelBuffer) :
    Prop where
  streams : Streams c.subscriptions c.sends
  flagged : Flagged c
  progress : Progress c.topics c.goroutines c.deliveries c.sends
  sourced : Sourced codec c.goroutines c.deliveries

theorem accounted_initial : Accounted codec ({} : Controller channelBuffer) := by
  constructor
  · constructor
    · intro k sub hsub
      cases hsub
    · intro send hsend
      cases hsend
  · intro _ sub hsub
    cases hsub
  · constructor
    · rfl
    · intro delivery hdelivery
      cases hdelivery
    · intro send hsend
      cases hsend
    · exact List.nodup_nil
    · intro position g index event visited hg
      cases hg
    · intro index delivery hdelivery
      cases hdelivery
  · constructor
    · intro g hg
      cases hg
    · intro delivery hdelivery
      cases hdelivery

theorem accounted_of_reachable
    (hreachable : (machine codec channelBuffer).Reachable c) :
    Accounted codec c := by
  apply hreachable.invariant
  · rintro c rfl
    exact accounted_initial
  · intro c action hbefore haccounted _ _
    have hsound := sound_of_reachable hbefore
    have heffect : Effect codec c _ := c.next_effect action
    exact ⟨effect_streams hsound.mapped haccounted.streams heffect,
      effect_flagged hsound.checked hsound.mapped haccounted.flagged heffect,
      effect_progress hsound.locked hsound.checked hsound.mapped
        haccounted.flagged haccounted.progress heffect,
      effect_sourced haccounted.sourced heffect⟩

/-- What a subscriber sees.  Its events are those of the sends on its channel
that found room, in their order.  Each of these sends is of its own delivery of
an event of exactly its topic that began when the channel was there, with the
event as the call made it; earlier deliveries come first; and a delivery that
has ended is missing only if it found the buffer full. -/
structure Receives (codec : EventCodec) (c : Controller channelBuffer) (k : ℕ)
    (sub : Subscription channelBuffer) : Prop where
  stream : sub.received ++ sub.channel.buffer =
    accepted channelBuffer (sendsTo c.sends k)
  sent : ∀ send ∈ sendsTo c.sends k, ∃ delivery g,
    c.deliveries[send.delivery]? = some delivery ∧
      c.goroutines[delivery.goroutine]? = some g ∧
      g.call.Carries codec delivery.event ∧
      send.event = delivery.event ∧ delivery.event.topic = sub.topic ∧
      k < delivery.subscriptions
  once : ((sendsTo c.sends k).map Send.delivery).Nodup
  ordered : (sendsTo c.sends k).Pairwise fun first second =>
    first.number < second.number ∧
      ∀ delivery later, c.deliveries[first.delivery]? = some delivery →
        c.deliveries[second.delivery]? = some later → ¬ later.Before delivery
  missing : ∀ index delivery n, c.deliveries[index]? = some delivery →
    delivery.sendsAfter = some n → delivery.event.topic = sub.topic →
      k < delivery.subscriptions →
        ∃ send ∈ sendsTo c.sends k, send.delivery = index ∧
          (send.copy ∈ sub.received ++ sub.channel.buffer ∨
            channelBuffer ≤ send.buffered)

theorem Accounted.receives (haccounted : Accounted codec c) {k : ℕ}
    {sub : Subscription channelBuffer}
    (hsub : c.subscriptions[k]? = some sub) : Receives codec c k sub := by
  have htopic : c.topics[k]? = some sub.topic := by
    rw [topics, List.getElem?_map, hsub, Option.map_some]
  have hstream := haccounted.streams.stream hsub
  constructor
  · exact hstream
  · intro send hsend
    rcases mem_sendsTo_iff.mp hsend with ⟨hmem, rfl⟩
    rcases haccounted.progress.belongs send hmem with
      ⟨delivery, hdelivery, hevent, hdeliveryTopic, hsubs, -⟩
    rcases haccounted.sourced.made delivery (List.mem_of_getElem? hdelivery) with
      ⟨g, hg, input, hmakes⟩
    rcases Call.carries_of_makeEvent hmakes with ⟨hcarries, hclone⟩
    rw [htopic, Option.some.injEq] at hdeliveryTopic
    exact ⟨delivery, g, hdelivery, hg, hcarries, hevent.trans hclone,
      hdeliveryTopic.symm, hsubs⟩
  · exact haccounted.progress.sendsTo_once k
  · have hnumbers := haccounted.progress.pairwise_number
    apply (hnumbers.sublist List.filter_sublist).imp_of_mem
    intro first second hfirst hsecond hlt
    refine ⟨hlt, ?_⟩
    intro delivery later hdelivery hlater hbefore
    have hgt := haccounted.progress.number_lt_of_before
      (mem_sendsTo_iff.mp hsecond).1 (mem_sendsTo_iff.mp hfirst).1 hlater
      hdelivery hbefore
    exact hlt.asymm hgt
  · intro index delivery n hdelivery hended hdeliveryTopic hk
    rw [← hdeliveryTopic] at htopic
    rcases haccounted.progress.complete hdelivery (by simp [hended]) k hk
      htopic with ⟨send, hsend, hto, hindex⟩
    have hmem := mem_sendsTo_iff.mpr ⟨hsend, hto⟩
    refine ⟨send, hmem, hindex, ?_⟩
    rw [hstream, mem_accepted_iff]
    by_cases hroom : send.buffered < channelBuffer
    · exact .inl ⟨send, hmem, hroom, rfl⟩
    · exact .inr (Nat.le_of_not_lt hroom)

theorem Accounted.exists_send (haccounted : Accounted codec c) {k : ℕ}
    {sub : Subscription channelBuffer}
    (hsub : c.subscriptions[k]? = some sub) {copy : Copy}
    (hcopy : copy ∈ sub.received) :
    ∃ send ∈ c.sends, send.subscription = k ∧ send.copy = copy := by
  have hstream : copy ∈ sub.received ++ sub.channel.buffer :=
    List.mem_append_left _ hcopy
  rw [haccounted.streams.stream hsub, mem_accepted_iff] at hstream
  rcases hstream with ⟨send, hsend, -, hsame⟩
  rcases mem_sendsTo_iff.mp hsend with ⟨hmem, hto⟩
  exact ⟨send, hmem, hto, hsame⟩

/-- In every state of every run each subscriber has received the deliveries of
its topic in order, without duplicates and up to those that found its buffer
full, and no two subscribers share a copy. -/
theorem subscribers_receive_deliveries (codec : EventCodec)
    (hreachable : (machine codec channelBuffer).Reachable c) :
    (∀ k sub, c.subscriptions[k]? = some sub → Receives codec c k sub) ∧
      ∀ (k k' : ℕ) (sub sub' : Subscription channelBuffer),
        c.subscriptions[k]? = some sub → c.subscriptions[k']? = some sub' →
          k ≠ k' → ∀ copy ∈ sub.received, ∀ copy' ∈ sub'.received,
            copy.number ≠ copy'.number := by
  have haccounted := accounted_of_reachable hreachable
  constructor
  · intro k sub hsub
    exact haccounted.receives hsub
  · intro k k' sub sub' hsub hsub' hne copy hcopy copy' hcopy' hnumber
    rcases haccounted.exists_send hsub hcopy with ⟨send, hsend, rfl, rfl⟩
    rcases haccounted.exists_send hsub' hcopy' with ⟨send', hsend', rfl, rfl⟩
    have hsame := haccounted.progress.eq_of_number hsend hsend' hnumber
    exact hne (congrArg Send.subscription hsame)

/-- `Publish` with two subscribers to the topic, and what it ranges over. -/
def samplePublish : List Input :=
  [{}, {}, {}, { identity := some [5] }, {}, { subscriber := some 1 },
    { subscriber := some 0 }, {}, {}, {}]

/-- Two subscribers with one slot each; only the second receives between the
two events. -/
def sampleDelivery : Controller 1 :=
  (machine sampleEvents 1).replay {}
    (sampleCall 0 (.subscribe [1]) (List.replicate 6 {}) ++
      sampleCall 1 (.subscribe [1]) (List.replicate 6 {}) ++
      sampleCall 2 (.publish [1] (some [8])) samplePublish ++ [.receive 1] ++
      sampleCall 3 (.publish [1] (some [9])) samplePublish ++
      [.receive 0, .receive 1])

theorem subscribers_receive_deliveries_sample :
    (sampleDelivery.subscriptions.map fun sub =>
        sub.received.map fun copy => (copy.number, copy.event.payload)) =
        [[(1, some [8])], [(0, some [8]), (2, some [9])]] ∧
      sampleDelivery.sends.map Send.buffered = [0, 0, 0, 1] ∧
      ∀ k sub, sampleDelivery.subscriptions[k]? = some sub →
        Receives sampleEvents sampleDelivery k sub := by
  have hreachable : (machine sampleEvents 1).Reachable sampleDelivery := by
    apply Machine.Run.replay (.start rfl)
    decide +kernel
  refine ⟨by decide +kernel, by decide +kernel, ?_⟩
  exact (subscribers_receive_deliveries sampleEvents hreachable).1

end Controller

end GoP2P.ContentBus
