import GoP2P.BusLifecycle

/-!
# The accounts of the deliveries

What was sent, received and delivered is kept in lists, and what holds of them
is said here about the lists: the stream of a channel is the sends that found
room, a delivery visits every channel of its topic once, and its event comes
from the call it serves.  There is one lemma for each way in which the lists
grow.
-/

namespace GoP2P.ContentBus

/-- The copies of the sends that found room. -/
def accepted (channelBuffer : ℕ) (sends : List Send) : List Copy :=
  (sends.filter fun send => send.buffered < channelBuffer).map Send.copy

def sendsTo (sends : List Send) (subscription : ℕ) : List Send :=
  sends.filter fun send => send.subscription = subscription

section

variable {channelBuffer : ℕ}

theorem accepted_concat (sends : List Send) (send : Send) :
    accepted channelBuffer (sends ++ [send]) =
      accepted channelBuffer sends ++
        if send.buffered < channelBuffer then [send.copy] else [] := by
  unfold accepted
  rw [List.filter_append, List.map_append]
  by_cases hroom : send.buffered < channelBuffer <;> simp [hroom]

theorem sendsTo_concat (sends : List Send) (send : Send) (subscription : ℕ) :
    sendsTo (sends ++ [send]) subscription =
      sendsTo sends subscription ++
        if send.subscription = subscription then [send] else [] := by
  unfold sendsTo
  rw [List.filter_append]
  by_cases hsame : send.subscription = subscription <;> simp [hsame]

theorem mem_sendsTo_iff {sends : List Send} {k : ℕ} {send : Send} :
    send ∈ sendsTo sends k ↔ send ∈ sends ∧ send.subscription = k := by
  simp [sendsTo]

theorem mem_accepted_iff {sends : List Send} {copy : Copy} :
    copy ∈ accepted channelBuffer sends ↔
      ∃ send ∈ sends, send.buffered < channelBuffer ∧ send.copy = copy := by
  simp [accepted, and_assoc]

end

/-! ### What is in the channels -/

section

variable {channelBuffer : ℕ} {subs : List (Subscription channelBuffer)}
  {sends : List Send}

/-- What was received and what is buffered are the sends that found room. -/
structure Streams (subs : List (Subscription channelBuffer))
    (sends : List Send) : Prop where
  stream : ∀ ⦃k sub⦄, subs[k]? = some sub →
    sub.received ++ sub.channel.buffer =
      accepted channelBuffer (sendsTo sends k)
  known : ∀ send ∈ sends, send.subscription < subs.length

theorem Streams.subscribe (hstreams : Streams subs sends) (topic : Bytes) :
    Streams (subs ++ [{ topic := topic }]) sends := by
  constructor
  · intro k sub hsub
    rcases getElem?_concat_cases hsub with hold | ⟨rfl, rfl⟩
    · exact hstreams.stream hold
    · have hnone : sendsTo sends subs.length = [] := by
        rw [sendsTo, List.filter_eq_nil_iff]
        intro send hsend
        simpa using (hstreams.known send hsend).ne
      rw [hnone]
      rfl
  · intro send hsend
    rw [List.length_append]
    exact Nat.lt_add_right _ (hstreams.known send hsend)

/-- The stream of one subscription goes from its buffer to what was
received. -/
theorem Streams.set (hstreams : Streams subs sends) {k : ℕ}
    {sub new : Subscription channelBuffer} (hsub : subs[k]? = some sub)
    (hsame : new.received ++ new.channel.buffer =
      sub.received ++ sub.channel.buffer) : Streams (subs.set k new) sends := by
  constructor
  · intro i found hfound
    rcases getElem?_set_cases hfound with ⟨rfl, rfl⟩ | ⟨-, hold⟩
    · exact hsame.trans (hstreams.stream hsub)
    · exact hstreams.stream hold
  · rw [List.length_set]
    exact hstreams.known

theorem Streams.send (hstreams : Streams subs sends) (send : Send)
    {sub new : Subscription channelBuffer}
    (hsub : subs[send.subscription]? = some sub)
    (hnew : new.received ++ new.channel.buffer =
      sub.received ++ sub.channel.buffer ++
        if send.buffered < channelBuffer then [send.copy] else []) :
    Streams (subs.set send.subscription new) (sends ++ [send]) := by
  constructor
  · intro k found hfound
    rw [sendsTo_concat]
    rcases getElem?_set_cases hfound with ⟨rfl, rfl⟩ | ⟨hne, hold⟩
    · rw [if_pos rfl, accepted_concat, hnew, hstreams.stream hsub]
    · rw [if_neg (Ne.symm hne), List.append_nil]
      exact hstreams.stream hold
  · intro other hother
    rw [List.length_set]
    rcases List.mem_append.mp hother with hold | hnew
    · exact hstreams.known other hold
    · rw [List.mem_singleton.mp hnew]
      exact (List.getElem?_eq_some_iff.mp hsub).1

end

/-! ### Which sends a delivery makes -/

section

variable {topics : List Bytes} {goroutines : List Goroutine}
  {deliveries : List Delivery} {sends : List Send} {position : ℕ}
  {g : Goroutine}

/-- The send is one of its delivery: of its event, on a channel of its topic
that was there when it began, and tried while it went on. -/
def Belongs (topics : List Bytes) (deliveries : List Delivery) (send : Send) :
    Prop :=
  ∃ delivery, deliveries[send.delivery]? = some delivery ∧
    send.event = cloneEvent delivery.event ∧
    topics[send.subscription]? = some delivery.event.topic ∧
    send.subscription < delivery.subscriptions ∧
    delivery.sendsBefore ≤ send.number ∧
    ∀ n, delivery.sendsAfter = some n → send.number < n

/-- The goroutine runs this delivery and has visited the channels on which the
delivery has tried a send. -/
def Delivering (topics : List Bytes) (deliveries : List Delivery)
    (sends : List Send) (position index : ℕ) (event : Event)
    (visited : Finset ℕ) : Prop :=
  ∃ delivery, deliveries[index]? = some delivery ∧
    delivery.goroutine = position ∧ delivery.event = event ∧
    delivery.subscriptions = topics.length ∧ delivery.sendsAfter = none ∧
    ∀ id, id ∈ visited ↔
      ∃ send ∈ sends, send.subscription = id ∧ send.delivery = index

structure Progress (topics : List Bytes) (goroutines : List Goroutine)
    (deliveries : List Delivery) (sends : List Send) : Prop where
  numbered : sends.map Send.number = List.range sends.length
  bounded : ∀ delivery ∈ deliveries,
    delivery.subscriptions ≤ topics.length ∧
      delivery.sendsBefore ≤ sends.length
  belongs : ∀ send ∈ sends, Belongs topics deliveries send
  once : (sends.map fun send => (send.subscription, send.delivery)).Nodup
  delivering : ∀ ⦃position g index event visited⦄,
    goroutines[position]? = some g →
      g.stage = .delivering index event visited →
        Delivering topics deliveries sends position index event visited
  complete : ∀ ⦃index delivery⦄, deliveries[index]? = some delivery →
    delivery.sendsAfter.isSome → ∀ k < delivery.subscriptions,
      topics[k]? = some delivery.event.topic →
        ∃ send ∈ sends, send.subscription = k ∧ send.delivery = index

theorem Progress.call (hprogress : Progress topics goroutines deliveries sends)
    (call : Call) :
    Progress topics (goroutines ++ [{ call := call }]) deliveries sends := by
  refine { hprogress with delivering := ?_ }
  intro position g index event visited hg hstage
  rcases getElem?_concat_cases hg with hold | ⟨-, rfl⟩
  · exact hprogress.delivering hold hstage
  · cases hstage

/-- A step of a goroutine that does not deliver afterwards. -/
theorem Progress.move (hprogress : Progress topics goroutines deliveries sends)
    {stage : Stage} (hstage : ∀ index event visited,
      stage ≠ .delivering index event visited) :
    Progress topics (goroutines.set position { g with stage := stage })
      deliveries sends := by
  refine { hprogress with delivering := ?_ }
  intro i found index event visited hfound hdelivering
  rcases getElem?_set_cases hfound with ⟨-, rfl⟩ | ⟨-, hold⟩
  · exact absurd hdelivering (hstage index event visited)
  · exact hprogress.delivering hold hdelivering

/-- No delivery goes on while a channel is added. -/
theorem Progress.subscribe
    (hprogress : Progress topics goroutines deliveries sends)
    (hidle : ∀ g ∈ goroutines, ∀ index event visited,
      g.stage ≠ .delivering index event visited) (topic : Bytes) :
    Progress (topics ++ [topic]) goroutines deliveries sends := by
  have hkept : ∀ {k : ℕ}, k < topics.length →
      (topics ++ [topic])[k]? = topics[k]? := fun hk =>
    List.getElem?_append_left hk
  constructor
  · exact hprogress.numbered
  · intro delivery hdelivery
    rcases hprogress.bounded delivery hdelivery with ⟨hsubs, hsends⟩
    rw [List.length_append]
    exact ⟨Nat.le_add_right_of_le hsubs, hsends⟩
  · intro send hsend
    rcases hprogress.belongs send hsend with
      ⟨delivery, hdelivery, hevent, htopic, hrest⟩
    refine ⟨delivery, hdelivery, hevent, ?_, hrest⟩
    rw [hkept (List.getElem?_eq_some_iff.mp htopic).1]
    exact htopic
  · exact hprogress.once
  · intro position g index event visited hg hstage
    exact absurd hstage (hidle g (List.mem_of_getElem? hg) index event visited)
  · intro index delivery hdelivery hended k hk htopic
    have hlt := (hprogress.bounded delivery (List.mem_of_getElem? hdelivery)).1
    rw [hkept (hk.trans_le hlt)] at htopic
    exact hprogress.complete hdelivery hended k hk htopic

theorem Progress.begin (hprogress : Progress topics goroutines deliveries sends)
    (position : ℕ) (g : Goroutine) (event : Event) :
    Progress topics
      (goroutines.set position
        { g with stage := .delivering deliveries.length event ∅ })
      (deliveries ++
        [{ goroutine := position, event := event
           subscriptions := topics.length, sendsBefore := sends.length }])
      sends := by
  constructor
  · exact hprogress.numbered
  · intro delivery hdelivery
    rcases List.mem_append.mp hdelivery with hold | hnew
    · exact hprogress.bounded delivery hold
    · rw [List.mem_singleton.mp hnew]
      exact ⟨le_rfl, le_rfl⟩
  · intro send hsend
    rcases hprogress.belongs send hsend with ⟨delivery, hdelivery, hrest⟩
    exact ⟨delivery, getElem?_concat_of_some hdelivery _, hrest⟩
  · exact hprogress.once
  · intro i found index event visited hfound hstage
    rcases getElem?_set_cases hfound with ⟨rfl, rfl⟩ | ⟨-, hold⟩
    · cases hstage
      refine ⟨_, List.getElem?_concat_length, rfl, rfl, rfl, rfl, ?_⟩
      intro id
      constructor
      · intro hid
        simp at hid
      · rintro ⟨send, hsend, -, hindex⟩
        -- An earlier send belongs to an earlier delivery.
        rcases hprogress.belongs send hsend with ⟨delivery, hdelivery, -⟩
        have hlt := (List.getElem?_eq_some_iff.mp hdelivery).1
        omega
    · rcases hprogress.delivering hold hstage with ⟨delivery, hdelivery, hrest⟩
      exact ⟨delivery, getElem?_concat_of_some hdelivery _, hrest⟩
  · intro index delivery hdelivery hended
    rcases getElem?_concat_cases hdelivery with hold | ⟨-, rfl⟩
    · exact hprogress.complete hold hended
    · cases hended

theorem Progress.number_lt
    (hprogress : Progress topics goroutines deliveries sends) {send : Send}
    (hsend : send ∈ sends) : send.number < sends.length := by
  rw [← List.mem_range, ← hprogress.numbered]
  exact List.mem_map_of_mem hsend

/-- A delivery is the work of one goroutine. -/
theorem Progress.position_unique
    (hprogress : Progress topics goroutines deliveries sends)
    {i index : ℕ} {other : Goroutine} {event event' : Event}
    {visited visited' : Finset ℕ} (hg : goroutines[position]? = some g)
    (hstage : g.stage = .delivering index event visited)
    (hother : goroutines[i]? = some other)
    (hotherStage : other.stage = .delivering index event' visited') :
    i = position := by
  rcases hprogress.delivering hg hstage with ⟨delivery, hdelivery, hrun, -⟩
  rcases hprogress.delivering hother hotherStage with
    ⟨found, hfound, hotherRun, -⟩
  rw [hdelivery, Option.some.injEq] at hfound
  subst hfound
  exact hotherRun.symm.trans hrun

theorem Delivering.belongs {send : Send} {event : Event} {visited : Finset ℕ}
    (hdelivering : Delivering topics deliveries sends position send.delivery
      event visited)
    (hbounded : ∀ delivery ∈ deliveries, delivery.sendsBefore ≤ sends.length)
    (htopic : topics[send.subscription]? = some event.topic)
    (hnumber : send.number = sends.length)
    (hevent : send.event = cloneEvent event) :
    Belongs topics deliveries send := by
  rcases hdelivering with
    ⟨delivery, hdelivery, -, hdeliveryEvent, hsubs, hopen, -⟩
  refine ⟨delivery, hdelivery, ?_, ?_, ?_, ?_, ?_⟩
  · rw [hevent, hdeliveryEvent]
  · rw [htopic, hdeliveryEvent]
  · rw [hsubs]
    exact (List.getElem?_eq_some_iff.mp htopic).1
  · rw [hnumber]
    exact hbounded delivery (List.mem_of_getElem? hdelivery)
  · intro n hended
    rw [hopen] at hended
    cases hended

/-- A send of the delivery is one more channel visited. -/
theorem Delivering.visit {send : Send} {event : Event} {visited : Finset ℕ}
    (hdelivering : Delivering topics deliveries sends position send.delivery
      event visited) :
    Delivering topics deliveries (sends ++ [send]) position send.delivery event
      (insert send.subscription visited) := by
  rcases hdelivering with
    ⟨delivery, hdelivery, hrun, hevent, hsubs, hopen, hvisited⟩
  refine ⟨delivery, hdelivery, hrun, hevent, hsubs, hopen, ?_⟩
  intro id
  simp only [Finset.mem_insert, hvisited, List.mem_append, List.mem_singleton]
  constructor
  · rintro (rfl | ⟨earlier, hearlier, hsame⟩)
    · exact ⟨send, .inr rfl, rfl, rfl⟩
    · exact ⟨earlier, .inl hearlier, hsame⟩
  · rintro ⟨other, hother | rfl, hid, hindex⟩
    · exact .inr ⟨other, hother, hid, hindex⟩
    · exact .inl hid.symm

theorem Delivering.of_other {send : Send} {index : ℕ} {event : Event}
    {visited : Finset ℕ} (hdelivering : Delivering topics deliveries sends
      position index event visited) (hindex : send.delivery ≠ index) :
    Delivering topics deliveries (sends ++ [send]) position index event
      visited := by
  rcases hdelivering with
    ⟨delivery, hdelivery, hrun, hevent, hsubs, hopen, hvisited⟩
  refine ⟨delivery, hdelivery, hrun, hevent, hsubs, hopen, ?_⟩
  intro id
  simp [hvisited, or_and_right, exists_or, hindex]

theorem Progress.send (hprogress : Progress topics goroutines deliveries sends)
    (send : Send) {visited : Finset ℕ} {event : Event}
    (hg : goroutines[position]? = some g)
    (hstage : g.stage = .delivering send.delivery event visited)
    (htopic : topics[send.subscription]? = some event.topic)
    (hunvisited : send.subscription ∉ visited)
    (hnumber : send.number = sends.length)
    (hevent : send.event = cloneEvent event) :
    Progress topics
      (goroutines.set position
        { g with
          stage := .delivering send.delivery event
            (insert send.subscription visited) })
      deliveries (sends ++ [send]) := by
  have hown := hprogress.delivering hg hstage
  constructor
  · rw [List.map_append, hprogress.numbered, List.length_append,
      List.length_singleton, List.range_succ, List.map_singleton, hnumber]
  · intro other hother
    rcases hprogress.bounded other hother with ⟨hle, hsends⟩
    rw [List.length_append]
    exact ⟨hle, Nat.le_add_right_of_le hsends⟩
  · intro other hother
    rcases List.mem_append.mp hother with hold | hnew
    · exact hprogress.belongs other hold
    · rw [List.mem_singleton.mp hnew]
      apply hown.belongs _ htopic hnumber hevent
      intro delivery hdelivery
      exact (hprogress.bounded delivery hdelivery).2
  · rw [List.map_append, List.map_singleton, ← List.concat_eq_append]
    apply hprogress.once.concat
    intro hsent
    rcases List.mem_map.mp hsent with ⟨earlier, hearlier, hsame⟩
    rw [Prod.mk.injEq] at hsame
    rcases hown with ⟨_, -, -, -, -, -, hvisited⟩
    exact hunvisited ((hvisited _).mpr ⟨earlier, hearlier, hsame⟩)
  · intro i found index event' visited' hfound hdelivering
    rcases getElem?_set_cases hfound with ⟨rfl, rfl⟩ | ⟨hne, hold⟩
    · cases hdelivering
      exact hown.visit
    · -- The new send is of the other delivery.
      apply (hprogress.delivering hold hdelivering).of_other
      intro hindex
      rw [← hindex] at hdelivering
      exact hne (hprogress.position_unique hg hstage hold hdelivering)
  · intro index other hother hended k hk hkTopic
    rcases hprogress.complete hother hended k hk hkTopic with
      ⟨earlier, hearlier, hsame⟩
    exact ⟨earlier, List.mem_append_left _ hearlier, hsame⟩

/-- What `deliver` records at its end. -/
def Delivery.ended (delivery : Delivery) (n : ℕ) : Delivery :=
  { delivery with sendsAfter := some n }

/-- The map is ranged over to the end. -/
theorem Progress.end (hprogress : Progress topics goroutines deliveries sends)
    {index : ℕ} {visited : Finset ℕ} {event : Event}
    (hg : goroutines[position]? = some g)
    (hstage : g.stage = .delivering index event visited)
    (hall : ∀ k, topics[k]? = some event.topic → k ∈ visited) :
    Progress topics
      (goroutines.set position { g with stage := .delivered event })
      (deliveries.modify index fun delivery => delivery.ended sends.length)
      sends := by
  rcases hprogress.delivering hg hstage with
    ⟨delivery, hdelivery, -, hdeliveryEvent, -, -, hvisited⟩
  have hlookup := getElem?_modify_of_some hdelivery fun delivery =>
    delivery.ended sends.length
  constructor
  · exact hprogress.numbered
  · intro found hfound
    rcases List.getElem?_of_mem hfound with ⟨i, hi⟩
    rw [hlookup] at hi
    split_ifs at hi with hindex
    · cases hi
      exact hprogress.bounded delivery (List.mem_of_getElem? hdelivery)
    · exact hprogress.bounded found (List.mem_of_getElem? hi)
  · intro send hsend
    rcases hprogress.belongs send hsend with
      ⟨found, hfound, hevent, htopic, hsubs, hbefore, hafter⟩
    unfold Belongs
    rw [hlookup]
    split_ifs with hindex
    · rw [← hindex, hdelivery, Option.some.injEq] at hfound
      subst hfound
      refine ⟨_, rfl, hevent, htopic, hsubs, hbefore, ?_⟩
      rintro n hn
      cases hn
      exact hprogress.number_lt hsend
    · exact ⟨found, hfound, hevent, htopic, hsubs, hbefore, hafter⟩
  · exact hprogress.once
  · intro i found other event' visited' hfound hdelivering
    rcases getElem?_set_cases hfound with ⟨-, rfl⟩ | ⟨hne, hold⟩
    · cases hdelivering
    · have hindex : index ≠ other := by
        rintro rfl
        exact hne (hprogress.position_unique hg hstage hold hdelivering)
      unfold Delivering
      rw [hlookup, if_neg hindex]
      exact hprogress.delivering hold hdelivering
  · intro i found hfound hended k hk htopic
    rw [hlookup] at hfound
    split_ifs at hfound with hindex
    · subst hindex
      cases hfound
      apply (hvisited k).mp
      apply hall
      rw [htopic]
      exact congrArg (some ·.topic) hdeliveryEvent
    · exact hprogress.complete hfound hended k hk htopic

/-- One delivery had ended when the other began. -/
def Delivery.Before (first second : Delivery) : Prop :=
  ∃ n, first.sendsAfter = some n ∧ n ≤ second.sendsBefore

theorem Progress.sendsTo_once
    (hprogress : Progress topics goroutines deliveries sends) (k : ℕ) :
    ((sendsTo sends k).map Send.delivery).Nodup := by
  have hpairs := hprogress.once
  rw [List.Nodup, List.pairwise_map] at hpairs ⊢
  apply (hpairs.sublist List.filter_sublist).imp_of_mem
  intro first second hfirst hsecond hne hsame
  have hfirstTo := (mem_sendsTo_iff.mp hfirst).2
  have hsecondTo := (mem_sendsTo_iff.mp hsecond).2
  apply hne
  rw [hfirstTo, hsecondTo, hsame]

theorem Progress.pairwise_number
    (hprogress : Progress topics goroutines deliveries sends) :
    sends.Pairwise fun first second => first.number < second.number := by
  have hrange := List.pairwise_lt_range (n := sends.length)
  rw [← hprogress.numbered, List.pairwise_map] at hrange
  exact hrange

/-- The sends of a delivery come before those of one that began later. -/
theorem Progress.number_lt_of_before
    (hprogress : Progress topics goroutines deliveries sends)
    {first second : Send} (hfirst : first ∈ sends) (hsecond : second ∈ sends)
    {delivery later : Delivery}
    (hdelivery : deliveries[first.delivery]? = some delivery)
    (hlater : deliveries[second.delivery]? = some later)
    (hbefore : delivery.Before later) : first.number < second.number := by
  rcases hbefore with ⟨n, hended, hle⟩
  rcases hprogress.belongs first hfirst with
    ⟨found, hfound, -, -, -, -, hafter⟩
  rw [hdelivery, Option.some.injEq] at hfound
  subst hfound
  rcases hprogress.belongs second hsecond with
    ⟨found, hfound, -, -, -, hbegun, -⟩
  rw [hlater, Option.some.injEq] at hfound
  subst hfound
  calc
    first.number < n := hafter n hended
    _ ≤ later.sendsBefore := hle
    _ ≤ second.number := hbegun

/-- Its number is where a send stands. -/
theorem Progress.getElem?_number
    (hprogress : Progress topics goroutines deliveries sends) {send : Send}
    (hsend : send ∈ sends) : sends[send.number]? = some send := by
  rcases List.getElem?_of_mem hsend with ⟨i, hi⟩
  have hlt := (List.getElem?_eq_some_iff.mp hi).1
  have hnumber : (sends.map Send.number)[i]? = some i := by
    rw [hprogress.numbered]
    exact List.getElem?_range hlt
  rw [List.getElem?_map, hi, Option.map_some, Option.some.injEq] at hnumber
  rw [hnumber]
  exact hi

theorem Progress.eq_of_number
    (hprogress : Progress topics goroutines deliveries sends)
    {first second : Send} (hfirst : first ∈ sends) (hsecond : second ∈ sends)
    (hnumber : first.number = second.number) : first = second := by
  have hsame := hprogress.getElem?_number hfirst
  rw [hnumber, hprogress.getElem?_number hsecond, Option.some.injEq] at hsame
  exact hsame.symm

end

/-! ### Where the events come from -/

section

variable {codec : EventCodec} {goroutines : List Goroutine}
  {deliveries : List Delivery} {position : ℕ} {g : Goroutine} {stage : Stage}

def Call.Makes (codec : EventCodec) (call : Call) (event : Event) : Prop :=
  ∃ input, call.makeEvent codec input = some event

/-- Every event in delivery was made by the call of its goroutine. -/
structure Sourced (codec : EventCodec) (goroutines : List Goroutine)
    (deliveries : List Delivery) : Prop where
  ready : ∀ g ∈ goroutines, ∀ event, g.stage = .ready event →
    g.call.Makes codec event
  made : ∀ delivery ∈ deliveries, ∃ g,
    goroutines[delivery.goroutine]? = some g ∧
      g.call.Makes codec delivery.event

theorem Sourced.call (hsourced : Sourced codec goroutines deliveries)
    (call : Call) :
    Sourced codec (goroutines ++ [{ call := call }]) deliveries := by
  constructor
  · intro g hg event hready
    rcases List.mem_append.mp hg with hold | hnew
    · exact hsourced.ready g hold event hready
    · rw [List.mem_singleton.mp hnew] at hready
      cases hready
  · intro delivery hdelivery
    rcases hsourced.made delivery hdelivery with ⟨g, hg, hmakes⟩
    exact ⟨g, getElem?_concat_of_some hg _, hmakes⟩

/-- A goroutine keeps its call. -/
theorem Sourced.set (hsourced : Sourced codec goroutines deliveries)
    (hg : goroutines[position]? = some g)
    (hready : ∀ event, stage = .ready event → g.call.Makes codec event) :
    Sourced codec (goroutines.set position { g with stage := stage })
      deliveries := by
  constructor
  · intro other hother event hstage
    rcases List.mem_or_eq_of_mem_set hother with hmem | rfl
    · exact hsourced.ready other hmem event hstage
    · exact hready event hstage
  · intro delivery hdelivery
    rcases hsourced.made delivery hdelivery with ⟨found, hfound, hmakes⟩
    refine exists_getElem?_set hg hfound ?_ hmakes
    intro _ hsame
    subst hsame
    exact hmakes

theorem Sourced.begin (hsourced : Sourced codec goroutines deliveries)
    {delivery : Delivery} (hg : goroutines[delivery.goroutine]? = some g)
    (hmakes : g.call.Makes codec delivery.event) :
    Sourced codec goroutines (deliveries ++ [delivery]) := by
  refine ⟨hsourced.ready, ?_⟩
  intro other hother
  rcases List.mem_append.mp hother with hold | hnew
  · exact hsourced.made other hold
  · rw [List.mem_singleton.mp hnew]
    exact ⟨g, hg, hmakes⟩

theorem Sourced.end (hsourced : Sourced codec goroutines deliveries)
    (index n : ℕ) :
    Sourced codec goroutines
      (deliveries.modify index fun delivery => delivery.ended n) := by
  refine ⟨hsourced.ready, ?_⟩
  intro found hfound
  rcases List.getElem?_of_mem hfound with ⟨i, hi⟩
  rw [List.getElem?_modify] at hi
  split_ifs at hi with hindex
  · rcases Option.map_eq_some_iff.mp hi with ⟨delivery, hdelivery, rfl⟩
    exact hsourced.made delivery (List.mem_of_getElem? hdelivery)
  · rw [id_map'] at hi
    exact hsourced.made found (List.mem_of_getElem? hi)

end

end GoP2P.ContentBus
