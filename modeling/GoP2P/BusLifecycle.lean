import GoP2P.ContentBus

/-!
# The life of a subscription channel

`deliver` sends under the read side of `c.mu`, after the check of `closed`, and
`Close` sets `closed` and closes the channels under the write side.  So a
goroutine past the check keeps `Close` waiting until it has returned, and none
gets past the check afterwards.  A channel is open exactly as long as it is in
the map.
-/

namespace GoP2P.ContentBus

def Send.copy (send : Send) : Copy where
  number := send.number
  event := send.event

namespace Controller

variable {channelBuffer : ℕ} {codec : EventCodec}
  {c c' : Controller channelBuffer} {position : ℕ} {g : Goroutine}
  {stage : Stage}

/-! ### Who holds the locks -/

structure Locked (c : Controller channelBuffer) : Prop where
  mu : ReadWriteLock.Exclusive Goroutine.mu c.goroutines
  subsMu : ReadWriteLock.Exclusive Goroutine.subsMu c.goroutines

theorem Moves.mu (hmoves : Moves codec c g stage) :
    ReadWriteLock.Steps Goroutine.mu c.goroutines g
      { g with stage := stage } := by
  cases hmoves with
  | refused | again | asks | returns | releases => exact .releases rfl
  | enters _ hcan => exact .reads rfl hcan
  | locks _ hcan => exact .writes rfl hcan
  | rejected hstage | admitted hstage | inserting hstage | anonymous hstage
  | ready hstage | ends hstage | clears hstage | cleared hstage =>
      exact .keeps (by simp [Goroutine.mu, hstage])

theorem Moves.subsMu (hmoves : Moves codec c g stage) :
    ReadWriteLock.Steps Goroutine.subsMu c.goroutines g
      { g with stage := stage } := by
  cases hmoves with
  | inserting _ _ hcan | clears _ hcan => exact .writes rfl hcan
  | _ => exact .releases rfl

theorem Locked.set (hlocked : Locked c)
    (hg : c.goroutines[position]? = some g)
    (hmu : ReadWriteLock.Steps Goroutine.mu c.goroutines g
      { g with stage := stage })
    (hsubsMu : ReadWriteLock.Steps Goroutine.subsMu c.goroutines g
      { g with stage := stage })
    (hgoroutines : c'.goroutines =
      c.goroutines.set position { g with stage := stage }) : Locked c' := by
  constructor
  · rw [hgoroutines]
    exact hlocked.mu.set hg hmu
  · rw [hgoroutines]
    exact hlocked.subsMu.set hg hsubsMu

theorem Locked.of_eq (hlocked : Locked c)
    (hgoroutines : c'.goroutines = c.goroutines) : Locked c' := by
  constructor
  · rw [hgoroutines]
    exact hlocked.mu
  · rw [hgoroutines]
    exact hlocked.subsMu

/-! ### What the steps on channels change -/

/-- The goroutines and the flags of `Close` are the same. -/
structure SameCalls (c c' : Controller channelBuffer) : Prop where
  goroutines : c'.goroutines = c.goroutines
  closed : c'.closed = c.closed
  closeOnce : c'.closeOnce = c.closeOnce

theorem send_shape (c : Controller channelBuffer) (delivery : ℕ)
    (event : Event) (subscription : ℕ) :
    ∃ subs sends panicked, subs.length = c.subscriptions.length ∧
      c.send delivery event subscription =
        { c with
          subscriptions := subs
          sends := sends
          panicked := panicked } := by
  unfold send
  split
  · exact ⟨_, _, _, rfl, rfl⟩
  · dsimp only
    split
    · exact ⟨_, _, _, List.length_set, rfl⟩
    · exact ⟨_, _, _, rfl, rfl⟩
    · exact ⟨_, _, _, rfl, rfl⟩

theorem closeSub_cases (c : Controller channelBuffer) (topic : Bytes)
    (id subscription : ℕ) :
    (∃ panicked, c.closeSub topic id subscription =
      { c with panicked := panicked }) ∨
    ∃ sub, c.subscriptions[subscription]? = some sub ∧
      c.closeSub topic id subscription =
        { c with
          subscribers := c.subscribers.insert topic ((c.topicSubs topic).erase id)
          subscriptions := c.subscriptions.set subscription
            { sub with channel := sub.channel.close } } := by
  unfold closeSub
  cases hsub : c.subscriptions[subscription]? with
  | none => exact .inl ⟨_, rfl⟩
  | some sub =>
      dsimp only
      split_ifs
      · exact .inl ⟨_, rfl⟩
      · exact .inr ⟨sub, rfl, rfl⟩

theorem receive_cases (c : Controller channelBuffer) (subscription : ℕ) :
    c.receive subscription = c ∨
    ∃ sub copy channel, c.subscriptions[subscription]? = some sub ∧
      sub.channel.receive? = some (copy, channel) ∧
      c.receive subscription =
        { c with
          subscriptions := c.subscriptions.set subscription
            { sub with
              channel := channel
              received := sub.received ++ [copy] } } := by
  unfold receive
  cases hsub : c.subscriptions[subscription]? with
  | none => exact .inl rfl
  | some sub =>
      dsimp only
      split
      · exact .inl rfl
      next copy channel hreceived =>
        exact .inr ⟨sub, copy, channel, rfl, hreceived, rfl⟩

theorem send_sameCalls (c : Controller channelBuffer) (delivery : ℕ)
    (event : Event) (subscription : ℕ) :
    SameCalls c (c.send delivery event subscription) := by
  rcases c.send_shape delivery event subscription with ⟨_, _, _, -, hsend⟩
  rw [hsend]
  exact ⟨rfl, rfl, rfl⟩

theorem closeSub_sameCalls (c : Controller channelBuffer) (topic : Bytes)
    (id subscription : ℕ) :
    SameCalls c (c.closeSub topic id subscription) := by
  rcases c.closeSub_cases topic id subscription with
    ⟨_, hclose⟩ | ⟨_, -, hclose⟩
  · rw [hclose]
    exact ⟨rfl, rfl, rfl⟩
  · rw [hclose]
    exact ⟨rfl, rfl, rfl⟩

theorem receive_sameCalls (c : Controller channelBuffer) (subscription : ℕ) :
    SameCalls c (c.receive subscription) := by
  rcases c.receive_cases subscription with
    hreceive | ⟨_, _, _, -, -, hreceive⟩
  · rw [hreceive]
    exact ⟨rfl, rfl, rfl⟩
  · rw [hreceive]
    exact ⟨rfl, rfl, rfl⟩

theorem receive_subscribers (c : Controller channelBuffer)
    (subscription : ℕ) :
    (c.receive subscription).subscribers = c.subscribers := by
  rcases c.receive_cases subscription with
    hreceive | ⟨_, _, _, -, -, hreceive⟩
  · rw [hreceive]
  · rw [hreceive]

theorem effect_locked (hlocked : Locked c) (heffect : Effect codec c c') :
    Locked c' := by
  cases heffect with
  | nothing => exact hlocked
  | called call => exact ⟨hlocked.mu.concat rfl, hlocked.subsMu.concat rfl⟩
  | moved hg hmoves => exact hlocked.set hg hmoves.mu hmoves.subsMu rfl
  | inserted hg hstage =>
      exact hlocked.set hg (.keeps (by simp [Goroutine.mu, hstage]))
        (.releases rfl) rfl
  | begun hg hstage hcan =>
      exact hlocked.set hg (.keeps (by simp [Goroutine.mu, hstage]))
        (.reads rfl hcan) rfl
  | @sent position g delivery event visited id subscription hg hstage =>
      have hgoroutines : ((c.send delivery event subscription).move position g
          (.delivering delivery event (insert id visited))).goroutines =
            c.goroutines.set position
              { g with stage := .delivering delivery event (insert id visited) } := by
        dsimp only [move]
        rw [(send_sameCalls c delivery event subscription).goroutines]
      exact hlocked.set hg (.keeps (by simp [Goroutine.mu, hstage]))
        (.keeps (by simp [Goroutine.subsMu, hstage])) hgoroutines
  | ended hg hstage =>
      exact hlocked.set hg (.keeps (by simp [Goroutine.mu, hstage]))
        (.releases rfl) rfl
  | started hg hstage =>
      exact hlocked.set hg (.releases rfl) (.releases rfl) rfl
  | marked hg hstage =>
      exact hlocked.set hg (.keeps (by simp [Goroutine.mu, hstage]))
        (.releases rfl) rfl
  | closedSub => exact hlocked.of_eq (closeSub_sameCalls c _ _ _).goroutines
  | dropped => exact hlocked.of_eq rfl
  | finished hg hstage =>
      exact hlocked.set hg (.releases rfl) (.releases rfl) rfl
  | received subscription =>
      exact hlocked.of_eq (receive_sameCalls c subscription).goroutines

/-! ### The check of `closed` -/

/-- What holds of a goroutine where it stands, as `closed` is. -/
def Fits (codec : EventCodec) (closed : Bool) (g : Goroutine) : Prop :=
  match g.stage with
  | .admitted | .inserting _ | .ready _ | .delivering _ _ _ | .delivered _ =>
      closed = false
  | .leaving result => closed = true → result = g.call.whenClosed
  | .locking | .locked => g.call = .close
  | .marked | .clearing | .cleared | .released =>
      g.call = .close ∧ closed = true
  | .returned result afterClosed =>
      afterClosed = true → g.call = .close ∨
        g.call.early codec = some result ∨ result = g.call.whenClosed
  | _ => True

structure Checked (codec : EventCodec) (c : Controller channelBuffer) :
    Prop where
  fits : ∀ g ∈ c.goroutines, Fits codec c.closed g
  done : c.closeOnce = .done → c.closed = true

theorem Checked.set (hchecked : Checked codec c)
    (hgoroutines : c'.goroutines =
      c.goroutines.set position { g with stage := stage })
    (hclosed : c'.closed = c.closed)
    (hdone : c'.closeOnce = .done → c.closed = true)
    (hfits : Fits codec c.closed { g with stage := stage }) :
    Checked codec c' := by
  constructor
  · intro other hother
    rw [hgoroutines] at hother
    rw [hclosed]
    rcases List.mem_or_eq_of_mem_set hother with hmem | rfl
    · exact hchecked.fits other hmem
    · exact hfits
  · rw [hclosed]
    exact hdone

theorem Checked.of_sameCalls (hchecked : Checked codec c)
    (hsame : SameCalls c c') : Checked codec c' := by
  constructor
  · rw [hsame.goroutines, hsame.closed]
    exact hchecked.fits
  · rw [hsame.closeOnce, hsame.closed]
    exact hchecked.done

theorem Moves.fits (hmoves : Moves codec c g stage)
    (hfits : Fits codec c.closed g) :
    Fits codec c.closed { g with stage := stage } := by
  cases hmoves with
  | refused hstage hearly =>
      intro _
      exact .inr (.inl hearly)
  | again hstage hcall =>
      intro _
      exact .inl hcall
  | asks | enters => trivial
  | rejected hstage hclosed =>
      intro _
      rfl
  | admitted hstage hopen => exact hopen
  | returns hstage =>
      rw [Fits, hstage] at hfits
      intro hclosed
      exact .inr (.inr (hfits hclosed))
  | inserting hstage | ready hstage | locks hstage | clears hstage
  | cleared hstage | releases hstage =>
      rw [Fits, hstage] at hfits
      exact hfits
  | anonymous hstage | ends hstage =>
      rw [Fits, hstage] at hfits
      intro hclosed
      rw [hfits] at hclosed
      cases hclosed

/-- Setting `closed` touches no goroutine without `c.mu`. -/
theorem fits_of_free {closed : Bool} (hfree : g.mu = .free)
    (hfits : Fits codec closed g) : Fits codec true g := by
  unfold Fits at hfits ⊢
  unfold Goroutine.mu at hfree
  cases hstage : g.stage with
  | called | waiting => trivial
  | released =>
      rw [hstage] at hfits
      exact ⟨hfits.1, rfl⟩
  | locking | returned =>
      rw [hstage] at hfits
      exact hfits
  | _ => simp [hstage] at hfree

theorem effect_checked (hlocked : Locked c) (hchecked : Checked codec c)
    (heffect : Effect codec c c') : Checked codec c' := by
  cases heffect with
  | nothing => exact hchecked
  | called call =>
      refine ⟨?_, hchecked.done⟩
      intro g hg
      rcases List.mem_append.mp hg with hold | hnew
      · exact hchecked.fits g hold
      · rw [List.mem_singleton.mp hnew]
        trivial
  | moved hg hmoves =>
      have hfits := hchecked.fits _ (List.mem_of_getElem? hg)
      exact hchecked.set rfl rfl hchecked.done (hmoves.fits hfits)
  | inserted hg hstage =>
      have hfits := hchecked.fits _ (List.mem_of_getElem? hg)
      rw [Fits, hstage] at hfits
      refine hchecked.set rfl rfl hchecked.done ?_
      intro hclosed
      rw [hfits] at hclosed
      cases hclosed
  | begun hg hstage | ended hg hstage =>
      have hfits := hchecked.fits _ (List.mem_of_getElem? hg)
      rw [Fits, hstage] at hfits
      exact hchecked.set rfl rfl hchecked.done hfits
  | @sent position g delivery event visited id subscription hg hstage =>
      have hfits := hchecked.fits _ (List.mem_of_getElem? hg)
      rw [Fits, hstage] at hfits
      have hsent := hchecked.of_sameCalls
        (send_sameCalls c delivery event subscription)
      refine hsent.set rfl rfl hsent.done ?_
      rw [(send_sameCalls c delivery event subscription).closed]
      exact hfits
  | started hg hstage hcall => exact hchecked.set rfl rfl nofun hcall
  | @marked position g hg hstage =>
      refine ⟨?_, fun _ => rfl⟩
      intro other hother
      rcases List.getElem?_of_mem hother with ⟨i, hi⟩
      rcases getElem?_set_cases hi with ⟨-, rfl⟩ | ⟨hne, hbefore⟩
      · have hfits := hchecked.fits _ (List.mem_of_getElem? hg)
        rw [Fits, hstage] at hfits
        exact ⟨hfits, rfl⟩
      · have hfree : other.mu = .free := by
          apply hlocked.mu hg hbefore (Ne.symm hne)
          simp [Goroutine.mu, hstage]
        exact fits_of_free hfree
          (hchecked.fits other (List.mem_of_getElem? hbefore))
  | closedSub => exact hchecked.of_sameCalls (closeSub_sameCalls c _ _ _)
  | dropped => exact hchecked.of_sameCalls ⟨rfl, rfl, rfl⟩
  | finished hg hstage =>
      have hfits := hchecked.fits _ (List.mem_of_getElem? hg)
      rw [Fits, hstage] at hfits
      refine hchecked.set rfl rfl (fun _ => hfits.2) ?_
      intro _
      exact .inl hfits.1
  | received subscription =>
      exact hchecked.of_sameCalls (receive_sameCalls c subscription)

/-! ### The map and the channels -/

section

variable {subs : List (Subscription channelBuffer)}

/-- The channel at this position, open, with this topic. -/
def Open (subs : List (Subscription channelBuffer)) (subscription : ℕ)
    (topic : Bytes) : Prop :=
  ∃ sub, subs[subscription]? = some sub ∧ sub.topic = topic ∧
    sub.channel.closed = false

theorem open_concat_iff {topic other : Bytes} {k : ℕ} :
    Open (subs ++ [{ topic := topic }]) k other ↔
      Open subs k other ∨ (k = subs.length ∧ other = topic) := by
  unfold Open
  constructor
  · rintro ⟨sub, hsub, htopic, hopen⟩
    rcases getElem?_concat_cases hsub with hold | ⟨hk, rfl⟩
    · exact .inl ⟨sub, hold, htopic, hopen⟩
    · exact .inr ⟨hk, htopic.symm⟩
  · rintro (⟨sub, hsub, htopic, hopen⟩ | ⟨rfl, rfl⟩)
    · refine ⟨sub, ?_, htopic, hopen⟩
      exact getElem?_concat_of_some hsub _
    · refine ⟨{ topic := other }, ?_, rfl, rfl⟩
      simp

/-- A channel that is sent on or received from stays open or closed. -/
theorem open_set_iff {k i : ℕ} {other : Bytes}
    {sub new : Subscription channelBuffer} (hsub : subs[k]? = some sub)
    (htopic : new.topic = sub.topic)
    (hclosed : new.channel.closed = sub.channel.closed) :
    Open (subs.set k new) i other ↔ Open subs i other := by
  unfold Open
  constructor
  · rintro ⟨found, hfound, hother, hopen⟩
    rcases getElem?_set_cases hfound with ⟨rfl, rfl⟩ | ⟨-, hold⟩
    · exact ⟨sub, hsub, htopic.symm.trans hother, hclosed.symm.trans hopen⟩
    · exact ⟨found, hold, hother, hopen⟩
  · rintro ⟨found, hfound, hother, hopen⟩
    refine exists_getElem?_set hsub hfound ?_ ⟨hother, hopen⟩
    intro _ hsame
    subst hsame
    exact ⟨htopic.trans hother, hclosed.trans hopen⟩

theorem open_close_iff {k : ℕ} {sub : Subscription channelBuffer} {i : ℕ}
    {other : Bytes} :
    Open (subs.set k { sub with channel := sub.channel.close }) i other ↔
      i ≠ k ∧ Open subs i other := by
  unfold Open
  constructor
  · rintro ⟨found, hfound, hother, hopen⟩
    rcases getElem?_set_cases hfound with ⟨-, rfl⟩ | ⟨hne, hbefore⟩
    · cases hopen
    · exact ⟨hne, found, hbefore, hother, hopen⟩
  · rintro ⟨hne, found, hfound, hother, hopen⟩
    refine ⟨found, ?_, hother, hopen⟩
    rw [List.getElem?_set_ne (Ne.symm hne)]
    exact hfound

end

/-- The map has exactly the open channels, each under the ID that is its
position. -/
structure Mapped (c : Controller channelBuffer) : Prop where
  nextSubID : c.nextSubID = c.subscriptions.length
  lookup_iff : ∀ topic id subscription,
    (c.topicSubs topic).lookup id = some subscription ↔
      subscription = id ∧ Open c.subscriptions id topic
  calm : c.panicked = false

theorem topicSubs_insert (c : Controller channelBuffer) (topic : Bytes)
    (subs : Finmap fun _ : ℕ => ℕ) (other : Bytes) :
    topicSubs { c with subscribers := c.subscribers.insert topic subs } other =
      if other = topic then subs else c.topicSubs other := by
  unfold topicSubs
  split_ifs with hother
  · subst hother
    rw [Finmap.lookup_insert]
    rfl
  · rw [Finmap.lookup_insert_of_ne _ hother]

theorem Mapped.of_open (hmapped : Mapped c)
    (hsubscribers : ∀ topic, c'.topicSubs topic = c.topicSubs topic)
    (hnext : c'.nextSubID = c.nextSubID)
    (hlength : c'.subscriptions.length = c.subscriptions.length)
    (hopen : ∀ k topic,
      Open c'.subscriptions k topic ↔ Open c.subscriptions k topic)
    (hcalm : c'.panicked = c.panicked) : Mapped c' := by
  constructor
  · rw [hnext, hlength]
    exact hmapped.nextSubID
  · intro topic id subscription
    rw [hsubscribers, hopen]
    exact hmapped.lookup_iff topic id subscription
  · rw [hcalm]
    exact hmapped.calm

theorem Mapped.move (hmapped : Mapped c) (position : ℕ) (g : Goroutine)
    (stage : Stage) : Mapped (c.move position g stage) :=
  hmapped.of_open (fun _ => rfl) rfl rfl (fun _ _ => Iff.rfl) rfl

theorem Mapped.insertSub (hmapped : Mapped c) (topic : Bytes) :
    Mapped (c.insertSub topic) := by
  constructor
  · simp [Controller.insertSub, hmapped.nextSubID]
  · intro other id subscription
    have hsubs : (c.insertSub topic).topicSubs other =
        if other = topic then
          (c.topicSubs topic).insert c.nextSubID c.subscriptions.length
        else c.topicSubs other := topicSubs_insert c topic _ other
    have hopen : Open (c.insertSub topic).subscriptions id other ↔
        Open c.subscriptions id other ∨
          (id = c.subscriptions.length ∧ other = topic) := open_concat_iff
    rw [hsubs, hopen, hmapped.nextSubID]
    split_ifs with hother
    · subst hother
      by_cases hid : id = c.subscriptions.length
      · subst hid
        simp [eq_comm]
      · rw [Finmap.lookup_insert_of_ne _ hid, hmapped.lookup_iff]
        simp [hid]
    · rw [hmapped.lookup_iff]
      simp [hother]
  · exact hmapped.calm

/-- The send of `deliver` on one channel. -/
def sendOn (c : Controller channelBuffer) (delivery : ℕ) (event : Event)
    (subscription : ℕ) (sub : Subscription channelBuffer) : Send where
  number := c.sends.length
  subscription := subscription
  delivery := delivery
  event := cloneEvent event
  buffered := sub.channel.buffer.length

/-- A send on an open channel is put into the buffer if there is room. -/
theorem send_eq (c : Controller channelBuffer) (delivery : ℕ) (event : Event)
    {subscription : ℕ} {sub : Subscription channelBuffer}
    (hsub : c.subscriptions[subscription]? = some sub)
    (hopen : sub.channel.closed = false) :
    ∃ new : Subscription channelBuffer,
      new.topic = sub.topic ∧ new.channel.closed = false ∧
      new.received ++ new.channel.buffer =
        sub.received ++ sub.channel.buffer ++
          (if sub.channel.buffer.length < channelBuffer then
            [(c.sendOn delivery event subscription sub).copy] else []) ∧
      c.send delivery event subscription =
        { c with
          subscriptions := c.subscriptions.set subscription new
          sends := c.sends ++ [c.sendOn delivery event subscription sub] } := by
  unfold send
  rw [hsub]
  dsimp only
  generalize hresult : sub.channel.trySend _ = result
  cases result with
  | sent channel =>
      refine ⟨{ sub with channel := channel }, rfl,
        Channel.closed_of_trySend hresult, ?_, rfl⟩
      rw [if_pos (Channel.room_of_trySend hresult),
        Channel.buffer_of_trySend hresult, List.append_assoc]
      rfl
  | notReady =>
      have hfull := Channel.full_of_trySend hresult
      refine ⟨sub, rfl, hopen, ?_, ?_⟩
      · rw [if_neg (by omega), List.append_nil]
      · rw [set_eq_of_getElem? hsub]
        rfl
  | panicked =>
      rw [Channel.trySend_eq_panicked_iff, hopen] at hresult
      cases hresult

theorem Mapped.send (hmapped : Mapped c) {delivery : ℕ} {event : Event}
    {id subscription : ℕ}
    (hlookup : (c.topicSubs event.topic).lookup id = some subscription) :
    Mapped (c.send delivery event subscription) := by
  rcases (hmapped.lookup_iff _ _ _).mp hlookup with ⟨rfl, sub, hsub, -, hopen⟩
  rcases c.send_eq delivery event hsub hopen with
    ⟨new, htopic, hclosed, -, hsend⟩
  rw [hsend]
  refine hmapped.of_open (fun _ => rfl) rfl (by simp) ?_ rfl
  intro k topic
  exact open_set_iff hsub htopic (hclosed.trans hopen.symm)

theorem Mapped.receive (hmapped : Mapped c) (subscription : ℕ) :
    Mapped (c.receive subscription) := by
  rcases c.receive_cases subscription with
    hreceive | ⟨sub, copy, channel, hsub, hreceived, hreceive⟩
  · rw [hreceive]
    exact hmapped
  · rw [hreceive]
    refine hmapped.of_open (fun _ => rfl) rfl (by simp) ?_ rfl
    intro k topic
    exact open_set_iff hsub rfl (Channel.closed_of_receive? hreceived)

/-- `Close` finds the channel open, so it is closed once. -/
theorem Mapped.closeSub (hmapped : Mapped c) {topic : Bytes}
    {id subscription : ℕ}
    (hlookup : (c.topicSubs topic).lookup id = some subscription) :
    Mapped (c.closeSub topic id subscription) := by
  rcases (hmapped.lookup_iff _ _ _).mp hlookup with
    ⟨rfl, sub, hsub, htopic, hopen⟩
  have hclose : c.closeSub topic subscription subscription =
      { c with
        subscribers :=
          c.subscribers.insert topic ((c.topicSubs topic).erase subscription)
        subscriptions := c.subscriptions.set subscription
          { sub with channel := sub.channel.close } } := by
    simp [Controller.closeSub, hsub, hopen]
  have hsubs : ∀ other, (c.closeSub topic subscription subscription).topicSubs
      other = if other = topic then (c.topicSubs topic).erase subscription
        else c.topicSubs other := by
    rw [hclose]
    exact topicSubs_insert c topic _
  have hopens : ∀ id other,
      Open (c.closeSub topic subscription subscription).subscriptions id other ↔
        id ≠ subscription ∧ Open c.subscriptions id other := by
    rw [hclose]
    intro id other
    exact open_close_iff
  constructor
  · rw [hclose]
    simp [hmapped.nextSubID]
  · intro other id k
    rw [hsubs, hopens]
    split_ifs with hother
    · subst hother
      by_cases hid : id = subscription
      · subst hid
        simp
      · rw [Finmap.lookup_erase_ne hid, hmapped.lookup_iff]
        simp [hid]
    · rw [hmapped.lookup_iff]
      constructor
      · rintro ⟨hk, found, hfound, hfoundTopic, hfoundOpen⟩
        refine ⟨hk, ?_, found, hfound, hfoundTopic, hfoundOpen⟩
        intro hid
        subst hid
        rw [hsub, Option.some.injEq] at hfound
        subst hfound
        exact hother (hfoundTopic.symm.trans htopic)
      · rintro ⟨hk, -, hfound⟩
        exact ⟨hk, hfound⟩
  · rw [hclose]
    exact hmapped.calm

/-- Deleting a topic without entries leaves every topic's entries. -/
theorem Mapped.dropTopic (hmapped : Mapped c) {topic : Bytes}
    (hempty : c.subscribers.lookup topic = some ∅) :
    Mapped { c with subscribers := c.subscribers.erase topic } := by
  refine hmapped.of_open ?_ rfl rfl (fun _ _ => Iff.rfl) rfl
  intro other
  unfold topicSubs
  by_cases hother : other = topic
  · subst hother
    rw [Finmap.lookup_erase, hempty]
    rfl
  · rw [Finmap.lookup_erase_ne hother]

theorem effect_mapped (hmapped : Mapped c) (heffect : Effect codec c c') :
    Mapped c' := by
  cases heffect with
  | nothing => exact hmapped
  | called | begun | ended | started | marked | finished =>
      exact hmapped.of_open (fun _ => rfl) rfl rfl (fun _ _ => Iff.rfl) rfl
  | moved => exact hmapped.move _ _ _
  | inserted => exact (hmapped.insertSub _).move _ _ _
  | sent hg hstage hlookup => exact (hmapped.send hlookup).move _ _ _
  | closedSub hg hstage hlookup => exact hmapped.closeSub hlookup
  | dropped hg hstage hempty => exact hmapped.dropTopic hempty
  | received subscription => exact hmapped.receive subscription

/-! ### After the first `Close` -/

/-- Some `Close` has gone through the whole map. -/
def Finished (c : Controller channelBuffer) : Prop :=
  c.closeOnce = .done ∨
    ∃ g ∈ c.goroutines, g.stage = .cleared ∨ g.stage = .released

theorem Checked.closed_of_finished (hchecked : Checked codec c)
    (hfinished : Finished c) : c.closed = true := by
  rcases hfinished with hdone | ⟨g, hg, hstage⟩
  · exact hchecked.done hdone
  · have hfits := hchecked.fits g hg
    rcases hstage with hstage | hstage
    · rw [Fits, hstage] at hfits
      exact hfits.2
    · rw [Fits, hstage] at hfits
      exact hfits.2

theorem finished_of_set (hfinished : Finished c')
    (hgoroutines : c'.goroutines =
      c.goroutines.set position { g with stage := stage })
    (honce : c'.closeOnce = .done → Finished c)
    (hstage : stage = .cleared ∨ stage = .released → Finished c) :
    Finished c := by
  rcases hfinished with hdone | ⟨other, hother, hcleared⟩
  · exact honce hdone
  · rw [hgoroutines] at hother
    rcases List.mem_or_eq_of_mem_set hother with hmem | rfl
    · exact .inr ⟨other, hmem, hcleared⟩
    · exact hstage hcleared

theorem finished_of_sameCalls (hfinished : Finished c')
    (hsame : SameCalls c c') : Finished c := by
  rcases hfinished with hdone | ⟨g, hg, hstage⟩
  · rw [hsame.closeOnce] at hdone
    exact .inl hdone
  · rw [hsame.goroutines] at hg
    exact .inr ⟨g, hg, hstage⟩

theorem topicSubs_of_empty (hempty : c.subscribers = ∅) (topic : Bytes) :
    c.topicSubs topic = ∅ := by
  rw [topicSubs, hempty, Finmap.lookup_empty]
  rfl

/-- Once the map was emptied it stays empty. -/
theorem effect_emptied (hchecked : Checked codec c)
    (hemptied : Finished c → c.subscribers = ∅)
    (heffect : Effect codec c c') (hfinished : Finished c') :
    c'.subscribers = ∅ := by
  cases heffect with
  | nothing => exact hemptied hfinished
  | called call =>
      apply hemptied
      rcases hfinished with hdone | ⟨g, hg, hstage⟩
      · exact .inl hdone
      · rcases List.mem_append.mp hg with hold | hnew
        · exact .inr ⟨g, hold, hstage⟩
        · rw [List.mem_singleton.mp hnew] at hstage
          rcases hstage with hstage | hstage <;> cases hstage
  | @moved position g stage hg hmoves =>
      cases hmoves with
      | cleared _ hempty => exact hempty
      | releases hstage =>
          exact hemptied (.inr ⟨g, List.mem_of_getElem? hg, .inl hstage⟩)
      | _ =>
          exact hemptied (finished_of_set hfinished rfl .inl (by simp))
  | @inserted position g topic hg hstage =>
      have hbefore : Finished c := finished_of_set hfinished rfl .inl (by simp)
      have hclosed := hchecked.closed_of_finished hbefore
      have hfits := hchecked.fits g (List.mem_of_getElem? hg)
      rw [Fits, hstage, hclosed] at hfits
      cases hfits
  | begun | ended | marked =>
      exact hemptied (finished_of_set hfinished rfl .inl (by simp))
  | started => exact hemptied (finished_of_set hfinished rfl nofun (by simp))
  | @finished position g outcome hg hstage =>
      exact hemptied (.inr ⟨g, List.mem_of_getElem? hg, .inr hstage⟩)
  | @sent position g delivery event visited id subscription hg hstage hlookup =>
      have hsent := send_sameCalls c delivery event subscription
      have hbefore : Finished c := by
        apply finished_of_sameCalls _ hsent
        exact finished_of_set hfinished rfl .inl (by simp)
      rw [topicSubs_of_empty (hemptied hbefore), Finmap.lookup_empty] at hlookup
      cases hlookup
  | closedSub hg hstage hlookup =>
      have hbefore := finished_of_sameCalls hfinished (closeSub_sameCalls c _ _ _)
      rw [topicSubs_of_empty (hemptied hbefore), Finmap.lookup_empty] at hlookup
      cases hlookup
  | dropped hg hstage hempty =>
      have hbefore := finished_of_sameCalls hfinished ⟨rfl, rfl, rfl⟩
      rw [hemptied hbefore, Finmap.lookup_empty] at hempty
      cases hempty
  | received subscription =>
      have hbefore := finished_of_sameCalls hfinished
        (receive_sameCalls c subscription)
      rw [receive_subscribers]
      exact hemptied hbefore

/-! ### The channels that were returned -/

/-- The channel that a call of `Subscribe` returns. -/
def hands (g : Goroutine) : Option ℕ :=
  match g.stage with
  | .leaving (.channel subscription) => some subscription
  | .returned (.channel subscription) _ => some subscription
  | _ => none

theorem early_ne_channel {call : Call} {subscription : ℕ} :
    call.early codec ≠ some (.channel subscription) := by
  cases call with
  | subscribe | publish | handleMessage =>
      dsimp only [Call.early]
      split_ifs <;> simp
  | close => simp [Call.early]

theorem whenClosed_ne_channel {call : Call} {subscription : ℕ} :
    call.whenClosed ≠ .channel subscription := by
  cases call <;> simp [Call.whenClosed]

theorem afterDelivery_ne_channel {call : Call} {input : Input} {event : Event}
    {subscription : ℕ} :
    call.afterDelivery codec input event ≠ .channel subscription := by
  cases call with
  | publish =>
      dsimp only [Call.afterDelivery]
      split
      · simp
      · split <;> simp
  | _ => simp [Call.afterDelivery]

theorem hands_leaving {call : Call} {result : Result} {subscription : ℕ}
    (hhands : hands { call := call, stage := .leaving result } =
      some subscription) : result = .channel subscription := by
  cases result with
  | channel =>
      cases hhands
      rfl
  | _ => cases hhands

theorem hands_returned {call : Call} {result : Result} {afterClosed : Bool}
    {subscription : ℕ}
    (hhands : hands { call := call, stage := .returned result afterClosed } =
      some subscription) : result = .channel subscription := by
  cases result with
  | channel =>
      cases hhands
      rfl
  | _ => cases hhands

theorem elim_ne_channel {outcome : Option CoreError} {subscription : ℕ} :
    outcome.elim Result.ok .failed ≠ .channel subscription := by
  cases outcome <;> simp

theorem Moves.hands (hmoves : Moves codec c g stage) {subscription : ℕ}
    (hhands : hands { g with stage := stage } = some subscription) :
    Controller.hands g = some subscription := by
  cases hmoves with
  | refused _ hearly =>
      rw [hands_returned hhands] at hearly
      exact absurd hearly early_ne_channel
  | again => exact absurd (hands_returned hhands) elim_ne_channel
  | rejected => exact absurd (hands_leaving hhands) whenClosed_ne_channel
  | anonymous => cases hhands
  | ends => exact absurd (hands_leaving hhands) afterDelivery_ne_channel
  | returns hstage =>
      rw [hands_returned hhands] at hstage
      rw [Controller.hands, hstage]
  | asks | enters | admitted | inserting | ready | locks | clears | cleared
  | releases => cases hhands

/-- The channels that calls return or have returned are among those made. -/
def Handed (c : Controller channelBuffer) : Prop :=
  ∀ g ∈ c.goroutines, ∀ subscription, hands g = some subscription →
    subscription < c.subscriptions.length

theorem Handed.set (hhanded : Handed c)
    (hgoroutines : c'.goroutines =
      c.goroutines.set position { g with stage := stage })
    (hlength : c.subscriptions.length ≤ c'.subscriptions.length)
    (hnew : ∀ subscription, hands { g with stage := stage } = some subscription →
      subscription < c'.subscriptions.length) : Handed c' := by
  intro other hother subscription hhands
  rw [hgoroutines] at hother
  rcases List.mem_or_eq_of_mem_set hother with hmem | rfl
  · exact (hhanded other hmem subscription hhands).trans_le hlength
  · exact hnew subscription hhands

theorem Handed.of_eq (hhanded : Handed c)
    (hgoroutines : c'.goroutines = c.goroutines)
    (hlength : c'.subscriptions.length = c.subscriptions.length) :
    Handed c' := by
  unfold Handed
  rw [hgoroutines, hlength]
  exact hhanded

theorem send_length (c : Controller channelBuffer) (delivery : ℕ)
    (event : Event) (subscription : ℕ) :
    (c.send delivery event subscription).subscriptions.length =
      c.subscriptions.length := by
  rcases c.send_shape delivery event subscription with
    ⟨_, _, _, hlength, hsend⟩
  rw [hsend]
  exact hlength

theorem closeSub_length (c : Controller channelBuffer) (topic : Bytes)
    (id subscription : ℕ) :
    (c.closeSub topic id subscription).subscriptions.length =
      c.subscriptions.length := by
  rcases c.closeSub_cases topic id subscription with
    ⟨_, hclose⟩ | ⟨_, -, hclose⟩
  · rw [hclose]
  · rw [hclose, List.length_set]

theorem receive_length (c : Controller channelBuffer) (subscription : ℕ) :
    (c.receive subscription).subscriptions.length =
      c.subscriptions.length := by
  rcases c.receive_cases subscription with
    hreceive | ⟨_, _, _, -, -, hreceive⟩
  · rw [hreceive]
  · rw [hreceive, List.length_set]

theorem effect_handed (hhanded : Handed c) (heffect : Effect codec c c') :
    Handed c' := by
  cases heffect with
  | nothing => exact hhanded
  | called call =>
      intro g hg subscription hhands
      rcases List.mem_append.mp hg with hold | hnew
      · exact hhanded g hold subscription hhands
      · rw [List.mem_singleton.mp hnew] at hhands
        cases hhands
  | moved hg hmoves =>
      refine hhanded.set rfl le_rfl ?_
      intro subscription hhands
      exact hhanded _ (List.mem_of_getElem? hg) subscription (hmoves.hands hhands)
  | inserted hg hstage =>
      refine hhanded.set rfl (by simp [move, insertSub]) ?_
      intro subscription hhands
      cases hhands
      simp [move, insertSub]
  | begun | ended | started | marked =>
      refine hhanded.set rfl le_rfl ?_
      intro subscription hhands
      cases hhands
  | @sent position g delivery event visited id subscription hg hstage =>
      have hsent := hhanded.of_eq
        (send_sameCalls c delivery event subscription).goroutines
        (send_length c delivery event subscription)
      refine hsent.set rfl le_rfl ?_
      intro subscription hhands
      cases hhands
  | closedSub =>
      exact hhanded.of_eq (closeSub_sameCalls c _ _ _).goroutines
        (closeSub_length c _ _ _)
  | dropped => exact hhanded.of_eq rfl rfl
  | finished hg hstage =>
      refine hhanded.set rfl le_rfl ?_
      intro subscription hhands
      exact absurd (hands_returned hhands) elim_ne_channel
  | received subscription =>
      exact hhanded.of_eq (receive_sameCalls c subscription).goroutines
        (receive_length c subscription)

/-! ### All runs -/

structure Sound (codec : EventCodec) (c : Controller channelBuffer) :
    Prop where
  locked : Locked c
  checked : Checked codec c
  mapped : Mapped c
  handed : Handed c
  emptied : Finished c → c.subscribers = ∅

theorem sound_of_reachable
    (hreachable : (machine codec channelBuffer).Reachable c) :
    Sound codec c := by
  apply hreachable.invariant
  · rintro c rfl
    constructor
    · exact ⟨ReadWriteLock.exclusive_nil, ReadWriteLock.exclusive_nil⟩
    · constructor
      · intro g hg
        cases hg
      · intro hdone
        cases hdone
    · refine ⟨rfl, ?_, rfl⟩
      intro topic id subscription
      simp [topicSubs, Open]
    · intro g hg
      cases hg
    · intro _
      rfl
  · intro c action _ hsound _ _
    have heffect : Effect codec c _ := c.next_effect action
    exact ⟨effect_locked hsound.locked heffect,
      effect_checked hsound.locked hsound.checked heffect,
      effect_mapped hsound.mapped heffect, effect_handed hsound.handed heffect,
      effect_emptied hsound.checked hsound.emptied heffect⟩

theorem Mapped.closed_of_empty (hmapped : Mapped c)
    (hempty : c.subscribers = ∅) {subscription : ℕ}
    {sub : Subscription channelBuffer}
    (hsub : c.subscriptions[subscription]? = some sub) :
    sub.channel.closed = true := by
  by_contra hopen
  rw [Bool.not_eq_true] at hopen
  have hlookup := (hmapped.lookup_iff sub.topic subscription subscription).mpr
    ⟨rfl, sub, hsub, rfl, hopen⟩
  rw [topicSubs_of_empty hempty, Finmap.lookup_empty] at hlookup
  cases hlookup

theorem Checked.result_of_returned (hchecked : Checked codec c)
    (hg : g ∈ c.goroutines) {topic : Bytes} (htopic : topic ≠ [])
    (hcall : g.call = .subscribe topic ∨
      ∃ payload, g.call = .publish topic payload)
    {result : Result} (hstage : g.stage = .returned result true) :
    result = .failed errClosed := by
  have hfits := hchecked.fits g hg
  rw [Fits, hstage] at hfits
  rcases hcall with hcall | ⟨payload, hcall⟩
  · rw [hcall] at hfits
    simpa [Call.early, Call.whenClosed, htopic] using hfits
  · rw [hcall] at hfits
    simpa [Call.early, Call.whenClosed, htopic] using hfits

/-- In every state of every run: no send on a closed channel and no second
close has happened; a `Subscribe` or `Publish` with a topic that returned when
`closed` was set returned `ErrClosed`; and once the first `Close` has released
its locks, the map is empty and every channel that `Subscribe` returned is
closed. -/
theorem channels_close_once (codec : EventCodec)
    (hreachable : (machine codec channelBuffer).Reachable c) :
    c.panicked = false ∧
      (∀ g ∈ c.goroutines, ∀ topic result, topic ≠ [] →
        (g.call = .subscribe topic ∨
          ∃ payload, g.call = .publish topic payload) →
        g.stage = .returned result true → result = .failed errClosed) ∧
      ((c.closeOnce = .done ∨ ∃ g ∈ c.goroutines, g.stage = .released) →
        c.subscribers = ∅ ∧
          ∀ g ∈ c.goroutines, ∀ subscription afterClosed,
            g.stage = .returned (.channel subscription) afterClosed →
              ∃ sub, c.subscriptions[subscription]? = some sub ∧
                sub.channel.closed = true) := by
  have hsound := sound_of_reachable hreachable
  refine ⟨hsound.mapped.calm, ?_, ?_⟩
  · intro g hg topic result htopic hcall hstage
    exact hsound.checked.result_of_returned hg htopic hcall hstage
  · intro hreleased
    have hfinished : Finished c := by
      rcases hreleased with hdone | ⟨g, hg, hstage⟩
      · exact .inl hdone
      · exact .inr ⟨g, hg, .inr hstage⟩
    have hempty := hsound.emptied hfinished
    refine ⟨hempty, ?_⟩
    intro g hg subscription afterClosed hstage
    have hlt : subscription < c.subscriptions.length := by
      apply hsound.handed g hg
      rw [hands, hstage]
    refine ⟨c.subscriptions[subscription], List.getElem?_eq_getElem hlt, ?_⟩
    exact hsound.mapped.closed_of_empty hempty (List.getElem?_eq_getElem hlt)

/-! ### A sample bus -/

def sampleEvents : EventCodec where
  marshalEvent event := .ok event.topic
  unmarshalEvent data := .ok { topic := data, payload := some [7] }

/-- A call as goroutine `position`, and its steps. -/
def sampleCall (position : ℕ) (call : Call) (inputs : List Input) :
    List Action :=
  .call call :: inputs.map (Action.step position)

/-- `Close` with one subscriber to topic 1. -/
def sampleClose : List Input :=
  [{}, {}, {}, {}, { topic := [1], subscriber := some 0 }, { topic := [1] }, {},
    {}]

/-- A subscription, its end, and a second attempt. -/
def sampleLifecycle : Controller 1 :=
  (machine sampleEvents 1).replay {}
    (sampleCall 0 (.subscribe [1]) (List.replicate 6 {}) ++
      sampleCall 1 .close sampleClose ++
      sampleCall 2 (.subscribe [1]) (List.replicate 4 {}))

theorem channels_close_once_sample :
    sampleLifecycle.goroutines.map Goroutine.stage =
        [.returned (.channel 0) false, .released,
          .returned (.failed errClosed) true] ∧
      sampleLifecycle.panicked = false ∧ sampleLifecycle.subscribers = ∅ := by
  have hreachable : (machine sampleEvents 1).Reachable sampleLifecycle := by
    apply Machine.Run.replay (.start rfl)
    decide +kernel
  have hlifecycle := channels_close_once sampleEvents hreachable
  have hreleased : ∃ g ∈ sampleLifecycle.goroutines, g.stage = .released := by
    decide +kernel
  refine ⟨by decide +kernel, hlifecycle.1, ?_⟩
  exact (hlifecycle.2.2 (.inr hreleased)).1

def sampleUntitled : Controller 1 :=
  (machine sampleEvents 1).replay {}
    (sampleCall 0 .close (List.replicate 7 {}) ++
      sampleCall 1 (.subscribe []) [{}])

/-- Without a topic, `Subscribe` fails with another error when the controller
is closed. -/
theorem closed_subscribe_without_topic :
    (machine sampleEvents 1).Reachable sampleUntitled ∧
      sampleUntitled.closed = true ∧
      sampleUntitled.goroutines.map Goroutine.stage =
        [.returned .ok true, .returned (.failed errInvalidTopic) true] ∧
      errInvalidTopic ≠ errClosed := by
  refine ⟨?_, by decide +kernel, by decide +kernel, by decide⟩
  apply Machine.Run.replay (.start rfl)
  decide +kernel

end Controller

end GoP2P.ContentBus
