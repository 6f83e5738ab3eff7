import GoP2P.TransportAdmission
import GoP2P.Runs

/-!
# Keepalive

Each connection has a goroutine that looks at the connection's activity at every
tick and then sends a ping.  The activity it looks at is written by the read loop
and by every send, its own pings included: a peer that has stopped sending is
noticed only while nothing is sent to it either.
-/

namespace GoP2P.Node

/-- The durations of the transport's configuration that `keepalive` reads. -/
structure KeepaliveConfig where
  pingInterval : ℤ := 30 * nanosecondsPerSecond
  pongTimeout : ℤ := 10 * nanosecondsPerSecond
  deriving DecidableEq, Repr

namespace Transport

variable (crypto : NodePrimitives) (codec : Codec)

/-! ### The loop -/

/-- `Close`, which does its work once. -/
def removeConnection (t : Transport) (now : Time) (connection : ℕ) :
    Transport :=
  match t.connections[connection]? with
  | none => t
  | some pc => if pc.closed then t else t.dropConnection now connection

/-- Between two ticks, between the check and the ping, or after the loop. -/
inductive KeepaliveStage where
  | waiting
  | pinging
  | ended
  | panicked
  deriving DecidableEq, Repr

structure PingInput where
  messageID : Bytes
  now : Time
  payload : Except CoreError Bytes
  send : SendInput

structure KeepaliveResult where
  transport : Transport
  stage : KeepaliveStage
  sent : Bool := false

/-- A tick, up to the ping. -/
def keepaliveTick (config : KeepaliveConfig) (t : Transport) (connection : ℕ)
    (now : Time) : KeepaliveResult :=
  match t.connections[connection]? with
  | none => { transport := t, stage := .panicked }
  | some pc =>
      if now - pc.lastActivity > config.pingInterval + config.pongTimeout then
        { transport := t.removeConnection now connection, stage := .ended }
      else
        { transport := t, stage := .pinging }

/-- After the ping has been passed to `Send`: a failure ends the loop. -/
def pinged (connection : ℕ) (now : Time) (sent : SendResult) :
    KeepaliveResult :=
  match sent.result with
  | .returned _ =>
      { transport := sent.transport, stage := .waiting, sent := true }
  | .failed _ =>
      { transport := sent.transport.removeConnection now connection
        stage := .ended }
  | .panicked => { transport := sent.transport, stage := .panicked }
  | .unfinished => { transport := sent.transport, stage := .pinging }

/-- The rest of a tick; a ping that cannot be built is skipped. -/
def keepalivePing (t : Transport) (connection : ℕ) (input : PingInput) :
    KeepaliveResult :=
  match t.node.identity, t.connections[connection]? with
  | some identity, some pc =>
      match newMessage input.messageID input.now .ping identity.id pc.peer.id
          input.payload with
      | .returned pingMsg =>
          pinged connection input.send.now
            (t.send crypto codec connection pingMsg input.send)
      | _ => { transport := t, stage := .waiting }
  | _, _ => { transport := t, stage := .panicked }

/-! ### Runs -/

/-- A connection with its loop.  `lastReceived` and `lastSent` are ghost: when
the last frame was read from the peer and when the last message was sent to it,
or when the connection was made. -/
structure Keepalive where
  transport : Transport
  stage : KeepaliveStage := .waiting
  clock : Time
  nextTick : Time
  lastReceived : Time
  lastSent : Time

/-- Besides the loop, the read loop and every sender use the connection. -/
inductive KeepaliveAction where
  | tick
  | ping (input : PingInput)
  | read (now : Time) (frame : Except CoreError Bytes)
  | send (msg : Message) (input : SendInput)

def activity (t : Transport) (connection : ℕ) : Option Time :=
  t.connections[connection]?.map (·.lastActivity)

def receives (t : Transport) (connection : ℕ)
    (frame : Except CoreError Bytes) : Bool :=
  match t.connections[connection]?, readMessage t.readLimit frame with
  | some pc, .returned _ => !pc.closed
  | _, _ => false

namespace Keepalive

def next (config : KeepaliveConfig) (connection : ℕ) (s : Keepalive) :
    KeepaliveAction → Keepalive
  | .tick =>
      let ticked := keepaliveTick config s.transport connection s.nextTick
      { s with
        transport := ticked.transport
        stage := ticked.stage
        clock := s.nextTick
        nextTick := s.nextTick + config.pingInterval }
  | .ping input =>
      let pinged := s.transport.keepalivePing crypto codec connection input
      { s with
        transport := pinged.transport
        stage := pinged.stage
        clock := input.send.now
        lastSent := if pinged.sent then input.send.now else s.lastSent }
  | .read now frame =>
      { s with
        transport :=
          (s.transport.readLoopTurn crypto codec connection now frame).transport
        clock := now
        lastReceived :=
          if s.transport.receives connection frame then now
          else s.lastReceived }
  | .send msg input =>
      let sent := s.transport.send crypto codec connection msg input
      { s with
        transport := sent.transport
        clock := input.now
        lastSent :=
          if sent.result = .returned () then input.now else s.lastSent }

/-- The clock does not go back; the loop ticks when a tick is due. -/
def Enabled (s : Keepalive) : KeepaliveAction → Prop
  | .tick => s.stage = .waiting ∧ s.clock ≤ s.nextTick
  | .ping input => s.stage = .pinging ∧ s.clock ≤ input.send.now
  | .read now _ => s.clock ≤ now
  | .send _ input => s.clock ≤ input.now

/-- The connection has just been made. -/
structure Starts (config : KeepaliveConfig) (connection : ℕ) (s : Keepalive) :
    Prop where
  stage : s.stage = .waiting
  nextTick : s.nextTick = s.clock + config.pingInterval
  lastReceived : s.lastReceived = s.clock
  lastSent : s.lastSent = s.clock
  activity : s.transport.activity connection = some s.clock

def machine (config : KeepaliveConfig) (connection : ℕ) :
    Machine Keepalive KeepaliveAction where
  initial := Starts config connection
  enabled := Enabled
  next := next crypto codec config connection

/-- Every ping is built and sent. -/
def PingsSent (connection : ℕ) (s : Keepalive) (action : KeepaliveAction) :
    Prop :=
  ∀ input, action = .ping input →
    (s.transport.keepalivePing crypto codec connection input).sent = true

/-- The loop has ended and the connection is closed. -/
def Removed (connection : ℕ) (s : Keepalive) : Prop :=
  s.stage = .ended ∧
    ∃ pc, s.transport.connections[connection]? = some pc ∧ pc.closed = true

end Keepalive

/-! ### Who writes the activity -/

variable {crypto codec} {config : KeepaliveConfig} {connection : ℕ}

theorem activity_setConnection {t : Transport} {pc : PeerConnection}
    (hpc : t.connections[connection]? = some pc) (pc' : PeerConnection) :
    (t.setConnection connection pc').activity connection =
      some pc'.lastActivity := by
  have hlt := (List.getElem?_eq_some_iff.mp hpc).1
  simp [activity, setConnection, List.getElem?_set_self hlt]

theorem activity_eq_some {t : Transport} {pc : PeerConnection}
    (hpc : t.connections[connection]? = some pc) :
    t.activity connection = some pc.lastActivity := by
  rw [activity, hpc, Option.map_some]

theorem dropConnection_getElem? {t : Transport} {pc : PeerConnection}
    (hpc : t.connections[connection]? = some pc) (now : Time) :
    (t.dropConnection now connection).connections[connection]? =
      some { pc with closed := true } := by
  have hlt := (List.getElem?_eq_some_iff.mp hpc).1
  rw [dropConnection, hpc]
  exact List.getElem?_set_self hlt

theorem removeConnection_getElem? {t : Transport} {pc : PeerConnection}
    (hpc : t.connections[connection]? = some pc) (now : Time) :
    (t.removeConnection now connection).connections[connection]? =
      some { pc with closed := true } := by
  rw [removeConnection, hpc]
  dsimp only
  split
  · next hclosed =>
      rw [hpc, ← hclosed]
  · exact dropConnection_getElem? hpc now

theorem activity_removeConnection (t : Transport) (now : Time) :
    (t.removeConnection now connection).activity connection =
      t.activity connection := by
  cases hpc : t.connections[connection]? with
  | none => rw [removeConnection, hpc]
  | some pc =>
      rw [activity_eq_some (removeConnection_getElem? hpc now),
        activity_eq_some hpc]

variable (crypto codec) in
theorem send_cases {t : Transport} {pc : PeerConnection}
    (hpc : t.connections[connection]? = some pc) (msg : Message)
    (input : SendInput) :
    ((t.send crypto codec connection msg input).result = .returned () ∧
      (t.send crypto codec connection msg input).transport =
        t.setConnection connection (pc.markActivity input.now)) ∨
    ((t.send crypto codec connection msg input).result ≠ .returned () ∧
      (t.send crypto codec connection msg input).transport = t) := by
  unfold send
  rw [hpc]
  dsimp only
  split
  · split
    · exact .inl ⟨rfl, rfl⟩
    · next hother => exact .inr ⟨hother (), rfl⟩
  all_goals exact .inr ⟨by simp, rfl⟩

/-- A send is an activity if it succeeds. -/
theorem activity_send {t : Transport} {last : Time}
    (hlast : t.activity connection = some last) (msg : Message)
    (input : SendInput) :
    (t.send crypto codec connection msg input).transport.activity connection =
      some (if (t.send crypto codec connection msg input).result =
        .returned () then input.now else last) := by
  obtain ⟨pc, hpc, rfl⟩ := Option.map_eq_some_iff.mp hlast
  rcases send_cases crypto codec hpc msg input with
    ⟨hsent, htransport⟩ | ⟨hnot, htransport⟩
  · rw [htransport, if_pos hsent]
    exact activity_setConnection hpc _
  · rw [htransport, if_neg hnot]
    exact hlast

@[simp] theorem dispatch_activity (t : Transport) (now : Time)
    (msg : Message) :
    (t.dispatch now msg).transport.activity connection =
      t.activity connection := by
  unfold dispatch
  dsimp only
  split <;> rfl

@[simp] theorem allow_lastActivity (pc : PeerConnection) (now : Time) :
    (pc.allow now).2.lastActivity = pc.lastActivity := by
  unfold PeerConnection.allow
  split <;> rfl

/-- A frame is an activity when it is read, whatever becomes of it. -/
theorem activity_readLoopTurn {t : Transport} {last : Time}
    (hlast : t.activity connection = some last) (now : Time)
    (frame : Except CoreError Bytes) :
    (t.readLoopTurn crypto codec connection now frame).transport.activity
        connection =
      some (if t.receives connection frame then now else last) := by
  obtain ⟨pc, hpc, rfl⟩ := Option.map_eq_some_iff.mp hlast
  unfold readLoopTurn receives
  rw [hpc]
  dsimp only
  by_cases hclosed : pc.closed = true
  · rw [if_pos hclosed, hlast]
    cases readMessage t.readLimit frame <;> simp [hclosed]
  · rw [if_neg hclosed]
    have hdropped := activity_eq_some (dropConnection_getElem? hpc now)
    cases readMessage t.readLimit frame with
    | returned data =>
        have hmarked : (t.setConnection connection
            ((pc.markActivity now).allow now).2).activity connection =
              some now := by
          rw [activity_setConnection hpc, allow_lastActivity]
          rfl
        simp only [hclosed, Bool.not_false, if_true]
        split
        · exact hmarked
        · split
          · rw [dispatch_activity]
            exact hmarked
          · exact hmarked
    | failed | panicked | unfinished => simpa using hdropped

theorem pinged_activity (now : Time) (sent : SendResult) :
    (pinged connection now sent).transport.activity connection =
      sent.transport.activity connection := by
  unfold pinged
  split
  case h_2 => exact activity_removeConnection _ _
  all_goals rfl

theorem pinged_sent_iff (now : Time) (sent : SendResult) :
    (pinged connection now sent).sent = true ↔ sent.result = .returned () := by
  unfold pinged
  split <;> simp_all

variable (crypto codec) in
theorem keepalivePing_cases (t : Transport) (input : PingInput) :
    (∃ pingMsg, t.keepalivePing crypto codec connection input =
      pinged connection input.send.now
        (t.send crypto codec connection pingMsg input.send)) ∨
    ((t.keepalivePing crypto codec connection input).transport = t ∧
      (t.keepalivePing crypto codec connection input).sent = false) := by
  unfold keepalivePing
  cases t.node.identity with
  | none => exact .inr ⟨rfl, rfl⟩
  | some identity =>
      cases t.connections[connection]? with
      | none => exact .inr ⟨rfl, rfl⟩
      | some pc =>
          dsimp only
          split
          · exact .inl ⟨_, rfl⟩
          · exact .inr ⟨rfl, rfl⟩

/-- The loop's own ping counts as well. -/
theorem activity_keepalivePing {t : Transport} {last : Time}
    (hlast : t.activity connection = some last) (input : PingInput) :
    (t.keepalivePing crypto codec connection input).transport.activity
        connection =
      some (if (t.keepalivePing crypto codec connection input).sent then
        input.send.now else last) := by
  rcases t.keepalivePing_cases crypto codec input with
    ⟨pingMsg, hpinged⟩ | ⟨htransport, hnot⟩
  · rw [hpinged, pinged_activity, activity_send hlast]
    simp only [pinged_sent_iff]
  · rw [htransport, hnot]
    exact hlast

/-! ### The check -/

namespace Keepalive

/-- The activity is the later one of the two ghost times. -/
structure Tracks (connection : ℕ) (s : Keepalive) : Prop where
  activity : s.transport.activity connection =
    some (max s.lastReceived s.lastSent)
  received : s.lastReceived ≤ s.clock
  sent : s.lastSent ≤ s.clock

theorem Starts.tracks {s : Keepalive} (hstarts : s.Starts config connection) :
    s.Tracks connection := by
  constructor
  · rw [hstarts.lastReceived, hstarts.lastSent, max_self]
    exact hstarts.activity
  · exact hstarts.lastReceived.le
  · exact hstarts.lastSent.le

theorem keepaliveTick_activity (t : Transport) (now : Time) :
    (keepaliveTick config t connection now).transport.activity connection =
      t.activity connection := by
  unfold keepaliveTick
  split
  · rfl
  · split
    · exact activity_removeConnection t now
    · rfl

/-- The later of two times when one of them may have been set to `now`. -/
theorem max_ite_now {p : Prop} [Decidable p] {other now : Time}
    (hother : other ≤ now) (last : Time) :
    max other (if p then now else last) =
      if p then now else max other last := by
  split
  · exact max_eq_right hother
  · rfl

theorem ite_now_le {p : Prop} [Decidable p] {last now : Time}
    (hlast : last ≤ now) : (if p then now else last) ≤ now := by
  split
  · exact le_rfl
  · exact hlast

theorem Tracks.next {s : Keepalive} (htracks : s.Tracks connection)
    {action : KeepaliveAction} (henabled : s.Enabled action) :
    (s.next crypto codec config connection action).Tracks connection := by
  obtain ⟨hactivity, hreceived, hsent⟩ := htracks
  cases action with
  | tick =>
      refine ⟨?_, hreceived.trans henabled.2, hsent.trans henabled.2⟩
      exact (keepaliveTick_activity _ _).trans hactivity
  | ping input =>
      have hbefore := hreceived.trans henabled.2
      refine ⟨?_, hbefore, ite_now_le (hsent.trans henabled.2)⟩
      exact (activity_keepalivePing hactivity input).trans
        (congrArg some (max_ite_now hbefore _).symm)
  | read now frame =>
      have hbefore := hsent.trans henabled
      refine ⟨?_, ite_now_le (hreceived.trans henabled), hbefore⟩
      refine (activity_readLoopTurn hactivity now frame).trans ?_
      rw [max_comm]
      exact congrArg some
        ((max_comm _ _).trans (max_ite_now hbefore _)).symm
  | send msg input =>
      have hbefore := hreceived.trans henabled
      refine ⟨?_, hbefore, ite_now_le (hsent.trans henabled)⟩
      exact (activity_send hactivity msg input).trans
        (congrArg some (max_ite_now hbefore _).symm)

theorem tracks_of_run {allowed : Keepalive → KeepaliveAction → Prop}
    {s : Keepalive}
    (hrun : (machine crypto codec config connection).Run allowed s) :
    s.Tracks connection := by
  apply hrun.invariant
  · intro start hstarts
    exact Starts.tracks hstarts
  · intro before action _ htracks henabled _
    exact htracks.next henabled

variable (crypto codec) in
/-- The loop removes the connection when the activity is too old, and pings
otherwise. -/
theorem Tracks.tick_cases {s : Keepalive} (htracks : s.Tracks connection) :
    (config.pingInterval + config.pongTimeout <
        s.nextTick - max s.lastReceived s.lastSent ∧
      (s.next crypto codec config connection .tick).Removed connection) ∨
    (s.nextTick - max s.lastReceived s.lastSent ≤
        config.pingInterval + config.pongTimeout ∧
      (s.next crypto codec config connection .tick).stage = .pinging) := by
  obtain ⟨pc, hpc, hlast⟩ := Option.map_eq_some_iff.mp htracks.activity
  by_cases hold : config.pingInterval + config.pongTimeout <
      s.nextTick - max s.lastReceived s.lastSent
  · have hticked : keepaliveTick config s.transport connection s.nextTick =
        { transport := s.transport.removeConnection s.nextTick connection
          stage := .ended } := by
      rw [keepaliveTick, hpc]
      exact if_pos (hlast ▸ hold)
    refine .inl ⟨hold, congrArg KeepaliveResult.stage hticked,
      { pc with closed := true }, ?_, rfl⟩
    change (keepaliveTick config s.transport connection
      s.nextTick).transport.connections[connection]? = _
    rw [hticked]
    exact removeConnection_getElem? hpc s.nextTick
  · have hticked : keepaliveTick config s.transport connection s.nextTick =
        { transport := s.transport, stage := .pinging } := by
      rw [keepaliveTick, hpc]
      exact if_neg (hlast ▸ hold)
    exact .inr ⟨not_lt.mp hold, congrArg KeepaliveResult.stage hticked⟩

theorem Tracks.removed_iff {s : Keepalive} (htracks : s.Tracks connection) :
    (s.next crypto codec config connection .tick).Removed connection ↔
      config.pingInterval + config.pongTimeout <
        s.nextTick - max s.lastReceived s.lastSent := by
  rcases htracks.tick_cases crypto codec with
    ⟨hold, hremoved⟩ | ⟨hrecent, hstage⟩
  · exact iff_of_true hremoved hold
  · refine iff_of_false ?_ (not_lt.mpr hrecent)
    rintro ⟨hended, -⟩
    rw [hstage] at hended
    cases hended

/-! ### Pings keep the activity recent -/

/-- Since the last tick, something has been sent. -/
structure Recent (config : KeepaliveConfig) (s : Keepalive) : Prop where
  clock : s.nextTick - config.pingInterval ≤ s.clock
  waiting : s.stage = .waiting →
    s.nextTick - config.pingInterval ≤ max s.lastReceived s.lastSent

theorem Starts.recent {s : Keepalive} (hstarts : s.Starts config connection) :
    s.Recent config := by
  have htick := hstarts.nextTick
  constructor
  · linarith
  · intro _
    rw [hstarts.lastReceived, hstarts.lastSent, max_self]
    linarith

theorem keepaliveTick_stage_ne_waiting (t : Transport) (now : Time) :
    (keepaliveTick config t connection now).stage ≠ .waiting := by
  unfold keepaliveTick
  split
  · simp
  · split <;> simp

theorem le_ite_now {p : Prop} [Decidable p] {last now : Time}
    (hlast : last ≤ now) : last ≤ if p then now else last := by
  split
  · exact hlast
  · exact le_rfl

theorem Recent.next {s : Keepalive} (hrecent : s.Recent config)
    (htracks : s.Tracks connection) {action : KeepaliveAction}
    (henabled : s.Enabled action)
    (hsent : PingsSent crypto codec connection s action) :
    (s.next crypto codec config connection action).Recent config := by
  obtain ⟨hclock, hwaiting⟩ := hrecent
  cases action with
  | tick =>
      constructor
      · exact (add_sub_cancel_right _ _).le
      · intro hstage
        exact absurd hstage (keepaliveTick_stage_ne_waiting _ _)
  | ping input =>
      have hlater := hclock.trans henabled.2
      refine ⟨hlater, fun _ => hlater.trans ?_⟩
      have hlast : (s.next crypto codec config connection
          (.ping input)).lastSent = input.send.now := if_pos (hsent input rfl)
      exact hlast.ge.trans (le_max_right _ _)
  | read now frame =>
      refine ⟨hclock.trans henabled, fun hstage => (hwaiting hstage).trans ?_⟩
      exact max_le_max (le_ite_now (htracks.received.trans henabled)) le_rfl
  | send msg input =>
      refine ⟨hclock.trans henabled, fun hstage => (hwaiting hstage).trans ?_⟩
      exact max_le_max le_rfl (le_ite_now (htracks.sent.trans henabled))

theorem recent_of_run {s : Keepalive}
    (hrun : (machine crypto codec config connection).Run
      (PingsSent crypto codec connection) s) :
    s.Recent config := by
  apply hrun.invariant
  · intro start hstarts
    exact Starts.recent hstarts
  · intro before action hbefore hrecent henabled hsent
    exact hrecent.next (tracks_of_run hbefore) henabled hsent

/-- At a tick of a loop whose peer has been silent for too long, the connection
is removed exactly if nothing has been sent on it for as long; so it is never
removed while the pings are sent. -/
theorem keepalive_removes_silent_iff (htimeout : 0 ≤ config.pongTimeout)
    {s : Keepalive}
    (hrun : (machine crypto codec config connection).Reachable s)
    (henabled : s.Enabled .tick)
    (hsilent : config.pingInterval + config.pongTimeout <
      s.nextTick - s.lastReceived) :
    ((s.next crypto codec config connection .tick).Removed connection ↔
      config.pingInterval + config.pongTimeout < s.nextTick - s.lastSent) ∧
    ((machine crypto codec config connection).Run
        (PingsSent crypto codec connection) s →
      ¬ (s.next crypto codec config connection .tick).Removed connection) := by
  rw [(tracks_of_run hrun).removed_iff]
  constructor
  · rcases max_choice s.lastReceived s.lastSent with hmax | hmax
    · have hle := hmax ▸ le_max_right s.lastReceived s.lastSent
      rw [hmax]
      exact iff_of_true hsilent (by linarith)
    · rw [hmax]
  · intro hsent
    have hrecent := (recent_of_run hsent).waiting henabled.1
    linarith

/-! ### A silent peer -/

def sampleLink : Keepalive where
  transport :=
    { newTransport (sampleNode 1) {} {} with
      connections :=
        [{ peer := { id := [2] }, sharedSecret := List.replicate 32 0,
           lastActivity := 0, rateLimiter := none }] }
  clock := 0
  nextTick := 2
  lastReceived := 0
  lastSent := 0

def samplePingCodec : Codec :=
  .ofTables [] []
    [([5], { id := [5], type := .ping, fromNode := [1], toNode := [2],
             timestamp := 2, payload := some [6] })]

def samplePingInput (payload : Except CoreError Bytes) : PingInput where
  messageID := [5]
  now := 2
  payload := payload
  send := { nonce := .ok (List.Vector.replicate aeadNonceSize 0), now := 2 }

abbrev sampleLoop : Machine Keepalive KeepaliveAction :=
  machine samplePrimitives samplePingCodec
    { pingInterval := 2, pongTimeout := 1 } 0

theorem sampleLink_starts : sampleLink.Starts
    { pingInterval := 2, pongTimeout := 1 } 0 :=
  ⟨rfl, rfl, rfl, rfl, rfl⟩

/-- The tick at 2 cannot build its ping; at the tick at 4 nothing has been
received or sent for more than 3. -/
theorem keepalive_removes_unpinged :
    (sampleLoop.replay sampleLink
      [.tick, .ping (samplePingInput (.error (.plain []))), .tick]).Removed
        0 := by
  have hrun : sampleLoop.Reachable (sampleLoop.replay sampleLink
      [.tick, .ping (samplePingInput (.error (.plain [])))]) := by
    apply (Machine.Run.start sampleLink_starts).replay
    refine ⟨⟨rfl, by decide⟩, trivial, ⟨rfl, by decide⟩, trivial, trivial⟩
  exact (keepalive_removes_silent_iff (by decide) hrun ⟨rfl, by decide⟩
    (by decide)).1.mpr (by decide)

/-- The ping of the tick at 2 is sent; the tick at 4 does not remove the
connection, on which nothing has ever been received. -/
theorem keepalive_keeps_silent :
    ∃ s, sampleLoop.Run (PingsSent samplePrimitives samplePingCodec 0) s ∧
      s.Enabled .tick ∧ 2 + 1 < s.nextTick - s.lastReceived ∧
      ¬ (sampleLoop.next s .tick).Removed 0 := by
  refine ⟨sampleLoop.replay sampleLink
    [.tick, .ping (samplePingInput (.ok [6]))], ?_, ⟨rfl, by decide⟩,
    by decide, ?_⟩
  · apply (Machine.Run.start sampleLink_starts).replay
    refine ⟨⟨rfl, by decide⟩, ?_, ⟨rfl, by decide⟩, ?_, trivial⟩
    · intro input hinput
      cases hinput
    · intro input hinput
      cases hinput
      rfl
  · rintro ⟨hstage, -⟩
    cases hstage

end Keepalive

end Transport

end GoP2P.Node
