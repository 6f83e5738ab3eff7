import GoP2P.ConnectionBinding

/-!
# The connection limit

`handleWSUpgrade` reads the number of stored connections, then the number of
pending ones, and counts itself as pending only after it has compared their
sum with `MaxConns`.  The comparison is good for as long as nothing moves
between the two numbers or into them: no other call may start or leave its
handshake between those steps, and when the stored connections are counted,
each open connection has to be among them.
-/

namespace GoP2P.Node

/-- The WebSocket is open and the handshake is not finished. -/
def UpgradeStage.inHandshake : UpgradeStage → Bool
  | .handshaking | .presented | .screened | .authorised | .unregistered
  | .named | .acknowledged => true
  | _ => false

/-- The call is counted in `pendingConns`. -/
def UpgradeStage.pending : UpgradeStage → Bool
  | .stored | .leaving => true
  | stage => stage.inHandshake

namespace Transport

variable {crypto : NodePrimitives} {codec : Codec}

/-- What a step of an inbound call means for the limit: the counter follows
the stage, a WebSocket is opened only by an admitted call, and the check is
what it was read from. -/
structure LimitFacts (t : Transport) (call : UpgradeCall)
    (result : Transport × UpgradeCall) : Prop where
  counter : result.1.pendingConns + call.stage.pending.toNat =
    t.pendingConns + result.2.stage.pending.toNat
  keepsPending : call.stage ≠ .leaving →
    call.stage.pending.toNat ≤ result.2.stage.pending.toNat
  opens : result.2.stage.inHandshake.toNat +
      result.1.connections.countP (!·.closed) ≤
    call.stage.inHandshake.toNat + t.connections.countP (!·.closed) +
      (decide (call.stage = .admitted)).toNat
  counted : result.2.stage = .counted →
    call.stage = .arrived ∧ result.2.currentConns = t.conns.keys.card
  admitted : result.2.stage = .admitted →
    call.stage = .counted ∧
      (call.currentConns : ℤ) + t.pendingConns < t.config.maxConns

theorem advanceUpgrade_limitFacts (t : Transport) (call : UpgradeCall)
    (input : UpgradeInput) :
    LimitFacts t call (t.advanceUpgrade crypto codec call input) := by
  unfold advanceUpgrade
  cases h : call.stage with
  | counted =>
      dsimp only
      split
      · constructor <;> simp [h, UpgradeStage.pending, UpgradeStage.inHandshake]
      next hroom =>
        constructor <;>
          simp [h, UpgradeStage.pending, UpgradeStage.inHandshake]
        exact lt_of_not_ge hroom
  | handshaking | authorised | named =>
      dsimp only
      split
      all_goals
        constructor <;>
          simp [h, UpgradeStage.pending, UpgradeStage.inHandshake]
  | screened =>
      dsimp only
      split
      · constructor <;>
          simp [h, UpgradeStage.pending, UpgradeStage.inHandshake]
      · split
        all_goals
          constructor <;>
            simp [h, UpgradeStage.pending, UpgradeStage.inHandshake]
  | returned => constructor <;> simp [h]
  | acknowledged =>
      constructor <;>
        simp [h, addConnection, newConnection, UpgradeStage.pending,
          UpgradeStage.inHandshake, add_comm]
  | _ =>
      constructor <;>
        simp [h, UpgradeStage.pending, UpgradeStage.inHandshake, add_comm]

end Transport

namespace TransportCalls

def inHandshake (s : TransportCalls) : ℕ :=
  s.upgrades.countP (·.stage.inHandshake)

def openConnections (s : TransportCalls) : ℕ :=
  s.transport.connections.countP (!·.closed)

/-- The inbound WebSockets that are open or in handshake. -/
def load (s : TransportCalls) : ℕ := s.inHandshake + s.openConnections

/-- Every open connection is the one stored under its peer's ID: none was
replaced, and none is on its way from the map to its socket's close. -/
def OpenAreStored (s : TransportCalls) : Prop :=
  ∀ ⦃n : ℕ⦄ ⦃pc : PeerConnection⦄, s.transport.connections[n]? = some pc →
    pc.closed = false → s.transport.conns.lookup pc.peer.id = some n

/-- No call but the one at `position` stands at one of the stages. -/
def NoOtherAt (s : TransportCalls) (position : ℕ)
    (stages : List UpgradeStage) : Prop :=
  ∀ ⦃other : ℕ⦄ ⦃call : UpgradeCall⦄, s.upgrades[other]? = some call →
    other ≠ position → call.stage ∉ stages

instance (s : TransportCalls) : Decidable s.OpenAreStored :=
  decidable_of_iff
    (∀ n, (hn : n < s.transport.connections.length) →
      s.transport.connections[n].closed = false →
        s.transport.conns.lookup s.transport.connections[n].peer.id = some n)
    ⟨fun hall n pc hpc hopen => by
      rcases List.getElem?_eq_some_iff.mp hpc with ⟨hn, rfl⟩
      exact hall n hn hopen,
    fun hall n hn hopen => hall (List.getElem?_eq_getElem hn) hopen⟩

instance (s : TransportCalls) (position : ℕ) (stages : List UpgradeStage) :
    Decidable (s.NoOtherAt position stages) :=
  decidable_of_iff
    (∀ other, (hother : other < s.upgrades.length) → other ≠ position →
      s.upgrades[other].stage ∉ stages)
    ⟨fun hall other call hcall hne => by
      rcases List.getElem?_eq_some_iff.mp hcall with ⟨hother, rfl⟩
      exact hall other hother hne,
    fun hall other hother hne => hall (List.getElem?_eq_getElem hother) hne⟩

/-- The step does not disturb the limit check of another call: the stored
connections are counted when they are all there are, and `pendingConns` does
not change between a call's reading of the two numbers and its own increment. -/
def ChecksUndisturbed (s : TransportCalls) : TransportAction → Prop
  | .upgrade position _ =>
      match s.upgrades[position]? with
      | none => True
      | some call =>
          (call.stage = .arrived → s.OpenAreStored) ∧
          (call.stage = .admitted →
            s.NoOtherAt position [.counted, .admitted]) ∧
          (call.stage = .leaving → s.NoOtherAt position [.counted])
  | _ => True

instance (s : TransportCalls) : DecidablePred s.ChecksUndisturbed
  | .upgrade position _ => by
      dsimp only [ChecksUndisturbed]
      match s.upgrades[position]? with
      | none => exact .isTrue trivial
      | some call => dsimp only; infer_instance
  | .arrive | .dial _ _ _ _ | .connect _ _ | .requestClose _ | .close _ _
  | .announce _ _ _ | .finishAnnounce _ | .operate _ => .isTrue trivial

/-- Every action but an outbound `Connect`. -/
def Inbound : TransportAction → Bool
  | .dial _ _ _ _ => false
  | _ => true

structure Limited (s : TransportCalls) : Prop where
  connects : s.connects = []
  pending : s.transport.pendingConns = s.upgrades.countP (·.stage.pending)
  counted : ∀ ⦃position : ℕ⦄ ⦃call : UpgradeCall⦄,
    s.upgrades[position]? = some call → call.stage = .counted →
      s.load ≤ call.currentConns + s.upgrades.countP (·.stage.pending)
  admitted : ∀ ⦃position : ℕ⦄ ⦃call : UpgradeCall⦄,
    s.upgrades[position]? = some call → call.stage = .admitted →
      (s.load : ℤ) < s.transport.config.maxConns
  load : s.load ≤ s.transport.config.maxConns.toNat

theorem openConnections_le_card {s : TransportCalls}
    (hstored : s.OpenAreStored) :
    s.openConnections ≤ s.transport.conns.keys.card := by
  unfold openConnections
  rw [List.countP_eq_length_filter]
  have hnodup : ((s.transport.connections.filter (!·.closed)).map
      (·.peer.id)).Nodup := by
    rw [List.nodup_iff_pairwise_ne, List.pairwise_map, List.pairwise_filter,
      List.pairwise_iff_getElem]
    intro i j hi hj hij hopen hopen' heq
    have hfirst := hstored (List.getElem?_eq_getElem hi) (by simpa using hopen)
    have hsecond := hstored (List.getElem?_eq_getElem hj)
      (by simpa using hopen')
    rw [heq, hsecond, Option.some.injEq] at hfirst
    omega
  have hsubset : ((s.transport.connections.filter (!·.closed)).map
      (·.peer.id)).toFinset ⊆ s.transport.conns.keys := by
    intro id hid
    rw [List.mem_toFinset, List.mem_map] at hid
    rcases hid with ⟨pc, hpc, rfl⟩
    rw [List.mem_filter] at hpc
    rcases List.getElem?_of_mem hpc.1 with ⟨n, hn⟩
    have hlookup := hstored hn (by simpa using hpc.2)
    rw [Finmap.mem_keys]
    exact Finmap.mem_of_lookup_eq_some hlookup
  calc (s.transport.connections.filter (!·.closed)).length
      = ((s.transport.connections.filter (!·.closed)).map
          (·.peer.id)).toFinset.card := by
        rw [List.toFinset_card_of_nodup hnodup, List.length_map]
    _ ≤ s.transport.conns.keys.card := Finset.card_le_card hsubset

theorem inHandshake_le_pending (s : TransportCalls) :
    s.inHandshake ≤ s.upgrades.countP (·.stage.pending) := by
  apply List.countP_mono_left
  intro call _ h
  cases hstage : call.stage <;>
    simp_all [UpgradeStage.inHandshake, UpgradeStage.pending]

variable {crypto : NodePrimitives} {codec : Codec}

theorem stepUpgrade_limited {s : TransportCalls} (hlimited : s.Limited)
    {position : ℕ} {input : Transport.UpgradeInput}
    (hundisturbed : s.ChecksUndisturbed (.upgrade position input)) :
    (s.stepUpgrade crypto codec position input).Limited := by
  unfold stepUpgrade
  cases hcall : s.upgrades[position]? with
  | none => exact hlimited
  | some call =>
      simp only [ChecksUndisturbed, hcall] at hundisturbed
      rcases hundisturbed with ⟨hstored, halone, hleaves⟩
      have hconfig : (s.transport.advanceUpgrade crypto codec call
          input).1.config = s.transport.config :=
        (Transport.advanceUpgrade_settings s.transport call input).config
      have hfacts : Transport.LimitFacts s.transport call
          (s.transport.advanceUpgrade crypto codec call input) :=
        s.transport.advanceUpgrade_limitFacts call input
      dsimp only
      generalize s.transport.advanceUpgrade crypto codec call input = result
        at hconfig hfacts ⊢
      have hpending := countP_set_add (·.stage.pending) hcall result.2
      have hhandshake := countP_set_add (·.stage.inHandshake) hcall result.2
      have hopens := hfacts.opens
      have hcounter := hfacts.counter
      have hbefore := hlimited.pending
      have hloaded := hlimited.load
      have hload : (s.upgrades.set position result.2).countP
            (·.stage.inHandshake) +
          result.1.connections.countP (!·.closed) ≤
            s.load + (decide (call.stage = .admitted)).toNat := by
        unfold load inHandshake openConnections
        omega
      -- Only an admitted call adds to the load, when it starts its handshake.
      have hkept : call.stage ≠ .admitted →
          (s.upgrades.set position result.2).countP (·.stage.inHandshake) +
            result.1.connections.countP (!·.closed) ≤ s.load := by
        intro hadmitted
        simpa only [hadmitted, decide_false, Bool.toNat_false, Nat.add_zero]
          using hload
      constructor
      · exact hlimited.connects
      · dsimp only
        omega
      · intro other now hnow hstage
        dsimp only [load, inHandshake, openConnections] at hnow ⊢
        rcases getElem?_set_cases hnow with ⟨rfl, rfl⟩ | ⟨hother, hold⟩
        · rcases hfacts.counted hstage with ⟨harrived, hcard⟩
          have hopen := openConnections_le_card (hstored harrived)
          have hinside := s.inHandshake_le_pending
          have hkeeps := hfacts.keepsPending (by rw [harrived]; simp)
          have hload' := hkept (by simp [harrived])
          unfold load at hload'
          omega
        · have hcheck := hlimited.counted hold hstage
          have hadmitted : call.stage ≠ .admitted := by
            intro h
            exact halone h hold hother (by simp [hstage])
          have hleaving : call.stage ≠ .leaving := by
            intro h
            exact hleaves h hold hother (by simp [hstage])
          have hkeeps := hfacts.keepsPending hleaving
          have hload' := hkept hadmitted
          omega
      · intro other now hnow hstage
        dsimp only [load, inHandshake, openConnections] at hnow ⊢
        rw [hconfig]
        rcases getElem?_set_cases hnow with ⟨rfl, rfl⟩ | ⟨hother, hold⟩
        · rcases hfacts.admitted hstage with ⟨hcounted, hroom⟩
          have hcheck := hlimited.counted hcall hcounted
          have hload' := hkept (by simp [hcounted])
          omega
        · have hcheck := hlimited.admitted hold hstage
          have hadmitted : call.stage ≠ .admitted := by
            intro h
            exact halone h hold hother (by simp [hstage])
          have hload' := hkept hadmitted
          omega
      · dsimp only [load, inHandshake, openConnections]
        rw [hconfig]
        by_cases hadmitted : call.stage = .admitted
        · have hroom := hlimited.admitted hcall hadmitted
          simp only [hadmitted, decide_true, Bool.toNat_true] at hload
          omega
        · have hload' := hkept hadmitted
          omega

/-- A step that opens nothing and leaves the inbound calls alone. -/
theorem Limited.of_same_calls {s s' : TransportCalls} (hlimited : s.Limited)
    (hconnects : s'.connects = s.connects)
    (hupgrades : s'.upgrades = s.upgrades)
    (hconfig : s'.transport.config = s.transport.config)
    (hpending : s'.transport.pendingConns = s.transport.pendingConns)
    (hopen : s'.openConnections ≤ s.openConnections) : s'.Limited := by
  have hload : s'.load ≤ s.load := by
    unfold TransportCalls.load inHandshake
    rw [hupgrades]
    omega
  constructor
  · rw [hconnects]
    exact hlimited.connects
  · rw [hpending, hupgrades]
    exact hlimited.pending
  · intro position call hcall hstage
    rw [hupgrades] at hcall ⊢
    exact hload.trans (hlimited.counted hcall hstage)
  · intro position call hcall hstage
    rw [hupgrades] at hcall
    have hroom := hlimited.admitted hcall hstage
    rw [hconfig]
    omega
  · rw [hconfig]
    exact hload.trans hlimited.load

theorem arrive_limited {s : TransportCalls} (hlimited : s.Limited) :
    Limited { s with upgrades := s.upgrades ++ [{}] } := by
  have hload : load { s with upgrades := s.upgrades ++ [{}] } = s.load := by
    simp [load, inHandshake, openConnections, UpgradeStage.inHandshake]
  have hpending : (s.upgrades ++ [({} : UpgradeCall)]).countP
      (·.stage.pending) = s.upgrades.countP (·.stage.pending) := by
    simp [UpgradeStage.pending, UpgradeStage.inHandshake]
  constructor
  · exact hlimited.connects
  · dsimp only
    rw [hpending]
    exact hlimited.pending
  · intro position call hcall hstage
    dsimp only at hcall ⊢
    rw [hload, hpending]
    rcases getElem?_concat_cases hcall with hold | ⟨-, rfl⟩
    · exact hlimited.counted hold hstage
    · cases hstage
  · intro position call hcall hstage
    dsimp only at hcall ⊢
    rw [hload]
    rcases getElem?_concat_cases hcall with hold | ⟨-, rfl⟩
    · exact hlimited.admitted hold hstage
    · cases hstage
  · rw [hload]
    exact hlimited.load

theorem close_limited {s : TransportCalls} (hlimited : s.Limited)
    (call : CloseCall) (now : Time) (closes : List CloseCall) :
    Limited
      { s with
        transport := (s.transport.advanceClose call now).1
        closes := closes } := by
  refine hlimited.of_same_calls rfl rfl
    (Transport.advanceClose_settings s.transport call now).config ?_ ?_
  · dsimp only [Transport.advanceClose]
    split
    · rfl
    · cases call.stage <;> rfl
  · dsimp only [openConnections, Transport.advanceClose]
    split
    · exact le_rfl
    next pc hpc =>
      cases call.stage with
      | unflagged =>
          have hset := countP_set_add (fun pc : PeerConnection => !pc.closed)
            hpc { pc with closed := true }
          dsimp only [Transport.setConnection] at hset ⊢
          simp only [Bool.not_true, Bool.toNat_false] at hset
          omega
      | _ => exact le_rfl

theorem Limited.next {s : TransportCalls} (hlimited : s.Limited)
    {action : TransportAction} (hinbound : Inbound action = true)
    (hundisturbed : s.ChecksUndisturbed action) :
    (s.next crypto codec action).Limited := by
  by_cases hupgrade : ∃ position input, action = .upgrade position input
  · rcases hupgrade with ⟨position, input, rfl⟩
    exact stepUpgrade_limited hlimited hundisturbed
  · have heffect : Effect crypto codec s action _ := s.next_effect action
    generalize s.next crypto codec action = s' at heffect ⊢
    cases heffect with
    | nothing => exact hlimited
    | arrived => exact arrive_limited hlimited
    | upgraded haction => exact absurd ⟨_, _, haction⟩ hupgrade
    | dialled haction =>
        subst haction
        cases hinbound
    | connected _ hcall => simp [hlimited.connects] at hcall
    | closed => exact close_limited hlimited _ _ _
    | closeRequested | announced | finished | operated =>
        exact hlimited.of_same_calls rfl rfl rfl rfl le_rfl

/-- In a run of inbound calls that leave each other's limit checks
undisturbed, no more than `MaxConns` WebSockets are open or in handshake. -/
theorem load_le_maxConns (crypto : NodePrimitives) (codec : Codec)
    {s : TransportCalls}
    (hrun : (machine crypto codec).Run
      (fun s action => Inbound action = true ∧ s.ChecksUndisturbed action) s) :
    s.inHandshake + s.openConnections ≤ s.transport.config.maxConns.toNat := by
  have hlimited : s.Limited := by
    apply hrun.invariant
    · intro start hinitial
      rcases hinitial with ⟨node, registry, config, -, -, rfl⟩
      constructor
      · rfl
      · rfl
      · intro position call hcall
        simp at hcall
      · intro position call hcall
        simp at hcall
      · exact Nat.zero_le _
    · intro before action _ hbefore _ hallowed
      exact hbefore.next hallowed.1 hallowed.2
  exact hlimited.load

/-! ### Two calls at once -/

def sampleLimited : TransportCalls where
  transport := .newTransport (sampleNode 9) {} { maxConns := 1 }

theorem sampleLimited_initial : Initial sampleLimited := by
  refine ⟨sampleNode 9, {}, { maxConns := 1 }, ?_, ?_, rfl⟩
  · intro id peer hpeer
    cases hpeer
  · intro id peer hpeer
    cases hpeer

theorem load_le_maxConns_alone :
    let s := (machine samplePrimitives (sampleCodec 1 2)).replay sampleLimited
      sampleAccept
    s.openConnections = 1 ∧
      s.inHandshake + s.openConnections ≤
        s.transport.config.maxConns.toNat := by
  refine ⟨by decide, ?_⟩
  exact load_le_maxConns samplePrimitives (sampleCodec 1 2)
    (Machine.Run.replay (.start sampleLimited_initial) (by decide))

/-- Both calls pass the check before either counts itself. -/
def sampleSurge : List TransportAction :=
  [.arrive, .arrive, .upgrade 0 sampleUpgrade, .upgrade 0 sampleUpgrade,
    .upgrade 1 sampleUpgrade, .upgrade 1 sampleUpgrade,
    .upgrade 0 sampleUpgrade, .upgrade 1 sampleUpgrade]

theorem surge_exceeds_maxConns :
    ∃ s, (machine samplePrimitives (sampleCodec 1 2)).Run
        (fun _ action => Inbound action = true) s ∧
      s.transport.config.maxConns = 1 ∧
      s.inHandshake + s.openConnections = 2 := by
  have hreplays : (machine samplePrimitives (sampleCodec 1 2)).Replays
      (fun _ action => Inbound action = true) sampleLimited sampleSurge := by
    decide
  exact ⟨_, Machine.Run.replay (.start sampleLimited_initial) hreplays,
    by decide, by decide⟩

end TransportCalls

end GoP2P.Node
