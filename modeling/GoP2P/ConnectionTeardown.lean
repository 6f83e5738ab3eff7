import GoP2P.ConnectionBinding

/-!
# Closed connections and the connection map

A connection is put into `conns` once, at a position of its own, and under the
ID of its peer.  Its close takes out that entry only if it still leads to the
same connection, so a close that comes late finds nothing of its own to take
out and leaves the connection that replaced it alone.
-/

namespace GoP2P.Node

namespace TransportCalls

/-! ### Stores and closes -/

/-- The action puts a connection into `conns` under the ID. -/
def Stores (s : TransportCalls) (id : Bytes) : TransportAction → Prop
  | .upgrade position _ => ∃ call, s.upgrades[position]? = some call ∧
      call.stage = .acknowledged ∧ call.peer.id = id
  | .connect position _ => ∃ call, s.connects[position]? = some call ∧
      call.stage = .recorded ∧ call.peer.id = id
  | _ => False

/-- The action is the step of the connection's close that looks at `conns`. -/
def Drops (s : TransportCalls) (connection : ℕ) : TransportAction → Prop
  | .close position _ => ∃ call, s.closes[position]? = some call ∧
      call.connection = connection ∧ call.stage = .requested
  | _ => False

/-- Entries stand under the ID of their peer; a close that is past `conns` has
left no entry for its connection, and only a close that has returned has closed
one. -/
structure MapSound (s : TransportCalls) : Prop where
  stored : ∀ ⦃i : Bytes⦄ ⦃n : ℕ⦄, s.transport.conns.lookup i = some n →
    (s.transport.connections[n]?).map (·.peer.id) = some i
  made : ∀ call ∈ s.closes,
    call.connection < s.transport.connections.length
  dropped : ∀ call ∈ s.closes, call.stage ≠ .requested →
    ∀ i, s.transport.conns.lookup i ≠ some call.connection
  closed : ∀ ⦃n : ℕ⦄ ⦃pc : PeerConnection⦄,
    s.transport.connections[n]? = some pc → pc.closed = true →
      ∃ call ∈ s.closes, call.connection = n ∧ call.stage = .returned

theorem MapSound.of_same {s s' : TransportCalls} (hsound : s.MapSound)
    (hsame : Transport.SameConnections s.transport s'.transport)
    (hcloses : s'.closes = s.closes) : s'.MapSound := by
  constructor
  · rw [hsame.conns, hsame.connections]
    exact hsound.stored
  · rw [hcloses, hsame.connections]
    exact hsound.made
  · rw [hcloses, hsame.conns]
    exact hsound.dropped
  · rw [hcloses, hsame.connections]
    exact hsound.closed

/-- A new connection gets a position that no close has. -/
theorem MapSound.of_added {s s' : TransportCalls} (hsound : s.MapSound)
    {pc : PeerConnection} (hopen : pc.closed = false)
    (htransport : s'.transport = s.transport.addConnection pc)
    (hcloses : s'.closes = s.closes) : s'.MapSound := by
  have hconns : s'.transport.conns =
      s.transport.conns.insert pc.peer.id s.transport.connections.length := by
    rw [htransport]
    rfl
  have hconnections : s'.transport.connections =
      s.transport.connections ++ [pc] := by
    rw [htransport]
    rfl
  constructor
  · intro i n hlookup
    rw [hconns] at hlookup
    rw [hconnections]
    by_cases hid : i = pc.peer.id
    · subst hid
      rw [Finmap.lookup_insert, Option.some.injEq] at hlookup
      subst hlookup
      rw [List.getElem?_concat_length]
      rfl
    · rw [Finmap.lookup_insert_of_ne _ hid] at hlookup
      rcases Option.map_eq_some_iff.mp (hsound.stored hlookup) with
        ⟨old, hold, hpeer⟩
      rw [getElem?_concat_of_some hold, Option.map_some, hpeer]
  · intro call hcall
    rw [hcloses] at hcall
    rw [hconnections, List.length_append]
    have hmade := hsound.made call hcall
    omega
  · intro call hcall hstage i hlookup
    rw [hcloses] at hcall
    rw [hconns] at hlookup
    by_cases hid : i = pc.peer.id
    · subst hid
      rw [Finmap.lookup_insert, Option.some.injEq] at hlookup
      have hmade := hsound.made call hcall
      omega
    · rw [Finmap.lookup_insert_of_ne _ hid] at hlookup
      exact hsound.dropped call hcall hstage i hlookup
  · intro n other hother hclosed
    rw [hconnections] at hother
    rw [hcloses]
    rcases getElem?_concat_cases hother with hold | ⟨-, rfl⟩
    · exact hsound.closed hold hclosed
    · rw [hopen] at hclosed
      cases hclosed

/-! ### The steps of a close -/

/-- A close moves on from a stage that is not its last: it takes its own entry
out first, and flags its own connection when it returns. -/
theorem MapSound.of_moved {s s' : TransportCalls} (hsound : s.MapSound)
    {position : ℕ} {call : CloseCall} (hcall : s.closes[position]? = some call)
    (hreturned : call.stage ≠ .returned) (stage : CloseStage)
    (hrequested : call.stage = .requested →
      ∀ i, s'.transport.conns.lookup i ≠ some call.connection)
    (hkept : ∀ ⦃i n⦄, s'.transport.conns.lookup i = some n →
      s.transport.conns.lookup i = some n)
    (hpeers : s'.transport.connections.map (·.peer.id) =
      s.transport.connections.map (·.peer.id))
    (hclosed : ∀ ⦃n : ℕ⦄ ⦃pc : PeerConnection⦄,
      s'.transport.connections[n]? = some pc →
        s.transport.connections[n]? = some pc ∨
          (call.connection = n ∧ stage = .returned))
    (hcloses : s'.closes = s.closes.set position { call with stage := stage }) :
    s'.MapSound := by
  have hmem := List.mem_of_getElem? hcall
  have hlt := (List.getElem?_eq_some_iff.mp hcall).1
  constructor
  · intro i n hlookup
    rw [← List.getElem?_map, hpeers, List.getElem?_map]
    exact hsound.stored (hkept hlookup)
  · intro other hother
    rw [hcloses] at hother
    have hlength := congrArg List.length hpeers
    rw [List.length_map, List.length_map] at hlength
    rw [hlength]
    rcases List.mem_or_eq_of_mem_set hother with hold | rfl
    · exact hsound.made other hold
    · exact hsound.made call hmem
  · intro other hother hstage i hlookup
    rw [hcloses] at hother
    rcases List.mem_or_eq_of_mem_set hother with hold | rfl
    · exact hsound.dropped other hold hstage i (hkept hlookup)
    · by_cases hfirst : call.stage = .requested
      · exact hrequested hfirst i hlookup
      · exact hsound.dropped call hmem hfirst i (hkept hlookup)
  · intro n pc hpc hflag
    rw [hcloses]
    rcases hclosed hpc with hold | ⟨hn, hlast⟩
    · rcases hsound.closed hold hflag with ⟨other, hother, hn, hstage⟩
      refine ⟨other, ?_, hn, hstage⟩
      apply mem_set_of_ne hcall hother
      intro hsame
      subst hsame
      exact hreturned hstage
    · exact ⟨_, List.mem_set hlt _, hn, hlast⟩

/-- The entry that a close takes out was the only one that led to its
connection. -/
theorem MapSound.not_stored_after_drop {s : TransportCalls}
    (hsound : s.MapSound) {connection : ℕ} {pc : PeerConnection}
    (hpc : s.transport.connections[connection]? = some pc) (i : Bytes) :
    (if s.transport.conns.lookup pc.peer.id = some connection then
        s.transport.conns.erase pc.peer.id
      else s.transport.conns).lookup i ≠ some connection := by
  intro hlookup
  have hown : s.transport.conns.lookup i = some connection →
      i = pc.peer.id := by
    intro hold
    have hstored := hsound.stored hold
    rw [hpc, Option.map_some, Option.some.injEq] at hstored
    exact hstored.symm
  split at hlookup
  · rcases lookup_of_lookup_erase hlookup with ⟨hid, hold⟩
    exact hid (hown hold)
  next hother =>
    rw [hown hlookup] at hlookup
    exact hother hlookup

theorem stepClose_mapSound {s : TransportCalls} (hsound : s.MapSound)
    (position : ℕ) (now : Time) : (s.stepClose position now).MapSound := by
  unfold stepClose
  cases hcall : s.closes[position]? with
  | none => exact hsound
  | some call =>
      have hmade := hsound.made call (List.mem_of_getElem? hcall)
      have hpc := List.getElem?_eq_getElem hmade
      dsimp only
      cases hstage : call.stage with
      | requested =>
          simp only [Transport.advanceClose, hpc, hstage]
          refine hsound.of_moved hcall (by simp [hstage]) .dropped ?_ ?_ ?_ ?_ ?_
          · intro _ i
            exact hsound.not_stored_after_drop hpc i
          · intro i n hlookup
            dsimp only at hlookup
            split at hlookup
            · exact (lookup_of_lookup_erase hlookup).2
            · exact hlookup
          · rfl
          · intro n pc hold
            exact .inl hold
          · rfl
      | dropped =>
          simp only [Transport.advanceClose, hpc, hstage]
          refine hsound.of_moved hcall (by simp [hstage]) .unflagged ?_ ?_ ?_ ?_ ?_
          · intro hrequested
            rw [hstage] at hrequested
            cases hrequested
          · intro i n hlookup
            exact hlookup
          · rfl
          · intro n pc hold
            exact .inl hold
          · rfl
      | unflagged =>
          simp only [Transport.advanceClose, hpc, hstage]
          refine hsound.of_moved hcall (by simp [hstage]) .returned ?_ ?_ ?_ ?_ ?_
          · intro hrequested
            rw [hstage] at hrequested
            cases hrequested
          · intro i n hlookup
            exact hlookup
          · dsimp only [Transport.setConnection]
            rw [List.map_set]
            apply set_eq_of_getElem?
            rw [List.getElem?_map, hpc]
            rfl
          · intro n pc hset
            rcases getElem?_set_cases hset with ⟨rfl, -⟩ | ⟨-, hold⟩
            · exact .inr ⟨rfl, rfl⟩
            · exact .inl hold
          · rfl
      | returned =>
          simp only [Transport.advanceClose, hpc, hstage]
          exact hsound.of_same ⟨rfl, rfl⟩ (set_eq_of_getElem? hcall)

/-! ### What a step does to the map -/

section

variable {crypto : NodePrimitives} {codec : Codec}

/-- A step leaves the connections alone, adds a new one under the ID it stores
it for, or belongs to a close. -/
inductive MapEffect (s s' : TransportCalls) (action : TransportAction) :
    Prop where
  | same (hsame : Transport.SameConnections s.transport s'.transport)
      (hcloses : s'.closes = s.closes)
  | stored {pc : PeerConnection} (hopen : pc.closed = false)
      (hstores : s.Stores pc.peer.id action)
      (htransport : s'.transport = s.transport.addConnection pc)
      (hcloses : s'.closes = s.closes)
  | requested {connection : ℕ} (haction : action = .requestClose connection)
  | closing {position : ℕ} {now : Time} (haction : action = .close position now)

theorem next_mapEffect (s : TransportCalls) (action : TransportAction) :
    MapEffect s (s.next crypto codec action) action := by
  have heffect : Effect crypto codec s action _ := s.next_effect action
  generalize s.next crypto codec action = s' at heffect ⊢
  cases heffect with
  | @upgraded position input call haction hcall =>
      subst haction
      by_cases hstage : call.stage = .acknowledged
      · have hadded : (s.transport.advanceUpgrade crypto codec call input).1 =
            s.transport.addConnection (Transport.newConnection input.now
              call.peer call.sharedSecret) := by
          simp only [Transport.advanceUpgrade, hstage]
        exact .stored rfl ⟨call, hcall, hstage, rfl⟩ hadded rfl
      · exact .same (s.transport.advanceUpgrade_connections hstage input) rfl
  | @connected position now call haction hcall =>
      subst haction
      by_cases hstage : call.stage = .recorded
      · have hadded : (s.transport.advanceConnect call now).1 =
            s.transport.addConnection (Transport.newConnection now call.peer
              call.sharedSecret) := by
          simp only [Transport.advanceConnect, hstage]
        exact .stored rfl ⟨call, hcall, hstage, rfl⟩ hadded rfl
      · exact .same (s.transport.advanceConnect_connections hstage now) rfl
  | closeRequested haction => exact .requested haction
  | closed haction => exact .closing haction
  | nothing | arrived | dialled | announced | finished | operated =>
      exact .same ⟨rfl, rfl⟩ rfl

theorem MapSound.next {s : TransportCalls} (hsound : s.MapSound)
    {action : TransportAction} (henabled : s.Enabled action) :
    (s.next crypto codec action).MapSound := by
  have heffect : MapEffect s (s.next crypto codec action) action :=
    s.next_mapEffect action
  cases heffect with
  | same hsame hcloses => exact hsound.of_same hsame hcloses
  | stored hopen _ htransport hcloses =>
      exact hsound.of_added hopen htransport hcloses
  | requested haction =>
      subst haction
      refine ⟨hsound.stored, ?_, ?_, ?_⟩
      · intro call hcall
        rcases List.mem_append.mp hcall with hold | hnew
        · exact hsound.made call hold
        · cases List.mem_singleton.mp hnew
          exact henabled.1
      · intro call hcall hstage
        rcases List.mem_append.mp hcall with hold | hnew
        · exact hsound.dropped call hold hstage
        · cases List.mem_singleton.mp hnew
          exact absurd rfl hstage
      · intro n pc hpc hclosed
        rcases hsound.closed hpc hclosed with ⟨call, hcall, hn, hreturned⟩
        exact ⟨call, List.mem_append_left _ hcall, hn, hreturned⟩
  | closing haction =>
      subst haction
      exact stepClose_mapSound hsound _ _

theorem reachable_mapSound {s : TransportCalls}
    (hreachable : (machine crypto codec).Reachable s) : s.MapSound := by
  apply hreachable.invariant
  · intro start hinitial
    rcases hinitial with ⟨node, registry, config, -, -, rfl⟩
    constructor
    · intro i n hlookup
      cases hlookup
    · intro call hcall
      cases hcall
    · intro call hcall
      cases hcall
    · intro n pc hpc
      cases hpc
  · intro before action _ hbefore henabled _
    exact hbefore.next henabled

/-- The entry of a connection goes away only in the connection's own close. -/
theorem stepClose_lookup {s : TransportCalls} (hsound : s.MapSound) {i : Bytes}
    {n : ℕ} (hlookup : s.transport.conns.lookup i = some n) (position : ℕ)
    (now : Time) :
    (s.stepClose position now).transport.conns.lookup i = some n ∨
      s.Drops n (.close position now) := by
  unfold stepClose
  cases hcall : s.closes[position]? with
  | none => exact .inl hlookup
  | some call =>
      have hpc := List.getElem?_eq_getElem
        (hsound.made call (List.mem_of_getElem? hcall))
      dsimp only
      cases hstage : call.stage with
      | requested =>
          simp only [Transport.advanceClose, hpc, hstage]
          by_cases hn : call.connection = n
          · exact .inr ⟨call, hcall, hn, hstage⟩
          · left
            split
            next hstored =>
              rw [Finmap.lookup_erase_ne]
              · exact hlookup
              · intro hid
                rw [← hid, hlookup, Option.some.injEq] at hstored
                exact hn hstored.symm
            next => exact hlookup
      | _ =>
          simp only [Transport.advanceClose, hpc, hstage]
          exact .inl hlookup

/-- In every state that a run reaches, no entry leads to a connection that was
closed or whose close has returned; and a step takes an entry away or changes
it only as the close of the connection it leads to, or by storing a newer
connection under its ID. -/
theorem conns_follow_closes (crypto : NodePrimitives) (codec : Codec)
    {s : TransportCalls} (hreachable : (machine crypto codec).Reachable s) :
    (∀ call ∈ s.closes, call.stage = .returned →
      ∀ i, s.transport.conns.lookup i ≠ some call.connection) ∧
    (∀ i n pc, s.transport.conns.lookup i = some n →
      s.transport.connections[n]? = some pc → pc.closed = false) ∧
    ∀ action i n, s.Enabled action → s.transport.conns.lookup i = some n →
      let after := (s.next crypto codec action).transport.conns.lookup i
      after = some n ∨ s.Drops n action ∨
        (s.Stores i action ∧ ∃ newer, after = some newer ∧ n < newer) := by
  have hsound := reachable_mapSound hreachable
  have hdropped : ∀ call ∈ s.closes, call.stage = .returned →
      ∀ i, s.transport.conns.lookup i ≠ some call.connection := by
    intro call hcall hreturned
    exact hsound.dropped call hcall (by simp [hreturned])
  refine ⟨hdropped, ?_, ?_⟩
  · intro i n pc hlookup hpc
    by_contra hclosed
    rw [Bool.not_eq_false] at hclosed
    rcases hsound.closed hpc hclosed with ⟨call, hcall, rfl, hreturned⟩
    exact hdropped call hcall hreturned i hlookup
  · intro action i n _ hlookup after
    have heffect : MapEffect s (s.next crypto codec action) action :=
      s.next_mapEffect action
    cases heffect with
    | same hsame =>
        left
        dsimp only [after]
        rw [hsame.conns]
        exact hlookup
    | @stored pc _ hstores htransport _ =>
        dsimp only [after]
        rw [htransport]
        by_cases hid : i = pc.peer.id
        · subst hid
          right
          right
          refine ⟨hstores, s.transport.connections.length, ?_, ?_⟩
          · exact Finmap.lookup_insert _
          · rcases Option.map_eq_some_iff.mp (hsound.stored hlookup) with
              ⟨old, hold, -⟩
            exact (List.getElem?_eq_some_iff.mp hold).1
        · left
          exact (Finmap.lookup_insert_of_ne _ hid).trans hlookup
    | requested haction =>
        subst haction
        exact .inl hlookup
    | closing haction =>
        subst haction
        rcases stepClose_lookup hsound hlookup _ _ with hkept | hdrops
        · exact .inl hkept
        · exact .inr (.inl hdrops)

end

/-! ### Sample runs -/

theorem conns_follow_closes_replaced :
    let s := (machine samplePrimitives (sampleCodec 1 2)).replay sampleCalls
      sampleReconnect
    s.closes = [{ connection := 0, stage := .returned }] ∧
      s.transport.conns.lookup [1] = some 1 ∧
      s.transport.conns.lookup [1] ≠ some 0 := by
  have hreplays : (machine samplePrimitives (sampleCodec 1 2)).Replays
      (fun _ _ => True) sampleCalls sampleReconnect := by decide +kernel
  have hreachable := Machine.Run.replay (.start sampleCalls_initial) hreplays
  refine ⟨by decide +kernel, by decide +kernel, ?_⟩
  exact (conns_follow_closes samplePrimitives (sampleCodec 1 2)
    hreachable).1 { connection := 0, stage := .returned } (by decide +kernel)
      rfl [1]

end TransportCalls

end GoP2P.Node
