import GoP2P.ConnectionBinding

/-!
# Connection flags and the connection map

The registry's `Connected` flag and the transport's `conns` are written under
different locks, one after the other, and the flag is also part of every record
that is written as a whole.  An operation that has changed one and not yet the
other is still writing to the peer's ID.  The two agree again when it is done,
provided nobody else wrote to that ID in the meantime and each operation wrote
the flag that fits the map.
-/

namespace GoP2P.Node

open PeerRegistry

namespace TransportCalls

/-! ### Operations between their two writes -/

/-- A connection was stored under the ID and its flag is not yet set. -/
def Storing (s : TransportCalls) (id : Bytes) : Prop :=
  (∃ call ∈ s.upgrades, call.stage = .stored ∧ call.peer.id = id) ∨
    ∃ call ∈ s.connects, call.stage = .stored ∧ call.peer.id = id

/-- The record under the ID was written for a connection not yet stored. -/
def Recording (s : TransportCalls) (id : Bytes) : Prop :=
  ∃ call ∈ s.connects, call.stage = .recorded ∧ call.peer.id = id

/-- A connection was taken out of `conns` and the flag of the ID still says
that it is there. -/
def Dropping (s : TransportCalls) (id : Bytes) : Prop :=
  ∃ call ∈ s.closes, call.stage = .dropped ∧
    (s.transport.connections[call.connection]?).map (·.peer.id) = some id

def WritesTo (s : TransportCalls) (id : Bytes) : Prop :=
  s.Storing id ∨ s.Recording id ∨ s.Dropping id

instance (s : TransportCalls) (id : Bytes) : Decidable (s.Storing id) :=
  inferInstanceAs (Decidable (_ ∨ _))

instance (s : TransportCalls) (id : Bytes) : Decidable (s.Recording id) :=
  inferInstanceAs (Decidable (∃ call ∈ _, _))

instance (s : TransportCalls) (id : Bytes) : Decidable (s.Dropping id) :=
  inferInstanceAs (Decidable (∃ call ∈ _, _))

instance (s : TransportCalls) (id : Bytes) : Decidable (s.WritesTo id) :=
  inferInstanceAs (Decidable (_ ∨ _ ∨ _))

/-- The flag that the call writes is the right one, and nobody is between two
writes to that ID. -/
def WritesRightly (s : TransportCalls) (call : RegistryCall) : Prop :=
  match call.flagWritten with
  | none => True
  | some (id, connected) =>
      ¬s.WritesTo id ∧ (connected = true ↔ id ∈ s.transport.conns)

instance (s : TransportCalls) (call : RegistryCall) :
    Decidable (s.WritesRightly call) := by
  unfold WritesRightly
  split <;> infer_instance

/-- No operation starts writing to an ID while another one writes to it; a new
peer is registered, a record written and a connection closed only when the flag
that this leaves behind fits `conns`.  A dial must not give a record of the
registry another ID: the two IDs would share the record, and its flag. -/
def FlagSafe (codec : Codec) (s : TransportCalls) : TransportAction → Prop
  | .dial _ held _ frame => Transport.AckKeepsIDs codec held frame
  | .upgrade position _ =>
      match s.upgrades[position]? with
      | none => True
      | some call =>
          (call.stage = .unregistered →
            ¬s.WritesTo call.payload.identity.id ∧
              call.payload.identity.id ∉ s.transport.conns) ∧
          (call.stage = .acknowledged → ¬s.WritesTo call.peer.id)
  | .connect position _ =>
      match s.connects[position]? with
      | none => True
      | some call =>
          call.stage = .verified ∨ call.stage = .unlisted →
            ¬s.WritesTo call.peer.id
  | .close position _ =>
      match s.closes[position]? with
      | none => True
      | some call =>
          match s.transport.connections[call.connection]? with
          | none => True
          | some pc =>
              call.stage = .requested →
                ¬s.WritesTo pc.peer.id ∧
                  (s.transport.conns.lookup pc.peer.id =
                      some call.connection ∨
                    pc.peer.id ∉ s.transport.conns)
  | .finishAnnounce position =>
      match s.announcements[position]? with
      | none => True
      | some call => call.returned = true ∨ s.WritesRightly call.call
  | .operate call => s.WritesRightly call
  | _ => True

instance (codec : Codec) (s : TransportCalls) :
    DecidablePred (s.FlagSafe codec)
  | .dial _ held _ frame =>
      inferInstanceAs (Decidable (Transport.AckKeepsIDs codec held frame))
  | .upgrade position _ => by
      dsimp only [FlagSafe]
      match s.upgrades[position]? with
      | none => exact .isTrue trivial
      | some call => dsimp only; infer_instance
  | .connect position _ => by
      dsimp only [FlagSafe]
      match s.connects[position]? with
      | none => exact .isTrue trivial
      | some call => dsimp only; infer_instance
  | .close position _ => by
      dsimp only [FlagSafe]
      match s.closes[position]? with
      | none => exact .isTrue trivial
      | some call =>
          dsimp only
          match s.transport.connections[call.connection]? with
          | none => exact .isTrue trivial
          | some pc => dsimp only; infer_instance
  | .finishAnnounce position => by
      dsimp only [FlagSafe]
      match s.announcements[position]? with
      | none => exact .isTrue trivial
      | some call => dsimp only; infer_instance
  | .operate call => inferInstanceAs (Decidable (s.WritesRightly call))
  | .arrive | .requestClose _ | .announce _ _ _ => .isTrue trivial

/-! ### One ID at a time -/

/-- What holds of one ID in every state: its flag says whether `conns` has it,
unless an operation is between its two writes to it. -/
structure MirroredAt (s : TransportCalls) (id : Bytes) : Prop where
  settled : ¬s.WritesTo id →
    ∀ ⦃peer⦄, s.transport.registry.getPeer id = some peer →
      (peer.connected = true ↔ id ∈ s.transport.conns)
  storing : s.Storing id → id ∈ s.transport.conns
  dropping : s.Dropping id → id ∉ s.transport.conns
  apart : s.Recording id → ¬s.Dropping id

/-- From `s` to `s'` no operation started or stopped writing to the ID. -/
structure SameWriters (s s' : TransportCalls) (id : Bytes) : Prop where
  storing : s'.Storing id ↔ s.Storing id
  recording : s'.Recording id ↔ s.Recording id
  dropping : s'.Dropping id ↔ s.Dropping id

theorem SameWriters.writesTo {s s' : TransportCalls} {id : Bytes}
    (hsame : SameWriters s s' id) : s'.WritesTo id ↔ s.WritesTo id := by
  unfold WritesTo
  rw [hsame.storing, hsame.recording, hsame.dropping]

structure Mirrored (s : TransportCalls) : Prop where
  /-- Only connections that were made are closed. -/
  closes : ∀ call ∈ s.closes,
    call.connection < s.transport.connections.length
  at_id : ∀ id, s.MirroredAt id

/-- No operation is in progress. -/
def Quiet (s : TransportCalls) : Prop :=
  (∀ call ∈ s.upgrades, call.stage = .returned) ∧
    (∀ call ∈ s.connects, call.stage = .returned) ∧
    (∀ call ∈ s.closes, call.stage = .returned) ∧
    ∀ call ∈ s.announcements, call.returned = true

instance (s : TransportCalls) : Decidable s.Quiet :=
  inferInstanceAs (Decidable (_ ∧ _ ∧ _ ∧ _))

theorem Quiet.not_writesTo {s : TransportCalls} (hquiet : s.Quiet)
    (id : Bytes) : ¬s.WritesTo id := by
  rcases hquiet with ⟨hupgrades, hconnects, hcloses, -⟩
  intro hwrites
  rcases hwrites with (⟨call, hmem, hstage, -⟩ | ⟨call, hmem, hstage, -⟩) |
    ⟨call, hmem, hstage, -⟩ | ⟨call, hmem, hstage, -⟩
  · rw [hupgrades call hmem] at hstage
    cases hstage
  · rw [hconnects call hmem] at hstage
    cases hstage
  · rw [hconnects call hmem] at hstage
    cases hstage
  · rw [hcloses call hmem] at hstage
    cases hstage

/-! ### Writes at one ID -/

/-- The flag is the one that was there, or the right one. -/
theorem MirroredAt.of_flag {s s' : TransportCalls} {id : Bytes}
    (hmirrored : s.MirroredAt id) (hsame : SameWriters s s' id)
    (hconns : id ∈ s'.transport.conns ↔ id ∈ s.transport.conns)
    (hflag : ∀ ⦃peer'⦄, s'.transport.registry.getPeer id = some peer' →
      (peer'.connected = true ↔ id ∈ s.transport.conns) ∨
        ∃ peer, s.transport.registry.getPeer id = some peer ∧
          peer'.connected = peer.connected) :
    s'.MirroredAt id := by
  constructor
  · intro hwrites peer' hpeer'
    rw [hconns]
    rcases hflag hpeer' with hright | ⟨peer, hpeer, hkept⟩
    · exact hright
    · rw [hkept]
      exact hmirrored.settled (mt hsame.writesTo.mpr hwrites) hpeer
  · rw [hsame.storing, hconns]
    exact hmirrored.storing
  · rw [hsame.dropping, hconns]
    exact hmirrored.dropping
  · rw [hsame.recording, hsame.dropping]
    exact hmirrored.apart

theorem MirroredAt.of_same {s s' : TransportCalls} {id : Bytes}
    (hmirrored : s.MirroredAt id) (hsame : SameWriters s s' id)
    (hconns : id ∈ s'.transport.conns ↔ id ∈ s.transport.conns)
    (hflag : s'.transport.registry.getPeer id =
      s.transport.registry.getPeer id) : s'.MirroredAt id := by
  apply hmirrored.of_flag hsame hconns
  intro peer hpeer
  rw [hflag] at hpeer
  exact .inr ⟨peer, hpeer, rfl⟩

/-- A registry call was made; if it wrote the flag of the ID, it wrote the
right one. -/
theorem MirroredAt.of_registryCall {s s' : TransportCalls} {id : Bytes}
    {call : RegistryCall} (hmirrored : s.MirroredAt id)
    (hsame : SameWriters s s' id)
    (hconns : s'.transport.conns = s.transport.conns)
    (hregistry : s'.transport.registry = call.apply s.transport.registry)
    (hright : ∀ connected, call.flagWritten = some (id, connected) →
      (connected = true ↔ id ∈ s.transport.conns)) :
    s'.MirroredAt id := by
  apply hmirrored.of_flag hsame (by rw [hconns])
  intro peer' hpeer'
  rw [hregistry] at hpeer'
  rcases RegistryCall.apply_flag hpeer' with hwritten | hkept
  · exact .inl (hright _ hwritten)
  · exact .inr hkept

/-- The record of `target` was written for a connection to come, while nobody
else wrote to that ID. -/
theorem MirroredAt.of_recorded {s s' : TransportCalls} (call : RegistryCall)
    {target : Bytes} {connected : Bool}
    (hwritten : call.flagWritten = some (target, connected))
    (hregistry : s'.transport.registry = call.apply s.transport.registry)
    (hconns : s'.transport.conns = s.transport.conns)
    (hfree : ¬s.WritesTo target) (hhere : s'.Recording target)
    (hstoring : ∀ id, s'.Storing id ↔ s.Storing id)
    (hdropping : ∀ id, s'.Dropping id ↔ s.Dropping id)
    (hrecording : ∀ id, id ≠ target → (s'.Recording id ↔ s.Recording id))
    {id : Bytes} (hmirrored : s.MirroredAt id) : s'.MirroredAt id := by
  by_cases hid : id = target
  · subst hid
    have hopen : ¬s'.Dropping id := by
      intro h
      exact hfree (.inr (.inr ((hdropping id).mp h)))
    constructor
    · intro hwrites
      exact absurd (.inr (.inl hhere)) hwrites
    · intro h
      exact absurd (.inl ((hstoring id).mp h)) hfree
    · intro h
      exact absurd h hopen
    · intro _
      exact hopen
  · apply hmirrored.of_registryCall
      ⟨hstoring id, hrecording id hid, hdropping id⟩ hconns hregistry
    intro _ h
    rw [hwritten] at h
    cases h
    exact absurd rfl hid

/-- An operation set the flag of `target`, the right way, as the last thing it
did to that ID. -/
theorem MirroredAt.of_last_write {s s' : TransportCalls} {target : Bytes}
    (now : Time) {connected : Bool}
    (hregistry : s'.transport.registry =
      s.transport.registry.setConnected now target connected)
    (hconns : s'.transport.conns = s.transport.conns)
    (hright : connected = true ↔ target ∈ s.transport.conns)
    (hstoring : ∀ id, s'.Storing id → s.Storing id)
    (hrecording : ∀ id, s'.Recording id → s.Recording id)
    (hdropping : ∀ id, s'.Dropping id → s.Dropping id)
    (helsewhere : ∀ id, id ≠ target → s.WritesTo id → s'.WritesTo id)
    {id : Bytes} (hmirrored : s.MirroredAt id) : s'.MirroredAt id := by
  constructor
  · intro hwrites peer hpeer
    rw [hregistry] at hpeer
    rw [hconns]
    by_cases hid : id = target
    · subst hid
      rw [(setConnected_writes _ now id connected).flag hpeer]
      exact hright
    · rw [(setConnected_writes _ now target connected).elsewhere id hid]
        at hpeer
      exact hmirrored.settled (mt (helsewhere id hid) hwrites) hpeer
  · intro h
    rw [hconns]
    exact hmirrored.storing (hstoring id h)
  · intro h
    rw [hconns]
    exact hmirrored.dropping (hdropping id h)
  · intro h hdrop
    exact hmirrored.apart (hrecording id h) (hdropping id hdrop)

/-- A connection was stored under its peer's ID, which nobody is closing. -/
theorem MirroredAt.of_addConnection {s s' : TransportCalls}
    {pc : PeerConnection}
    (htransport : s'.transport = s.transport.addConnection pc)
    (hhere : s'.Storing pc.peer.id) (hapart : ¬s.Dropping pc.peer.id)
    (hdropping : ∀ id, s'.Dropping id ↔ s.Dropping id)
    (helsewhere : ∀ id, id ≠ pc.peer.id →
      (s'.Storing id ↔ s.Storing id) ∧ (s'.Recording id ↔ s.Recording id))
    {id : Bytes} (hmirrored : s.MirroredAt id) : s'.MirroredAt id := by
  have hconns : id ∈ s'.transport.conns ↔
      id = pc.peer.id ∨ id ∈ s.transport.conns := by
    rw [htransport]
    exact Finmap.mem_insert
  by_cases hid : id = pc.peer.id
  · subst hid
    have hopen : ¬s'.Dropping pc.peer.id := mt (hdropping _).mp hapart
    constructor
    · intro hwrites
      exact absurd (.inl hhere) hwrites
    · intro _
      exact hconns.mpr (.inl rfl)
    · intro h
      exact absurd h hopen
    · intro _
      exact hopen
  · rcases helsewhere id hid with ⟨hstoring, hrecording⟩
    apply hmirrored.of_same ⟨hstoring, hrecording, hdropping id⟩
    · rw [hconns]
      exact or_iff_right hid
    · rw [htransport]
      rfl

theorem dropping_iff_of_grown {s s' : TransportCalls}
    (hvalid : ∀ call ∈ s.closes,
      call.connection < s.transport.connections.length)
    (hcloses : s'.closes = s.closes)
    (hgrown : ∀ ⦃n : ℕ⦄ ⦃pc : PeerConnection⦄,
      s.transport.connections[n]? = some pc →
        s'.transport.connections[n]? = some pc) (id : Bytes) :
    s'.Dropping id ↔ s.Dropping id := by
  unfold Dropping
  rw [hcloses]
  apply exists_congr
  intro call
  apply and_congr_right
  intro hmem
  have hpc := List.getElem?_eq_getElem (hvalid call hmem)
  rw [hpc, hgrown hpc]

variable {crypto : NodePrimitives} {codec : Codec}

/-! ### Inbound handshakes -/

theorem advanceUpgrade_idle (t : Transport) {call : UpgradeCall}
    (hregisters : call.stage ≠ .unregistered)
    (hstores : call.stage ≠ .acknowledged) (hflags : call.stage ≠ .stored)
    (input : Transport.UpgradeInput) :
    (t.advanceUpgrade crypto codec call input).1.registry = t.registry ∧
      (t.advanceUpgrade crypto codec call input).2.stage ≠ .stored := by
  unfold Transport.advanceUpgrade
  cases h : call.stage with
  | unregistered => exact absurd h hregisters
  | acknowledged => exact absurd h hstores
  | stored => exact absurd h hflags
  | counted | handshaking | authorised | named =>
      dsimp only
      split <;> simp
  | screened =>
      dsimp only
      split
      · simp
      · split <;> simp
  | returned => simp [h]
  | _ => simp

theorem stepUpgrade_dropping {s : TransportCalls} (hmirrored : s.Mirrored)
    (position : ℕ) (input : Transport.UpgradeInput) (id : Bytes) :
    (s.stepUpgrade crypto codec position input).Dropping id ↔
      s.Dropping id := by
  unfold stepUpgrade
  split
  · exact .rfl
  next call _ =>
    refine dropping_iff_of_grown hmirrored.closes ?_ ?_ id
    · rfl
    · intro n pc hpc
      exact s.transport.advanceUpgrade_getElem? call input hpc

theorem stepUpgrade_mirroredAt {s : TransportCalls} (hmirrored : s.Mirrored)
    {position : ℕ} {input : Transport.UpgradeInput}
    (hsafe : s.FlagSafe codec (.upgrade position input)) (id : Bytes) :
    (s.stepUpgrade crypto codec position input).MirroredAt id := by
  have hat := hmirrored.at_id id
  have hdropping : ∀ id,
      (s.stepUpgrade crypto codec position input).Dropping id ↔ _ :=
    stepUpgrade_dropping hmirrored position input
  unfold stepUpgrade at hdropping ⊢
  cases hcall : s.upgrades[position]? with
  | none => exact hat
  | some call =>
      simp only [FlagSafe, hcall] at hsafe hdropping
      rcases hsafe with ⟨hregisters, hstores⟩
      have hmem := List.mem_of_getElem? hcall
      have hlt := (List.getElem?_eq_some_iff.mp hcall).1
      by_cases hregister : call.stage = .unregistered
      · rcases hregisters hregister with ⟨-, habsent⟩
        simp only [Transport.advanceUpgrade, hregister] at hdropping ⊢
        refine hat.of_registryCall ⟨?_, .rfl, hdropping id⟩ rfl rfl ?_
        · exact or_congr (exists_mem_set_iff hcall (by simp [hregister])) .rfl
        · intro connected hwritten
          cases hwritten
          exact iff_of_false Bool.false_ne_true habsent
      by_cases hstore : call.stage = .acknowledged
      · have hwrites := hstores hstore
        simp only [Transport.advanceUpgrade, hstore] at hdropping ⊢
        refine MirroredAt.of_addConnection rfl ?_ ?_ hdropping ?_ hat
        · exact .inl ⟨_, List.mem_set hlt _, rfl, rfl⟩
        · intro h
          exact hwrites (.inr (.inr h))
        · intro other hother
          change other ≠ call.peer.id at hother
          refine ⟨or_congr (exists_mem_set_iff hcall ?_) .rfl, .rfl⟩
          simpa [hstore] using Ne.symm hother
      by_cases hflag : call.stage = .stored
      · have hstored : s.Storing call.peer.id := .inl ⟨call, hmem, hflag, rfl⟩
        have hright : true = true ↔ call.peer.id ∈ s.transport.conns :=
          iff_of_true rfl ((hmirrored.at_id call.peer.id).storing hstored)
        simp only [Transport.advanceUpgrade, hflag] at hdropping ⊢
        refine MirroredAt.of_last_write input.now ?_ ?_ hright ?_ ?_ ?_ ?_ hat
        · rfl
        · rfl
        · intro other hstoring
          exact hstoring.imp_left (exists_mem_of_set (by simp))
        · intro other hrecording
          exact hrecording
        · intro other
          exact (hdropping other).mp
        · intro other hother
          refine Or.imp (Or.imp_left (exists_mem_set_iff hcall ?_).mpr)
            (Or.imp_right (hdropping other).mpr)
          simpa [hflag] using Ne.symm hother
      · have hidle : (s.transport.advanceUpgrade crypto codec call input).1.registry =
            s.transport.registry ∧ _ :=
          advanceUpgrade_idle s.transport hregister hstore hflag input
        have hsame : Transport.SameConnections s.transport
            (s.transport.advanceUpgrade crypto codec call input).1 :=
          s.transport.advanceUpgrade_connections hstore input
        refine hat.of_same ⟨?_, .rfl, hdropping id⟩ ?_ ?_
        · refine or_congr (exists_mem_set_iff hcall ?_) .rfl
          simp [hidle.2, hflag]
        · dsimp only
          rw [hsame.conns]
        · dsimp only
          rw [hidle.1]

/-! ### Outbound handshakes -/

theorem stepConnect_dropping {s : TransportCalls} (hmirrored : s.Mirrored)
    (position : ℕ) (now : Time) (id : Bytes) :
    (s.stepConnect position now).Dropping id ↔ s.Dropping id := by
  unfold stepConnect
  split
  · exact .rfl
  next call _ =>
    refine dropping_iff_of_grown hmirrored.closes ?_ ?_ id
    · rfl
    · intro n pc hpc
      exact s.transport.advanceConnect_getElem? call now hpc

/-- The first of the two writes of `Connect`, by `UpdatePeer` or by `AddPeer`. -/
theorem recordConnect_mirroredAt {s : TransportCalls} {position : ℕ}
    {call : ConnectCall} (hcall : s.connects[position]? = some call)
    (hstage : call.stage = .verified ∨ call.stage = .unlisted)
    (hfree : ¬s.WritesTo call.peer.id) (write : RegistryCall)
    {connected : Bool}
    (hwritten : write.flagWritten = some (call.peer.id, connected))
    {s' : TransportCalls}
    (hconnects : s'.connects =
      s.connects.set position { call with stage := .recorded })
    (hregistry : s'.transport.registry = write.apply s.transport.registry)
    (hconns : s'.transport.conns = s.transport.conns)
    (hupgrades : s'.upgrades = s.upgrades)
    (hdropping : ∀ id, s'.Dropping id ↔ s.Dropping id) {id : Bytes}
    (hat : s.MirroredAt id) : s'.MirroredAt id := by
  have hlt := (List.getElem?_eq_some_iff.mp hcall).1
  refine MirroredAt.of_recorded write hwritten hregistry hconns hfree ?_ ?_
    hdropping ?_ hat
  · unfold Recording
    rw [hconnects]
    exact ⟨_, List.mem_set hlt _, rfl, rfl⟩
  · intro other
    unfold Storing
    rw [hupgrades, hconnects]
    refine or_congr .rfl (exists_mem_set_iff hcall ?_)
    rcases hstage with hstage | hstage <;> simp [hstage]
  · intro other hother
    unfold Recording
    rw [hconnects]
    apply exists_mem_set_iff hcall
    rcases hstage with hstage | hstage <;> simpa [hstage] using Ne.symm hother

theorem stepConnect_mirroredAt {s : TransportCalls} (hmirrored : s.Mirrored)
    {position : ℕ} {now : Time} (hsafe : s.FlagSafe codec (.connect position now))
    (id : Bytes) : (s.stepConnect position now).MirroredAt id := by
  have hat := hmirrored.at_id id
  have hdropping := stepConnect_dropping hmirrored position now
  unfold stepConnect at hdropping ⊢
  cases hcall : s.connects[position]? with
  | none => exact hat
  | some call =>
      simp only [FlagSafe, hcall] at hsafe hdropping
      have hmem := List.mem_of_getElem? hcall
      have hlt := (List.getElem?_eq_some_iff.mp hcall).1
      cases hstage : call.stage with
      | verified =>
          have hfree := hsafe (.inl hstage)
          simp only [Transport.advanceConnect, hstage] at hdropping ⊢
          cases hupdated : s.transport.registry.updatePeer call.peer with
          | returned updated =>
              simp only [hupdated] at hdropping
              refine recordConnect_mirroredAt hcall (.inl hstage) hfree
                (.updatePeer call.peer) rfl ?_ ?_ ?_ ?_ hdropping hat
              · rfl
              · simp [RegistryCall.apply, RegistryCall.run, hupdated]
              · rfl
              · rfl
          | _ =>
              simp only [hupdated] at hdropping
              refine hat.of_same ⟨?_, ?_, hdropping id⟩ .rfl rfl
              · exact or_congr .rfl (exists_mem_set_iff hcall (by simp [hstage]))
              · exact exists_mem_set_iff hcall (by simp [hstage])
      | unlisted =>
          have hfree := hsafe (.inr hstage)
          simp only [Transport.advanceConnect, hstage] at hdropping ⊢
          refine recordConnect_mirroredAt hcall (.inr hstage) hfree
            (.addPeer now call.peer) rfl ?_ ?_ ?_ ?_ hdropping hat <;> rfl
      | recorded =>
          have hrecorded : s.Recording call.peer.id := ⟨call, hmem, hstage, rfl⟩
          have hapart := (hmirrored.at_id call.peer.id).apart hrecorded
          simp only [Transport.advanceConnect, hstage] at hdropping ⊢
          refine MirroredAt.of_addConnection rfl ?_ hapart hdropping ?_ hat
          · exact .inr ⟨_, List.mem_set hlt _, rfl, rfl⟩
          · intro other hother
            change other ≠ call.peer.id at hother
            constructor
            · refine or_congr .rfl (exists_mem_set_iff hcall ?_)
              simpa [hstage] using Ne.symm hother
            · apply exists_mem_set_iff hcall
              simpa [hstage] using Ne.symm hother
      | stored =>
          have hstored : s.Storing call.peer.id :=
            .inr ⟨call, hmem, hstage, rfl⟩
          have hright : true = true ↔ call.peer.id ∈ s.transport.conns :=
            iff_of_true rfl ((hmirrored.at_id call.peer.id).storing hstored)
          simp only [Transport.advanceConnect, hstage] at hdropping ⊢
          refine MirroredAt.of_last_write now ?_ ?_ hright ?_ ?_ ?_ ?_ hat
          · rfl
          · rfl
          · intro other
            exact Or.imp_right (exists_mem_of_set (by simp))
          · intro other
            exact exists_mem_of_set (by simp)
          · intro other
            exact (hdropping other).mp
          · intro other hother
            refine Or.imp (Or.imp_right (exists_mem_set_iff hcall ?_).mpr)
              (Or.imp (exists_mem_set_iff hcall ?_).mpr (hdropping other).mpr)
            · simpa [hstage] using Ne.symm hother
            · simp [hstage]
      | returned =>
          simp only [Transport.advanceConnect, hstage] at hdropping ⊢
          refine hat.of_same ⟨?_, ?_, hdropping id⟩ .rfl rfl
          · exact or_congr .rfl (exists_mem_set_iff hcall .rfl)
          · exact exists_mem_set_iff hcall .rfl

/-! ### Closing -/

/-- The connection is taken out of `conns`, unless another one or none is
there. -/
theorem dropConnection_mirroredAt {s : TransportCalls} {position : ℕ}
    {call : CloseCall} (hcall : s.closes[position]? = some call)
    {pc : PeerConnection}
    (hpc : s.transport.connections[call.connection]? = some pc)
    (hstage : call.stage = .requested) (hfree : ¬s.WritesTo pc.peer.id)
    {conns : Finmap fun _ : Bytes => ℕ} (hdropped : pc.peer.id ∉ conns)
    (hkept : ∀ id, id ≠ pc.peer.id → (id ∈ conns ↔ id ∈ s.transport.conns))
    {id : Bytes} (hat : s.MirroredAt id) :
    ({ s with
        transport := { s.transport with conns := conns }
        closes := s.closes.set position
          { call with stage := .dropped } } : TransportCalls).MirroredAt
      id := by
  have hlt := (List.getElem?_eq_some_iff.mp hcall).1
  by_cases hid : id = pc.peer.id
  · subst hid
    constructor
    · intro hwrites
      refine absurd (.inr (.inr ⟨_, List.mem_set hlt _, rfl, ?_⟩)) hwrites
      simp [hpc]
    · intro hstoring
      exact absurd (.inl hstoring) hfree
    · intro _
      exact hdropped
    · intro hrecording
      exact absurd (.inr (.inl hrecording)) hfree
  · refine hat.of_same ⟨.rfl, .rfl, ?_⟩ (hkept id hid) rfl
    apply exists_mem_set_iff hcall
    simpa [hstage, hpc] using Ne.symm hid

theorem setConnection_peer {t : Transport} {n : ℕ} {pc : PeerConnection}
    (hpc : t.connections[n]? = some pc) (m : ℕ) :
    ((t.setConnection n { pc with closed := true }).connections[m]?).map
        (·.peer.id) = (t.connections[m]?).map (·.peer.id) := by
  unfold Transport.setConnection
  rw [List.getElem?_set]
  split
  next h =>
    subst h
    rw [hpc, if_pos (List.getElem?_eq_some_iff.mp hpc).1]
    rfl
  next => rfl

theorem stepClose_mirroredAt {s : TransportCalls} (hmirrored : s.Mirrored)
    {position : ℕ} {now : Time} (hsafe : s.FlagSafe codec (.close position now))
    (id : Bytes) : (s.stepClose position now).MirroredAt id := by
  have hat := hmirrored.at_id id
  unfold stepClose
  cases hcall : s.closes[position]? with
  | none => exact hat
  | some call =>
      have hmem := List.mem_of_getElem? hcall
      cases hpc : s.transport.connections[call.connection]? with
      | none =>
          simp only [Transport.advanceClose, hpc]
          refine hat.of_same ⟨.rfl, .rfl, ?_⟩ .rfl rfl
          exact exists_mem_set_iff hcall .rfl
      | some pc =>
          simp only [FlagSafe, hcall, hpc] at hsafe
          cases hstage : call.stage with
          | requested =>
              rcases hsafe hstage with ⟨hfree, hlookup⟩
              simp only [Transport.advanceClose, hpc, hstage]
              refine dropConnection_mirroredAt hcall hpc hstage hfree ?_ ?_ hat
              · split
                next => simp
                next hother =>
                  exact hlookup.resolve_left hother
              · intro other hother
                split
                next => simp [hother]
                next => exact .rfl
          | dropped =>
              have hdropping : s.Dropping pc.peer.id :=
                ⟨call, hmem, hstage, by simp [hpc]⟩
              have hright : false = true ↔ pc.peer.id ∈ s.transport.conns :=
                iff_of_false Bool.false_ne_true
                  ((hmirrored.at_id pc.peer.id).dropping hdropping)
              simp only [Transport.advanceClose, hpc, hstage]
              refine MirroredAt.of_last_write now ?_ ?_ hright ?_ ?_ ?_ ?_ hat
              · rfl
              · rfl
              · intro other hstoring
                exact hstoring
              · intro other hrecording
                exact hrecording
              · intro other
                exact exists_mem_of_set (by simp)
              · intro other hother
                refine Or.imp_right (Or.imp_right
                  (exists_mem_set_iff hcall ?_).mpr)
                simpa [hstage, hpc] using Ne.symm hother
          | unflagged =>
              simp only [Transport.advanceClose, hpc, hstage]
              refine hat.of_same ⟨.rfl, .rfl, ?_⟩ .rfl rfl
              unfold Dropping
              simp only [setConnection_peer hpc]
              exact exists_mem_set_iff hcall (by simp [hstage])
          | returned =>
              simp only [Transport.advanceClose, hpc, hstage]
              refine hat.of_same ⟨.rfl, .rfl, ?_⟩ .rfl rfl
              exact exists_mem_set_iff hcall .rfl

/-! ### Every step -/

theorem operate_mirroredAt {s s' : TransportCalls} {call : RegistryCall}
    (hright : s.WritesRightly call) {id : Bytes} (hat : s.MirroredAt id)
    (hsame : SameWriters s s' id)
    (htransport : s'.transport = (s.operate call).transport) :
    s'.MirroredAt id := by
  have hregistry : s'.transport.registry =
      call.apply s.transport.registry := by
    rw [htransport]
    rfl
  have hconns : s'.transport.conns = s.transport.conns := by
    rw [htransport]
    rfl
  apply hat.of_registryCall hsame hconns hregistry
  intro connected hwritten
  simp only [WritesRightly, hwritten] at hright
  exact hright.2

theorem advanceClose_connection (t : Transport) (call : CloseCall)
    (now : Time) :
    (t.advanceClose call now).2.connection = call.connection := by
  unfold Transport.advanceClose
  split
  · rfl
  · cases call.stage <;> rfl

theorem next_closes {s : TransportCalls} {action : TransportAction}
    {call : CloseCall} (hcall : call ∈ (s.next crypto codec action).closes) :
    (∃ old ∈ s.closes, old.connection = call.connection) ∨
      action = .requestClose call.connection := by
  have heffect : Effect crypto codec s action _ := s.next_effect action
  generalize s.next crypto codec action = s' at heffect hcall
  cases heffect with
  | closeRequested haction =>
      rcases List.mem_append.mp hcall with hold | hnew
      · exact .inl ⟨call, hold, rfl⟩
      · rw [List.mem_singleton] at hnew
        subst hnew
        exact .inr haction
  | @closed _ now old _ hold =>
      left
      rcases List.mem_or_eq_of_mem_set hcall with hmem | rfl
      · exact ⟨call, hmem, rfl⟩
      · exact ⟨old, List.mem_of_getElem? hold,
          (advanceClose_connection s.transport old now).symm⟩
  | _ => exact .inl ⟨call, hcall, rfl⟩

theorem next_length_connections (s : TransportCalls)
    (action : TransportAction) :
    s.transport.connections.length ≤
      (s.next crypto codec action).transport.connections.length := by
  by_contra hlt
  push Not at hlt
  have hpc := List.getElem?_eq_getElem hlt
  rcases (s.next_steps action).getElem? hpc with ⟨pc', hpc', -⟩
  exact Nat.lt_irrefl _ (List.getElem?_eq_some_iff.mp hpc').1

/-- An ack that is read into a record of the registry leaves its flag. -/
theorem registryAfterAck_flag {registry : PeerRegistry} {peer : Peer}
    {held : List Bytes} (hshared : ∀ id ∈ held, registry.getPeer id = some peer)
    {frame : Except CoreError Bytes} {id : Bytes} {peer' : Peer}
    (hpeer' : (Transport.registryAfterAck codec registry peer held
      frame).getPeer id = some peer') :
    ∃ old, registry.getPeer id = some old ∧
      peer'.connected = old.connected := by
  unfold Transport.registryAfterAck at hpeer'
  split at hpeer'
  next ackPayload _ =>
    rw [PeerRegistry.getPeer_showing] at hpeer'
    split_ifs at hpeer' with hheld
    · cases hpeer'
      exact ⟨peer, hshared id hheld, rfl⟩
    · exact ⟨peer', hpeer', rfl⟩
  next => exact ⟨peer', hpeer', rfl⟩

theorem next_mirroredAt {s : TransportCalls} (hmirrored : s.Mirrored)
    {action : TransportAction} (henabled : s.Enabled action)
    (hsafe : s.FlagSafe codec action) (id : Bytes) :
    (s.next crypto codec action).MirroredAt id := by
  have hat := hmirrored.at_id id
  cases action with
  | upgrade position input => exact stepUpgrade_mirroredAt hmirrored hsafe id
  | connect position now => exact stepConnect_mirroredAt hmirrored hsafe id
  | close position now => exact stepClose_mirroredAt hmirrored hsafe id
  | operate call =>
      exact operate_mirroredAt hsafe hat ⟨.rfl, .rfl, .rfl⟩ rfl
  | finishAnnounce position =>
      cases hcall : s.announcements[position]? with
      | none =>
          simp only [next, stepAnnounce, hcall]
          exact hat
      | some call =>
          simp only [FlagSafe, hcall] at hsafe
          simp only [next, stepAnnounce, hcall]
          split
          next => exact hat
          next hreturned =>
            exact operate_mirroredAt (hsafe.resolve_left hreturned) hat
              ⟨.rfl, .rfl, .rfl⟩ rfl
  | arrive =>
      refine hat.of_same ⟨or_congr ?_ .rfl, .rfl, .rfl⟩ .rfl rfl
      exact exists_mem_append_iff (by simp)
  | dial peer held challenge frame =>
      have hverified : ∀ call ∈ (s.transport.verifiedConnect crypto codec peer
          challenge frame).toList, call.stage = .verified := by
        intro call hcall
        exact Transport.verifiedConnect_stage (Option.mem_toList.mp hcall)
      refine hat.of_flag ⟨or_congr .rfl ?_, ?_, .rfl⟩ .rfl
        fun _ hpeer => .inr (registryAfterAck_flag henabled hpeer)
      · apply exists_mem_append_iff
        intro call hcall
        simp [hverified call hcall]
      · apply exists_mem_append_iff
        intro call hcall
        simp [hverified call hcall]
  | requestClose connection =>
      refine hat.of_same ⟨.rfl, .rfl, ?_⟩ .rfl rfl
      exact exists_mem_append_iff (by simp)
  | announce now announced body =>
      unfold next
      dsimp only
      split
      · exact hat.of_same ⟨.rfl, .rfl, .rfl⟩ .rfl rfl
      · exact hat

theorem Mirrored.next {s : TransportCalls} (hmirrored : s.Mirrored)
    {action : TransportAction} (henabled : s.Enabled action)
    (hsafe : s.FlagSafe codec action) : (s.next crypto codec action).Mirrored := by
  constructor
  · intro call hcall
    refine lt_of_lt_of_le ?_ (s.next_length_connections action)
    rcases next_closes hcall with ⟨old, hold, hsame⟩ | rfl
    · rw [← hsame]
      exact hmirrored.closes old hold
    · exact henabled.1
  · exact next_mirroredAt hmirrored henabled hsafe

theorem Initial.mirrored {s : TransportCalls} (hinitial : Initial s) :
    s.Mirrored := by
  rcases hinitial with ⟨node, registry, config, -, hflags, rfl⟩
  have hquiet : ({ transport := .newTransport node registry config } :
      TransportCalls).Quiet := by simp [Quiet]
  constructor
  · intro call hcall
    cases hcall
  · intro id
    have hfree := hquiet.not_writesTo id
    constructor
    · intro _ peer hpeer
      rw [hflags hpeer]
      exact iff_of_false Bool.false_ne_true Finmap.notMem_empty
    · intro h
      exact absurd (.inl h) hfree
    · intro h
      exact absurd (.inr (.inr h)) hfree
    · intro h
      exact absurd (.inr (.inl h)) hfree

/-! ### Every run -/

/-- In every run of such steps, whenever no operation is in progress, the flag
of each registered peer says whether there is a connection to it. -/
theorem flags_mirror_conns (crypto : NodePrimitives) (codec : Codec)
    {s : TransportCalls} (hrun : (machine crypto codec).Run (FlagSafe codec) s)
    (hquiet : s.Quiet) {id : Bytes} {peer : Peer}
    (hpeer : s.transport.registry.getPeer id = some peer) :
    peer.connected = true ↔ id ∈ s.transport.conns := by
  have hmirrored : s.Mirrored := by
    apply hrun.invariant
    · intro start hinitial
      exact hinitial.mirrored
    · intro before action _ hbefore henabled hsafe
      exact hbefore.next henabled hsafe
  exact (hmirrored.at_id id).settled (hquiet.not_writesTo id) hpeer

/-! ### Sample runs -/

/-- The client connects and its connection is closed again. -/
def sampleSession : List TransportAction :=
  sampleAccept ++ .requestClose 0 :: List.replicate 3 (.close 0 0)

theorem flags_mirror_conns_session :
    let s := (machine samplePrimitives (sampleCodec 1 2)).replay sampleCalls
      sampleSession
    ∃ peer, s.transport.registry.getPeer [1] = some peer ∧
      (peer.connected = true ↔ [1] ∈ s.transport.conns) := by
  have hreplays : (machine samplePrimitives (sampleCodec 1 2)).Replays
      (FlagSafe (sampleCodec 1 2)) sampleCalls sampleSession := by decide
  refine ⟨{ id := [1], publicKey := [2], score := 50 }, by decide, ?_⟩
  exact flags_mirror_conns samplePrimitives (sampleCodec 1 2)
    (Machine.Run.replay (.start sampleCalls_initial) hreplays)
    (by decide) (by decide)

theorem replaced_connection_clears_flag :
    ∃ s, (machine samplePrimitives (sampleCodec 1 2)).Reachable s ∧
      s.Quiet ∧ [1] ∈ s.transport.conns ∧
      ∃ peer, s.transport.registry.getPeer [1] = some peer ∧
        peer.connected = false := by
  have hreplays : (machine samplePrimitives (sampleCodec 1 2)).Replays
      (fun _ _ => True) sampleCalls sampleReconnect := by decide +kernel
  exact ⟨_, Machine.Run.replay (.start sampleCalls_initial) hreplays,
    by decide +kernel, by decide +kernel,
    { id := [1], publicKey := [2], score := 50 }, by decide +kernel, rfl⟩

end TransportCalls

end GoP2P.Node
