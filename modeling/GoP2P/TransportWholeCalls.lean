import GoP2P.TransportCalls

/-!
# Steps and whole calls

The steps of a call, taken one after the other without interruption, do what
the model of the whole call does.  So every result about interleaved calls is
also one about calls that run alone.
-/

namespace GoP2P.Node.Transport

variable (crypto : NodePrimitives) (codec : Codec)

theorem acceptHandshake_eq_of_sendsAck (t : Transport) (input : UpgradeInput)
    (payload : HandshakePayload) (sharedSecret : Bytes) :
    let found := findOrRegister t.registry input.now payload.identity
    let registered := { t with registry := found.2 }
    let result := t.acceptHandshake crypto codec input payload sharedSecret
    (result.transport, result.connection) =
      if t.sendsAck crypto codec input payload sharedSecret found.1.id then
        (registered.storeConnection input.now
          (newConnection input.now found.1 sharedSecret),
          some t.connections.length)
      else (registered, none) := by
  unfold acceptHandshake sendsAck
  dsimp only
  -- Without the decidability instance the marshalled message can be generalised.
  rw [← Bool.cond_eq_ite]
  cases t.node.identity with
  | none => rfl
  | some identity =>
      dsimp only
      cases challengeResponse crypto payload.challenge sharedSecret with
      | returned response =>
          dsimp only
          generalize (newMessage input.messageID input.now .handshakeAck
              identity.id
              (findOrRegister t.registry input.now payload.identity).1.id
              (codec.marshalAck
                { identity := identity, challengeResponse := response,
                  accepted := true }) >>=
            fun ackMsg => Outcome.ofExcept (codec.marshalMessage ackMsg)) =
              ackData
          cases ackData with
          | returned data => cases input.written <;> rfl
          | _ => rfl
      | failed | panicked | unfinished => rfl

theorem handleWSUpgrade_eq_of_receivedHandshake
    (t : Transport) (input : UpgradeInput) :
    let result := t.handleWSUpgrade crypto codec input
    (result.transport, result.connection) =
      if (t.conns.keys.card : ℤ) + t.pendingConns ≥ t.config.maxConns then
        (t, none)
      else
        match t.receivedHandshake crypto codec input with
        | none => (t, none)
        | some (payload, sharedSecret) =>
            if t.registry.isPeerAllowed payload.identity.id
                payload.identity.publicKey then
              let accepted :=
                t.acceptHandshake crypto codec input payload sharedSecret
              (accepted.transport, accepted.connection)
            else (t, none) := by
  unfold handleWSUpgrade receivedHandshake answerHandshake
  dsimp only
  split
  · rfl
  · split
    · rfl
    · cases t.presentedHandshake codec input with
      | none => rfl
      | some payload =>
          dsimp only
          split
          · rfl
          · cases t.node.deriveSharedSecret crypto
                payload.identity.publicKey with
            | returned sharedSecret =>
                dsimp only
                cases t.registry.isPeerAllowed payload.identity.id
                  payload.identity.publicKey <;> rfl
            | failed | panicked | unfinished => rfl

theorem findOrRegister_eq_of_missing (registry : PeerRegistry) (now : Time)
    (identity : NodeIdentity) (hmissing : registry.getPeer identity.id = none) :
    findOrRegister registry now identity =
      (peerOf now identity,
        (RegistryCall.addPeer now (peerOf now identity)).apply registry) := by
  unfold findOrRegister RegistryCall.apply RegistryCall.run
  rw [hmissing]
  dsimp only
  split
  next added hadded => simp [peerOf, hadded]
  next hfailed =>
    split
    next added hadded => exact absurd hadded (hfailed added)
    next => rfl

/-- The six steps from the point where the peer is allowed. -/
theorem advanceUpgrade_iterate_authorised (t : Transport) {call : UpgradeCall}
    (hstage : call.stage = .authorised) (hconnection : call.connection = none)
    (input : UpgradeInput) :
    let final := (fun s : Transport × UpgradeCall =>
      s.1.advanceUpgrade crypto codec s.2 input)^[6] (t, call)
    let accepted := t.acceptHandshake crypto codec input call.payload
      call.sharedSecret
    final.2.stage = .returned ∧
      (final.1, final.2.connection) =
        ({ accepted.transport with
            pendingConns := accepted.transport.pendingConns - 1 },
          accepted.connection) := by
  have hack : ∀ registry peerID,
      { t with registry := registry }.sendsAck crypto codec input call.payload
          call.sharedSecret peerID =
        t.sendsAck crypto codec input call.payload call.sharedSecret peerID :=
    fun _ _ => rfl
  have haccepted := acceptHandshake_eq_of_sendsAck crypto codec t input
    call.payload call.sharedSecret
  intro final accepted
  dsimp only at haccepted
  cases hfound : t.registry.getPeer call.payload.identity.id with
  | none =>
      rw [findOrRegister_eq_of_missing t.registry input.now
        call.payload.identity hfound] at haccepted
      split at haccepted
      all_goals
        rename_i hsent
        rw [Prod.mk.injEq] at haccepted
        simp [final, accepted, haccepted, Function.iterate_succ_apply,
          advanceUpgrade, hstage, hfound, hack, hsent, hconnection,
          storeConnection, addConnection, newConnection]
  | some peer =>
      have hregistered : findOrRegister t.registry input.now
          call.payload.identity = (peer, t.registry) := by
        simp [findOrRegister, hfound]
      rw [hregistered] at haccepted
      split at haccepted
      all_goals
        rename_i hsent
        rw [Prod.mk.injEq] at haccepted
        simp [final, accepted, haccepted, Function.iterate_succ_apply,
          advanceUpgrade, hstage, hfound, hsent, hconnection, storeConnection,
          addConnection, newConnection]

/-- Counting the call as pending and taking it off again changes nothing. -/
theorem acceptHandshake_counted (t : Transport) (input : UpgradeInput)
    (payload : HandshakePayload) (sharedSecret : Bytes) :
    let accepted :=
      t.acceptHandshake crypto codec input payload sharedSecret
    let counted :=
      { t with pendingConns := t.pendingConns + 1 }.acceptHandshake crypto
        codec input payload sharedSecret
    ({ counted.transport with
        pendingConns := counted.transport.pendingConns - 1 },
      counted.connection) = (accepted.transport, accepted.connection) := by
  have haccepted := acceptHandshake_eq_of_sendsAck crypto codec t input payload
    sharedSecret
  have hcounted := acceptHandshake_eq_of_sendsAck crypto codec
    { t with pendingConns := t.pendingConns + 1 } input payload sharedSecret
  have hack : ∀ peerID,
      { t with pendingConns := t.pendingConns + 1 }.sendsAck crypto codec input
          payload sharedSecret peerID =
        t.sendsAck crypto codec input payload sharedSecret peerID :=
    fun _ => rfl
  intro accepted counted
  dsimp only at haccepted hcounted
  rw [hack] at hcounted
  rw [haccepted]
  split
  next hsent =>
    rw [if_pos hsent, Prod.mk.injEq] at hcounted
    simp [counted, hcounted, storeConnection]
  next hunsent =>
    rw [if_neg hunsent, Prod.mk.injEq] at hcounted
    simp [counted, hcounted]

theorem isPeerAllowed_eq (r : PeerRegistry) (peerID publicKey : Bytes) :
    r.isPeerAllowed peerID publicKey =
      (decide (r.authMode = .openMode) ||
        ((r.peers.lookup peerID).isSome || r.isPublicKeyAllowed publicKey)) := by
  unfold PeerRegistry.isPeerAllowed
  by_cases hmode : r.authMode = .openMode
  · simp [hmode]
  · cases (r.peers.lookup peerID).isSome <;> simp [hmode]

/-- The six steps up to the end of `IsPeerAllowed`. -/
theorem advanceUpgrade_iterate_screened (t : Transport) {input : UpgradeInput}
    (hroom : ¬(t.conns.keys.card : ℤ) + t.pendingConns ≥ t.config.maxConns)
    {payload : HandshakePayload} {sharedSecret : Bytes}
    (hreceived : t.receivedHandshake crypto codec input =
      some (payload, sharedSecret)) :
    ∃ call : UpgradeCall,
      (fun s : Transport × UpgradeCall =>
        s.1.advanceUpgrade crypto codec s.2 input)^[6] (t, {}) =
          ({ t with pendingConns := t.pendingConns + 1 }, call) ∧
      call.payload = payload ∧ call.sharedSecret = sharedSecret ∧
      call.connection = none ∧
      call.stage =
        if t.registry.isPeerAllowed payload.identity.id
            payload.identity.publicKey then .authorised
        else .leaving := by
  have hsame : ∀ pending : ℤ,
      { t with pendingConns := pending }.receivedHandshake crypto codec input =
        t.receivedHandshake crypto codec input := fun _ => rfl
  rw [isPeerAllowed_eq]
  by_cases hmode : t.registry.authMode = .openMode
  · simp [Function.iterate_succ_apply, advanceUpgrade, hroom, hsame, hreceived,
      hmode]
  · simp [Function.iterate_succ_apply, advanceUpgrade, hroom, hsame, hreceived,
      hmode]

/-- The steps of one call, taken one after the other without interruption,
do what the whole call does. -/
theorem advanceUpgrade_iterate (t : Transport) (input : UpgradeInput) :
    let final := (fun s : Transport × UpgradeCall =>
      s.1.advanceUpgrade crypto codec s.2 input)^[12] (t, {})
    let result := t.handleWSUpgrade crypto codec input
    final.2.stage = .returned ∧
      (final.1, final.2.connection) =
        (result.transport, result.connection) := by
  have hresult := handleWSUpgrade_eq_of_receivedHandshake crypto codec t input
  intro final result
  dsimp only at hresult
  rw [hresult]
  by_cases hfull :
      (t.conns.keys.card : ℤ) + t.pendingConns ≥ t.config.maxConns
  · simp [final, Function.iterate_succ_apply, advanceUpgrade, hfull]
  · rw [if_neg hfull]
    cases hreceived : t.receivedHandshake crypto codec input with
    | none =>
        have hsame : ∀ pending : ℤ,
            { t with pendingConns := pending }.receivedHandshake crypto codec
              input = none := fun _ => hreceived
        simp [final, Function.iterate_succ_apply, advanceUpgrade, hfull, hsame]
    | some handshake =>
        rcases handshake with ⟨payload, sharedSecret⟩
        dsimp only
        rcases advanceUpgrade_iterate_screened crypto codec t hfull hreceived with
          ⟨call, hsix, rfl, rfl, hconnection, hstage⟩
        have hfinal : final = (fun s : Transport × UpgradeCall =>
            s.1.advanceUpgrade crypto codec s.2 input)^[6]
              ({ t with pendingConns := t.pendingConns + 1 }, call) := by
          rw [← hsix, ← Function.iterate_add_apply]
        split at hstage
        next hallowed =>
          have htail := advanceUpgrade_iterate_authorised crypto codec
            { t with pendingConns := t.pendingConns + 1 } hstage hconnection
            input
          rw [hfinal, if_pos hallowed]
          refine ⟨htail.1, htail.2.trans ?_⟩
          exact acceptHandshake_counted crypto codec t input call.payload
            call.sharedSecret
        next hdenied =>
          rw [if_neg hdenied, hfinal]
          simp [Function.iterate_succ_apply, advanceUpgrade, hstage,
            hconnection]

theorem recordPeer_of_not_updated {registry : PeerRegistry} {peer : Peer}
    (hmissing : ∀ updated, registry.updatePeer peer ≠ .returned updated)
    (now : Time) :
    recordPeer registry now peer =
      (RegistryCall.addPeer now peer).apply registry := by
  unfold recordPeer RegistryCall.apply RegistryCall.run
  cases hupdated : registry.updatePeer peer with
  | returned updated => exact absurd hupdated (hmissing updated)
  | _ => cases hadded : registry.addPeer now peer <;> simp only [hadded]

theorem advanceConnect_iterate (t : Transport) (call : ConnectCall)
    (hstage : call.stage = .verified) (now : Time) :
    (fun s : Transport × ConnectCall => s.1.advanceConnect s.2 now)^[4]
        (t, call) =
      ({ t with registry := recordPeer t.registry now call.peer }.storeConnection
          now (newConnection now call.peer call.sharedSecret),
        { call with stage := .returned }) := by
  by_cases hupdated : ∃ updated, t.registry.updatePeer call.peer = .returned updated
  · rcases hupdated with ⟨updated, hupdated⟩
    simp [Function.iterate_succ_apply, advanceConnect, hstage, hupdated,
      storeConnection, addConnection, newConnection, recordPeer]
  · push Not at hupdated
    have hfirst : t.advanceConnect call now =
        (t, { call with stage := .unlisted }) := by
      unfold advanceConnect
      rw [hstage]
      dsimp only
      split
      next updated h => exact absurd h (hupdated updated)
      next => rfl
    rw [Function.iterate_succ_apply, hfirst,
      recordPeer_of_not_updated hupdated now]
    simp [advanceConnect, storeConnection, addConnection, newConnection]

/-- The steps of one outbound call, taken one after the other, do what the
whole call does. -/
theorem completeConnect_eq_of_verifiedConnect (t : Transport) (peer : Peer)
    (challenge : Bytes) (now : Time) (frame : Except CoreError Bytes) :
    (t.completeConnect crypto codec peer challenge now frame).transport =
      match t.verifiedConnect crypto codec peer challenge frame with
      | none => t
      | some call =>
          ((fun s : Transport × ConnectCall => s.1.advanceConnect s.2 now)^[4]
            (t, call)).1 := by
  unfold completeConnect verifiedConnect
  cases readHandshakeAck codec frame with
  | returned ackPayload =>
      dsimp only [Outcome.mapError]
      cases verifyHandshakeAck crypto t.node challenge ackPayload with
      | returned sharedSecret =>
          dsimp only
          rw [advanceConnect_iterate _ _ rfl]
          rfl
      | failed | panicked | unfinished => rfl
  | failed | panicked | unfinished => rfl

theorem advanceClose_iterate (t : Transport) (connection : ℕ) (now : Time) :
    ((fun s : Transport × CloseCall => s.1.advanceClose s.2 now)^[3]
        (t, { connection := connection })).1 =
      t.dropConnection now connection := by
  unfold dropConnection
  cases hpc : t.connections[connection]? with
  | none => simp [Function.iterate_succ_apply, advanceClose, hpc]
  | some pc =>
      simp [Function.iterate_succ_apply, advanceClose, hpc, setConnection]

end GoP2P.Node.Transport
