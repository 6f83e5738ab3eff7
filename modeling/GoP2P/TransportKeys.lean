import GoP2P.TransportAdmission

/-!
# What each transport operation does with keys

Every connection's secret was derived by the node itself from some public key.
Each operation keeps that, and its ghost results say which secret was used for
what: a signed challenge, a verified response, a sent or a handled message.
-/

namespace GoP2P.Node

variable {crypto : NodePrimitives} {codec : Codec}

namespace Transport

def SecretsDerived (crypto : NodePrimitives) (t : Transport) : Prop :=
  ∀ pc ∈ t.connections, ∃ publicKey,
    t.node.deriveSharedSecret crypto publicKey = .returned pc.sharedSecret

/-- The operation that took `t` to `t'` left the node alone and only added
connections with secrets the node derived. -/
structure KeepsKeys (crypto : NodePrimitives) (t t' : Transport) : Prop where
  node : t'.node = t.node
  secrets : t.SecretsDerived crypto → t'.SecretsDerived crypto

theorem KeepsKeys.of_eq {t t' : Transport} (hnode : t'.node = t.node)
    (hconnections : t'.connections = t.connections) :
    KeepsKeys crypto t t' := by
  refine ⟨hnode, ?_⟩
  intro hsecrets pc hpc
  rw [hnode]
  rw [hconnections] at hpc
  exact hsecrets pc hpc

theorem KeepsKeys.refl (t : Transport) : KeepsKeys crypto t t :=
  .of_eq rfl rfl

theorem KeepsKeys.trans {t u v : Transport}
    (hfirst : KeepsKeys crypto t u) (hsecond : KeepsKeys crypto u v) :
    KeepsKeys crypto t v where
  node := hsecond.node.trans hfirst.node
  secrets := fun hsecrets => hsecond.secrets (hfirst.secrets hsecrets)

theorem storeConnection_keepsKeys (t : Transport) (now : Time)
    {pc : PeerConnection} {publicKey : Bytes}
    (hsecret : t.node.deriveSharedSecret crypto publicKey =
      .returned pc.sharedSecret) :
    KeepsKeys crypto t (t.storeConnection now pc) := by
  refine ⟨rfl, ?_⟩
  intro hsecrets stored hstored
  rcases List.mem_append.mp hstored with hold | hnew
  · exact hsecrets stored hold
  · rw [List.mem_singleton] at hnew
    subst hnew
    exact ⟨publicKey, hsecret⟩

theorem setConnection_keepsKeys (t : Transport) {connection : ℕ}
    {pc updated : PeerConnection}
    (hpc : t.connections[connection]? = some pc)
    (hsecret : updated.sharedSecret = pc.sharedSecret) :
    KeepsKeys crypto t (t.setConnection connection updated) := by
  refine ⟨rfl, ?_⟩
  intro hsecrets stored hstored
  rcases List.mem_or_eq_of_mem_set hstored with hold | hnew
  · exact hsecrets stored hold
  · subst hnew
    rw [hsecret]
    exact hsecrets pc (List.mem_of_getElem? hpc)

theorem dropConnection_keepsKeys (t : Transport) (now : Time)
    (connection : ℕ) :
    KeepsKeys crypto t (t.dropConnection now connection) := by
  unfold dropConnection
  cases hpc : t.connections[connection]? with
  | none => exact .refl t
  | some pc =>
      have hset : KeepsKeys crypto t
          (t.setConnection connection { pc with closed := true }) :=
        setConnection_keepsKeys t hpc rfl
      exact hset.trans (.of_eq rfl rfl)

/-! ### Inbound handshakes -/

theorem acceptHandshake_keepsKeys (t : Transport) (input : UpgradeInput)
    {payload : HandshakePayload} {sharedSecret : Bytes}
    (hsecret : t.node.deriveSharedSecret crypto payload.identity.publicKey =
      .returned sharedSecret) :
    KeepsKeys crypto t
      (t.acceptHandshake crypto codec input payload sharedSecret).transport := by
  have hregistered : KeepsKeys crypto t
      { t with registry :=
          (findOrRegister t.registry input.now payload.identity).2 } :=
    .of_eq rfl rfl
  unfold acceptHandshake
  dsimp only
  split
  · exact hregistered
  · split
    · split
      · split
        · exact hregistered
        · exact hregistered.trans (storeConnection_keepsKeys _ _ hsecret)
      · exact hregistered
    · exact hregistered

theorem acceptHandshake_signed {t : Transport} {input : UpgradeInput}
    {payload signed : HandshakePayload} {sharedSecret secret : Bytes}
    (hsigned : (t.acceptHandshake crypto codec input payload
      sharedSecret).signed = some (signed, secret)) :
    signed = payload ∧ secret = sharedSecret := by
  have hcases : (t.acceptHandshake crypto codec input payload
        sharedSecret).signed = none ∨
      (t.acceptHandshake crypto codec input payload sharedSecret).signed =
        some (payload, sharedSecret) := by
    have hghost : (if payload.challenge.length > 0 then
          some (payload, sharedSecret) else none) = none ∨
        (if payload.challenge.length > 0 then
          some (payload, sharedSecret) else none) =
            some (payload, sharedSecret) := by
      by_cases hchallenge : payload.challenge.length > 0
      · exact .inr (if_pos hchallenge)
      · exact .inl (if_neg hchallenge)
    unfold acceptHandshake
    dsimp only
    generalize (if payload.challenge.length > 0 then
      some (payload, sharedSecret) else none) = ghost at hghost ⊢
    split
    · exact .inl rfl
    · split
      · split
        · split <;> exact hghost
        · exact hghost
      · exact .inl rfl
  rcases hcases with hnone | hsome
  · simp [hnone] at hsigned
  · rw [hsome, Option.some.injEq, Prod.mk.injEq] at hsigned
    exact ⟨hsigned.1.symm, hsigned.2.symm⟩

theorem handleWSUpgrade_keepsKeys (t : Transport) (input : UpgradeInput) :
    KeepsKeys crypto t (t.handleWSUpgrade crypto codec input).transport := by
  unfold handleWSUpgrade
  split
  · exact .refl t
  · split
    · exact .refl t
    · split
      · unfold answerHandshake
        split
        · exact .refl t
        · split
          · split
            · exact .refl t
            · exact acceptHandshake_keepsKeys t input ‹_›
          · exact .refl t
      · exact .refl t

/-- A challenge is signed only when the frame presents it, under the secret
the node shares with the presented key. -/
theorem handleWSUpgrade_signed {t : Transport} {input : UpgradeInput}
    {payload : HandshakePayload} {secret : Bytes}
    (hsigned : (t.handleWSUpgrade crypto codec input).signed =
      some (payload, secret)) :
    t.presentedHandshake codec input = some payload ∧
      t.node.deriveSharedSecret crypto payload.identity.publicKey =
        .returned secret := by
  unfold handleWSUpgrade at hsigned
  split at hsigned
  · cases hsigned
  · split at hsigned
    · cases hsigned
    · split at hsigned
      next presented hpresented =>
        unfold answerHandshake at hsigned
        split at hsigned
        · cases hsigned
        · split at hsigned
          next sharedSecret hsecret =>
            split at hsigned
            · cases hsigned
            · rcases acceptHandshake_signed hsigned with ⟨rfl, rfl⟩
              exact ⟨hpresented, hsecret⟩
          next => cases hsigned
      next => cases hsigned

/-! ### Outbound handshakes -/

theorem verifyHandshakeAck_eq_returned_iff
    {node : NodeManager} {challenge secret : Bytes}
    {ackPayload : HandshakeAckPayload} :
    verifyHandshakeAck crypto node challenge ackPayload = .returned secret ↔
      node.deriveSharedSecret crypto ackPayload.identity.publicKey =
          .returned secret ∧
        ∃ subKeys, deriveSubKeys crypto secret = .returned subKeys ∧
          ackPayload.challengeResponse ≠ [] ∧
          verifyChallenge crypto challenge ackPayload.challengeResponse
            subKeys.chlKey = true := by
  unfold verifyHandshakeAck
  simp only [Outcome.bind_eq_returned_iff, Outcome.mapError_eq_returned_iff]
  constructor
  · intro h
    rcases h with ⟨derived, hderived, subKeys, hkeys, hrest⟩
    split at hrest
    · cases hrest
    · split at hrest
      · cases hrest
      next hresponse hverified =>
        cases hrest
        exact ⟨hderived, subKeys, hkeys, by simpa using hresponse,
          by simpa using hverified⟩
  · intro h
    rcases h with ⟨hderived, subKeys, hkeys, hresponse, hverified⟩
    refine ⟨secret, hderived, subKeys, hkeys, ?_⟩
    rw [if_neg (by simpa using hresponse), if_neg (by simpa using hverified)]
    rfl

theorem completeConnect_keepsKeys (t : Transport) (peer : Peer)
    (challenge : Bytes) (now : Time) (frame : Except CoreError Bytes) :
    KeepsKeys crypto t
      (t.completeConnect crypto codec peer challenge now frame).transport := by
  unfold completeConnect
  dsimp only
  split
  next ackPayload _ =>
    split
    next sharedSecret hverified =>
      rw [Outcome.mapError_eq_returned_iff] at hverified
      have hsecret := (verifyHandshakeAck_eq_returned_iff.mp hverified).1
      have hrecorded : KeepsKeys crypto t
          { t with
            registry := recordPeer t.registry now
              (adoptIdentity peer ackPayload.identity) } :=
        .of_eq rfl rfl
      exact hrecorded.trans (storeConnection_keepsKeys _ _ hsecret)
    all_goals exact .refl t
  all_goals exact .refl t

/-- A client session succeeds only on an ack whose response answers its
challenge under the secret it shares with the key of that ack. -/
theorem completeConnect_verified {t : Transport} {peer : Peer}
    {challenge publicKey : Bytes} {now : Time}
    {frame : Except CoreError Bytes}
    (hverified : (t.completeConnect crypto codec peer challenge now
      frame).verified = some publicKey) :
    ∃ ackPayload secret, readHandshakeAck codec frame = .returned ackPayload ∧
      publicKey = ackPayload.identity.publicKey ∧
      verifyHandshakeAck crypto t.node challenge ackPayload =
        .returned secret := by
  unfold completeConnect at hverified
  dsimp only at hverified
  split at hverified
  next ackPayload hack =>
    rw [Outcome.mapError_eq_returned_iff] at hack
    split at hverified
    next secret hsecret =>
      rw [Outcome.mapError_eq_returned_iff] at hsecret
      rw [Option.some.injEq] at hverified
      exact ⟨ackPayload, secret, hack, hverified.symm, hsecret⟩
    all_goals cases hverified
  all_goals cases hverified

theorem startConnect_challenge {t : Transport} {peer : Peer}
    {input : ConnectInput} {challenge frame : Bytes}
    (hstarted : t.startConnect codec peer input =
      .returned (challenge, frame)) :
    ∃ random, input.random = .ok random ∧ challenge = random.toList := by
  unfold startConnect at hstarted
  rcases Outcome.bind_eq_returned_iff.mp hstarted with ⟨_, -, hsent⟩
  rw [Outcome.mapError_eq_returned_iff] at hsent
  unfold sendHandshake at hsent
  split at hsent
  · cases hsent
  · rcases Outcome.bind_eq_returned_iff.mp hsent with ⟨drawn, hdrawn, hrest⟩
    rw [Outcome.mapError_eq_returned_iff] at hdrawn
    simp only [Outcome.bind_eq_returned_iff, Outcome.mapError_eq_returned_iff,
      Outcome.pure_eq_returned, Outcome.returned.injEq, Prod.mk.injEq]
      at hrest
    rcases hrest with ⟨_, -, _, -, _, -, hchallenge, -⟩
    rcases Outcome.bind_eq_returned_iff.mp hdrawn with
      ⟨random, hrandom, hlist⟩
    rw [Outcome.mapError_eq_returned_iff,
      Outcome.ofExcept_eq_returned_iff] at hrandom
    cases hlist
    exact ⟨random, hrandom, hchallenge.symm⟩

/-! ### Established connections -/

theorem send_keepsKeys (t : Transport) (connection : ℕ) (msg : Message)
    (input : SendInput) :
    KeepsKeys crypto t
      (t.send crypto codec connection msg input).transport := by
  unfold send
  cases hpc : t.connections[connection]? with
  | none => exact .refl t
  | some pc =>
      dsimp only
      split
      · split
        · exact setConnection_keepsKeys t hpc rfl
        · exact .refl t
      all_goals exact .refl t

theorem send_frame {t : Transport} {connection : ℕ} {msg : Message}
    {input : SendInput} {frame : Bytes}
    (hframe : (t.send crypto codec connection msg input).frame = some frame) :
    ∃ pc, t.connections[connection]? = some pc ∧
      encryptMessage crypto codec msg pc.sharedSecret input.nonce =
        .returned frame := by
  unfold send at hframe
  cases hpc : t.connections[connection]? with
  | none =>
      rw [hpc] at hframe
      cases hframe
  | some pc =>
      rw [hpc] at hframe
      dsimp only at hframe
      refine ⟨pc, rfl, ?_⟩
      split at hframe
      next data hdata =>
        have hsame : data = frame := by
          split at hframe <;> exact Option.some.inj hframe
        rw [hdata, hsame]
      all_goals cases hframe

theorem dispatch_keepsKeys (t : Transport) (now : Time) (msg : Message) :
    KeepsKeys crypto t (t.dispatch now msg).transport := by
  unfold dispatch
  dsimp only
  split <;> exact .of_eq rfl rfl

theorem dispatch_handled {t : Transport} {now : Time} {msg handled : Message}
    (hhandled : (t.dispatch now msg).handled = some handled) :
    handled = msg := by
  unfold dispatch at hhandled
  dsimp only at hhandled
  split at hhandled
  · cases hhandled
  · dsimp only at hhandled
    split at hhandled
    · exact (Option.some.inj hhandled).symm
    · cases hhandled

@[simp] theorem allow_sharedSecret (pc : PeerConnection) (now : Time) :
    (pc.allow now).2.sharedSecret = pc.sharedSecret := by
  unfold PeerConnection.allow
  split <;> rfl

theorem readLoopTurn_keepsKeys (t : Transport) (connection : ℕ) (now : Time)
    (frame : Except CoreError Bytes) :
    KeepsKeys crypto t
      (t.readLoopTurn crypto codec connection now frame).transport := by
  unfold readLoopTurn
  cases hpc : t.connections[connection]? with
  | none => exact .refl t
  | some pc =>
      have hupdated : KeepsKeys crypto t
          (t.setConnection connection ((pc.markActivity now).allow now).2) :=
        setConnection_keepsKeys t hpc (allow_sharedSecret _ _)
      dsimp only
      split
      · exact .refl t
      · split
        · split
          · exact hupdated
          · split
            · exact hupdated.trans (dispatch_keepsKeys _ _ _)
            · exact hupdated
        · exact dropConnection_keepsKeys t now connection

/-- A message reaches the handler only if the frame decrypts to it under the
connection's secret. -/
theorem readLoopTurn_handled {t : Transport} {connection : ℕ} {now : Time}
    {frame : Except CoreError Bytes} {msg : Message}
    (hhandled : (t.readLoopTurn crypto codec connection now frame).handled =
      some msg) :
    ∃ pc data, t.connections[connection]? = some pc ∧ frame = .ok data ∧
      decryptMessage crypto codec data pc.sharedSecret = .returned msg := by
  unfold readLoopTurn at hhandled
  cases hpc : t.connections[connection]? with
  | none =>
      rw [hpc] at hhandled
      cases hhandled
  | some pc =>
      rw [hpc] at hhandled
      dsimp only at hhandled
      split at hhandled
      · cases hhandled
      · split at hhandled
        next data hdata =>
          have hframe : frame = .ok data := by
            rcases Outcome.bind_eq_returned_iff.mp hdata with
              ⟨read, hread, hrest⟩
            rw [Outcome.ofExcept_eq_returned_iff] at hread
            split at hrest
            · cases hrest
            · cases hrest
              exact hread
          split at hhandled
          · cases hhandled
          · split at hhandled
            next decrypted hdecrypted =>
              rw [dispatch_handled hhandled]
              exact ⟨pc, data, rfl, hframe, hdecrypted⟩
            next => cases hhandled
        next => cases hhandled

end Transport

end GoP2P.Node
