import GoP2P.Runs
import GoP2P.TransportAdmission

/-!
# The two files of a node's identity

`GenerateIdentity` writes the private key to one file and the public identity
to another, and `Delete` removes both.  Every file operation may fail, a write
that fails may have replaced the file by a part of the new content, and the
process may stop between any two operations.

The key is overwritten before the identity is, so whatever ends a call between
the two leaves the new key with the old identity.  Nothing of the kind happens
as long as an identity is only generated where no identity file is readable:
then a file that does become readable is the last step of the call that wrote
the key.
-/

namespace GoP2P.Node

structure KeyPair where
  privateKey : Bytes
  publicKey : Bytes
  deriving DecidableEq, Repr

/-- The library calls of the identity's persistence. -/
structure IdentityLibrary where
  loadKeyPair : Bytes → Except CoreError KeyPair
  publicKeyBase64 : Bytes → Bytes
  jsonMarshal : NodeIdentity → Except CoreError Bytes
  jsonUnmarshal : Bytes → Except CoreError NodeIdentity

/-- A missing file reads as the content `none`. -/
structure IdentityDisk where
  key : Option Bytes := none
  config : Option Bytes := none
  deriving DecidableEq, Repr

/-- Whether a read fails on a file that is there, and with which error a read
that fails does so. -/
structure ReadFault where
  fails : Bool
  error : CoreError
  deriving DecidableEq, Repr

def ReadFault.read (fault : ReadFault) (file : Option Bytes) :
    Outcome CoreError Bytes :=
  match file with
  | some content => if fault.fails then .failed fault.error else .returned content
  | none => .failed fault.error

theorem ReadFault.eq_some_of_read {fault : ReadFault} {file : Option Bytes}
    {content : Bytes} (hread : fault.read file = .returned content) :
    file = some content := by
  unfold read at hread
  cases file with
  | none => cases hread
  | some stored =>
      dsimp only at hread
      split_ifs at hread
      cases hread
      rfl

/-- How a file operation ends.  After a write that failed the file holds what
it held before, or as many bytes of the new content as are given. -/
inductive FileOutcome where
  | done
  | failed (error : CoreError) (left : Option ℕ)
  deriving DecidableEq, Repr

def FileOutcome.content (outcome : FileOutcome) (data : Bytes)
    (before : Option Bytes) : Option Bytes :=
  match outcome with
  | .done => some data
  | .failed _ none => before
  | .failed _ (some written) => some (data.take written)

/-- The next file operation of `GenerateIdentity`; `data` is the marshalled
identity. -/
inductive GenerateStage where
  | keyDir
  | keyFile
  | keyMode
  | configDir
  | configFile (data : Bytes)
  deriving DecidableEq, Repr

inductive DeleteStage where
  | key
  | config
  deriving DecidableEq, Repr

inductive ManagerCall where
  | generateIdentity (stage : GenerateStage)
  | delete (stage : DeleteStage)
  deriving DecidableEq, Repr

/-- `results` and `generated` are the history: what the calls returned, and the
key pairs and identities that `GenerateIdentity` made. -/
structure IdentityState where
  disk : IdentityDisk := {}
  manager : NodeManager := {}
  call : Option ManagerCall := none
  results : List (Except CoreError Unit) := []
  generated : List (KeyPair × NodeIdentity) := []

inductive IdentityAction where
  | generateIdentity (name : Bytes) (role : NodeRole) (now : Time)
      (keyPair : Except CoreError KeyPair)
  | delete
  | advance (outcome : FileOutcome)
  | restart (config key : ReadFault)

section Calls

variable (crypto : NodePrimitives) (lib : IdentityLibrary)

def newIdentity (keyPair : KeyPair) (name : Bytes) (role : NodeRole)
    (now : Time) : NodeIdentity where
  id := nodeID crypto keyPair.publicKey
  name := name
  publicKey := lib.publicKeyBase64 keyPair.publicKey
  createdAt := now
  role := role

/-- `loadIdentity` on a manager that is left as it is when the call fails. -/
def loadIdentity (disk : IdentityDisk) (config key : ReadFault) :
    Outcome CoreError NodeManager := do
  let wrap message := CoreError.wrap "NodeManager.loadIdentity" (text message)
  let content ← (config.read disk.config).mapError
    (wrap "failed to read identity")
  let identity ← (Outcome.ofExcept (lib.jsonUnmarshal content)).mapError
    (wrap "failed to unmarshal identity")
  let privateKey ← (key.read disk.key).mapError
    (wrap "failed to read private key")
  let _ ← (Outcome.ofExcept (lib.loadKeyPair privateKey)).mapError
    (wrap "failed to load keypair")
  pure { identity := some identity, privateKey := some privateKey }

/-- `NewNodeManagerWithPaths`: without an identity that loads, the manager
starts empty. -/
def newNodeManagerWithPaths (disk : IdentityDisk) (config key : ReadFault) :
    NodeManager :=
  match loadIdentity lib disk config key with
  | .returned n => n
  | _ => {}

namespace IdentityState

def finish (s : IdentityState) (result : Except CoreError Unit) :
    IdentityState :=
  { s with call := none, results := s.results ++ [result] }

def savePrivateKeyFailed (message : String) (err : CoreError) : CoreError :=
  .wrap "NodeManager.GenerateIdentity" (text "failed to save private key")
    (.wrap "NodeManager.savePrivateKey" (text message) err)

def saveIdentityFailed (message : String) (err : CoreError) : CoreError :=
  .wrap "NodeManager.GenerateIdentity" (text "failed to save identity")
    (.wrap "NodeManager.saveIdentity" (text message) err)

def stay (s : IdentityState) (stage : GenerateStage) : IdentityState :=
  { s with call := some (.generateIdentity stage) }

/-- One file operation of `savePrivateKey` and `saveIdentity`. -/
def advanceGenerate (s : IdentityState) (outcome : FileOutcome) :
    GenerateStage → IdentityState
  | .keyDir =>
      match outcome with
      | .done => s.stay .keyFile
      | .failed err _ => s.finish (.error
          (savePrivateKeyFailed "failed to create key directory" err))
  | .keyFile =>
      let data := s.manager.privateKey.getD []
      let s := { s with disk :=
        { s.disk with key := outcome.content data s.disk.key } }
      match outcome with
      | .done => s.stay .keyMode
      | .failed err _ => s.finish (.error
          (savePrivateKeyFailed "failed to write private key" err))
  | .keyMode =>
      match outcome with
      | .done => s.stay .configDir
      | .failed err _ => s.finish (.error
          (savePrivateKeyFailed "failed to set private key permissions" err))
  | .configDir =>
      match outcome with
      | .done =>
          match lib.jsonMarshal (s.manager.identity.getD {}) with
          | .ok data => s.stay (.configFile data)
          | .error err => s.finish (.error
              (saveIdentityFailed "failed to marshal identity" err))
      | .failed err _ => s.finish (.error
          (saveIdentityFailed "failed to create config directory" err))
  | .configFile data =>
      let s := { s with disk :=
        { s.disk with config := outcome.content data s.disk.config } }
      match outcome with
      | .done => s.finish (.ok ())
      | .failed err _ => s.finish (.error
          (saveIdentityFailed "failed to write identity" err))

/-- One removal of `Delete`; a file that is absent is passed over. -/
def advanceDelete (s : IdentityState) (outcome : FileOutcome) :
    DeleteStage → IdentityState
  | .key =>
      match s.disk.key, outcome with
      | some _, .failed err _ => s.finish (.error
          (.wrap "NodeManager.Delete" (text "failed to remove private key") err))
      | _, _ =>
          { s with
            disk := { s.disk with key := none }
            call := some (.delete .config) }
  | .config =>
      match s.disk.config, outcome with
      | some _, .failed err _ => s.finish (.error
          (.wrap "NodeManager.Delete" (text "failed to remove identity") err))
      | _, _ =>
          { s with
            disk := { s.disk with config := none }
            manager := {} }.finish (.ok ())

def next (s : IdentityState) : IdentityAction → IdentityState
  | .generateIdentity name role now keyPair =>
      match keyPair with
      | .error err => s.finish (.error (.wrap "NodeManager.GenerateIdentity"
          (text "failed to generate keypair") err))
      | .ok keyPair =>
          let identity := newIdentity crypto lib keyPair name role now
          { s with
            manager :=
              { identity := some identity
                privateKey := some keyPair.privateKey }
            call := some (.generateIdentity .keyDir)
            generated := s.generated ++ [(keyPair, identity)] }
  | .delete => { s with call := some (.delete .key) }
  | .advance outcome =>
      match s.call with
      | none => s
      | some (.generateIdentity stage) => s.advanceGenerate lib outcome stage
      | some (.delete stage) => s.advanceDelete outcome stage
  | .restart config key =>
      { s with
        manager := newNodeManagerWithPaths lib s.disk config key
        call := none }

/-- The manager's lock lets one call in at a time.  A generated key pair is the
one that its private key loads as. -/
def Enabled (s : IdentityState) : IdentityAction → Prop
  | .generateIdentity _ _ _ keyPair => s.call = none ∧
      match keyPair with
      | .ok keyPair => lib.loadKeyPair keyPair.privateKey = .ok keyPair
      | .error _ => True
  | .delete => s.call = none
  | .advance _ => s.call ≠ none
  | .restart _ _ => True

instance (s : IdentityState) : DecidablePred (s.Enabled lib)
  | .generateIdentity _ _ _ (.ok _) => inferInstanceAs (Decidable (_ ∧ _))
  | .generateIdentity _ _ _ (.error _) => inferInstanceAs (Decidable (_ ∧ True))
  | .delete => inferInstanceAs (Decidable (_ = _))
  | .advance _ => inferInstanceAs (Decidable (_ ≠ _))
  | .restart _ _ => .isTrue trivial

end IdentityState

def identityMachine : Machine IdentityState IdentityAction where
  initial s := s = {}
  enabled := IdentityState.Enabled lib
  next := IdentityState.next crypto lib

instance (s : IdentityState) (action : IdentityAction) :
    Decidable ((identityMachine crypto lib).enabled s action) :=
  inferInstanceAs (Decidable (s.Enabled lib action))

end Calls

/-! ## What the files hold -/

section Invariant

variable {crypto : NodePrimitives} {lib : IdentityLibrary}

/-- Marshalling an identity that was generated and reading it back keeps the ID
and the public key, and no proper part of the text is an identity. -/
structure IdentityLibrary.Restores (lib : IdentityLibrary)
    (crypto : NodePrimitives) : Prop where
  keeps : ∀ ⦃keyPair name role now data⦄,
    lib.loadKeyPair keyPair.privateKey = .ok keyPair →
    lib.jsonMarshal (newIdentity crypto lib keyPair name role now) = .ok data →
    ∃ identity, lib.jsonUnmarshal data = .ok identity ∧
      identity.id = nodeID crypto keyPair.publicKey ∧
      identity.publicKey = lib.publicKeyBase64 keyPair.publicKey
  cuts : ∀ ⦃keyPair name role now data⦄ (written : ℕ),
    lib.loadKeyPair keyPair.privateKey = .ok keyPair →
    lib.jsonMarshal (newIdentity crypto lib keyPair name role now) = .ok data →
    written < data.length →
    ∃ err, lib.jsonUnmarshal (data.take written) = .error err

/-- The identity file as far as it can be read. -/
def IdentityDisk.identity (lib : IdentityLibrary) (disk : IdentityDisk) :
    Option NodeIdentity :=
  disk.config.bind fun data => (lib.jsonUnmarshal data).toOption

def IdentityDisk.Unreadable (lib : IdentityLibrary) (disk : IdentityDisk) :
    Prop :=
  disk.identity lib = none

instance (lib : IdentityLibrary) (disk : IdentityDisk) :
    Decidable (disk.Unreadable lib) :=
  inferInstanceAs (Decidable (_ = _))

/-- The key pair and the identity of one `GenerateIdentity` call. -/
def Generated (crypto : NodePrimitives) (lib : IdentityLibrary)
    (entry : KeyPair × NodeIdentity) : Prop :=
  lib.loadKeyPair entry.1.privateKey = .ok entry.1 ∧
    ∃ name role now, entry.2 = newIdentity crypto lib entry.1 name role now

/-- The identity file is whole and its call's, and so is the key file if it is
there. -/
def IdentityDisk.Paired (lib : IdentityLibrary)
    (generated : List (KeyPair × NodeIdentity)) (disk : IdentityDisk) : Prop :=
  ∃ entry ∈ generated, ∃ data, lib.jsonMarshal entry.2 = .ok data ∧
    disk.config = some data ∧
    (disk.key = none ∨ disk.key = some entry.1.privateKey)

/-- What `GenerateIdentity` has done when it comes to a stage. -/
def GenerateStage.Reached (lib : IdentityLibrary) (disk : IdentityDisk)
    (entry : KeyPair × NodeIdentity) : GenerateStage → Prop
  | .keyDir | .keyFile => True
  | .keyMode | .configDir => disk.key = some entry.1.privateKey
  | .configFile data => disk.key = some entry.1.privateKey ∧
      lib.jsonMarshal entry.2 = .ok data

structure IdentityState.Sound (crypto : NodePrimitives)
    (lib : IdentityLibrary) (s : IdentityState) : Prop where
  generated : ∀ entry ∈ s.generated, Generated crypto lib entry
  disk : s.disk.Unreadable lib ∨ s.disk.Paired lib s.generated
  generating : ∀ ⦃stage⦄, s.call = some (.generateIdentity stage) →
    s.disk.Unreadable lib ∧
      ∃ entry ∈ s.generated,
        s.manager = ⟨some entry.2, some entry.1.privateKey⟩ ∧
          stage.Reached lib s.disk entry

namespace IdentityState.Sound

variable {s : IdentityState}

theorem finish (hgenerated : ∀ entry ∈ s.generated, Generated crypto lib entry)
    (hdisk : s.disk.Unreadable lib ∨ s.disk.Paired lib s.generated)
    (result : Except CoreError Unit) : (s.finish result).Sound crypto lib where
  generated := hgenerated
  disk := hdisk
  generating := fun _ hcall => by cases hcall

theorem stay (hgenerated : ∀ entry ∈ s.generated, Generated crypto lib entry)
    (hdisk : s.disk.Unreadable lib) (entry : KeyPair × NodeIdentity)
    (hentry : entry ∈ s.generated)
    (hmanager : s.manager = ⟨some entry.2, some entry.1.privateKey⟩)
    {stage : GenerateStage} (hstage : stage.Reached lib s.disk entry) :
    (s.stay stage).Sound crypto lib where
  generated := hgenerated
  disk := .inl hdisk
  generating := fun stage' hcall => by
    cases hcall
    exact ⟨hdisk, entry, hentry, hmanager, hstage⟩

/-- The last write makes the pair complete, or leaves the identity file
unreadable. -/
theorem configFile (hlib : lib.Restores crypto)
    {entry : KeyPair × NodeIdentity} (hentry : entry ∈ s.generated)
    (hgenerated : Generated crypto lib entry) (hbefore : s.disk.Unreadable lib)
    {data : Bytes} (hdata : lib.jsonMarshal entry.2 = .ok data)
    {outcome : FileOutcome} {disk : IdentityDisk}
    (hkey : disk.key = some entry.1.privateKey)
    (hconfig : disk.config = outcome.content data s.disk.config) :
    disk.Unreadable lib ∨ disk.Paired lib s.generated := by
  have hpaired : disk.config = some data → disk.Paired lib s.generated :=
    fun hwhole => ⟨entry, hentry, data, hdata, hwhole, .inr hkey⟩
  match outcome with
  | .done => exact .inr (hpaired hconfig)
  | .failed _ none =>
      left
      rw [IdentityDisk.Unreadable, IdentityDisk.identity, hconfig]
      exact hbefore
  | .failed _ (some written) =>
      rcases Nat.lt_or_ge written data.length with hcut | hwhole
      · obtain ⟨hload, name, role, now, hidentity⟩ := hgenerated
        rw [hidentity] at hdata
        obtain ⟨err, herr⟩ := hlib.cuts written hload hdata hcut
        left
        rw [IdentityDisk.Unreadable, IdentityDisk.identity, hconfig]
        change (lib.jsonUnmarshal (data.take written)).toOption = none
        rw [herr]
        rfl
      · refine .inr (hpaired ?_)
        rw [hconfig]
        exact congrArg some (List.take_of_length_le hwhole)

theorem advanceGenerate (hlib : lib.Restores crypto)
    (hsound : s.Sound crypto lib) {stage : GenerateStage}
    (hcall : s.call = some (.generateIdentity stage)) (outcome : FileOutcome) :
    (s.advanceGenerate lib outcome stage).Sound crypto lib := by
  obtain ⟨hdisk, entry, hentry, hmanager, hstage⟩ := hsound.generating hcall
  have hgenerated := hsound.generated
  cases stage with
  | keyDir =>
      cases outcome with
      | done => exact stay hgenerated hdisk entry hentry hmanager trivial
      | failed err left => exact finish hgenerated (.inl hdisk) _
  | keyFile =>
      -- the identity file is not touched, so it is as unreadable as before
      cases outcome with
      | done =>
          refine stay ?_ ?_ entry ?_ ?_ ?_
          · exact hgenerated
          · exact hdisk
          · exact hentry
          · exact hmanager
          · change some (s.manager.privateKey.getD []) =
              some entry.1.privateKey
            rw [hmanager]
            rfl
      | failed err left =>
          refine finish ?_ (.inl ?_) _
          · exact hgenerated
          · exact hdisk
  | keyMode =>
      cases outcome with
      | done => exact stay hgenerated hdisk entry hentry hmanager hstage
      | failed err left => exact finish hgenerated (.inl hdisk) _
  | configDir =>
      cases outcome with
      | done =>
          have hidentity : s.manager.identity.getD {} = entry.2 := by
            rw [hmanager]
            rfl
          simp only [IdentityState.advanceGenerate, hidentity]
          cases hdata : lib.jsonMarshal entry.2 with
          | ok data =>
              exact stay hgenerated hdisk entry hentry hmanager ⟨hstage, hdata⟩
          | error err => exact finish hgenerated (.inl hdisk) _
      | failed err left => exact finish hgenerated (.inl hdisk) _
  | configFile data =>
      have hafter : IdentityDisk.Unreadable lib
            ⟨s.disk.key, outcome.content data s.disk.config⟩ ∨
          IdentityDisk.Paired lib s.generated
            ⟨s.disk.key, outcome.content data s.disk.config⟩ :=
        configFile hlib hentry (hgenerated entry hentry) hdisk hstage.2
          hstage.1 rfl
      cases outcome with
      | done | failed =>
          refine finish ?_ ?_ _
          · exact hgenerated
          · exact hafter

theorem key_removed (hsound : s.Sound crypto lib) :
    ({ s.disk with key := none } : IdentityDisk).Unreadable lib ∨
      ({ s.disk with key := none } : IdentityDisk).Paired lib s.generated := by
  rcases hsound.disk with hunreadable | ⟨entry, hentry, data, hdata, hconfig, -⟩
  · exact .inl hunreadable
  · exact .inr ⟨entry, hentry, data, hdata, hconfig, .inl rfl⟩

theorem advanceDelete (hsound : s.Sound crypto lib) (stage : DeleteStage)
    (outcome : FileOutcome) :
    (s.advanceDelete outcome stage).Sound crypto lib := by
  have hremoved : ({ s with
      disk := { s.disk with key := none }
      call := some (.delete .config) } : IdentityState).Sound crypto lib :=
    ⟨hsound.generated, hsound.key_removed, fun _ hcall => by cases hcall⟩
  have hdone : (({ s with
      disk := { s.disk with config := none }
      manager := {} } : IdentityState).finish (.ok ())).Sound crypto lib :=
    ⟨hsound.generated, .inl rfl, fun _ hcall => by cases hcall⟩
  cases stage with
  | key =>
      cases hkey : s.disk.key with
      | none => simpa only [IdentityState.advanceDelete, hkey] using hremoved
      | some content =>
          cases outcome with
          | done => simpa only [IdentityState.advanceDelete, hkey] using hremoved
          | failed err left =>
              simp only [IdentityState.advanceDelete, hkey]
              exact finish hsound.generated hsound.disk _
  | config =>
      cases hconfig : s.disk.config with
      | none => simpa only [IdentityState.advanceDelete, hconfig] using hdone
      | some content =>
          cases outcome with
          | done => simpa only [IdentityState.advanceDelete, hconfig] using hdone
          | failed err left =>
              simp only [IdentityState.advanceDelete, hconfig]
              exact finish hsound.generated hsound.disk _

end IdentityState.Sound

/-- An identity is generated only where no identity file is readable. -/
def GeneratesAfresh (lib : IdentityLibrary) (s : IdentityState) :
    IdentityAction → Prop
  | .generateIdentity _ _ _ _ => s.disk.Unreadable lib
  | .delete | .advance _ | .restart _ _ => True

instance (lib : IdentityLibrary) (s : IdentityState) :
    DecidablePred (GeneratesAfresh lib s)
  | .generateIdentity _ _ _ _ =>
      inferInstanceAs (Decidable (s.disk.Unreadable lib))
  | .delete => .isTrue trivial
  | .advance _ => .isTrue trivial
  | .restart _ _ => .isTrue trivial

theorem IdentityState.Sound.next (hlib : lib.Restores crypto)
    {s : IdentityState} (hsound : s.Sound crypto lib) {action : IdentityAction}
    (henabled : s.Enabled lib action) (hallowed : GeneratesAfresh lib s action) :
    (s.next crypto lib action).Sound crypto lib := by
  cases action with
  | generateIdentity name role now keyPair =>
      cases keyPair with
      | error err => exact finish hsound.generated hsound.disk _
      | ok keyPair =>
          have hentry : (keyPair, newIdentity crypto lib keyPair name role now) ∈
              s.generated ++
                [(keyPair, newIdentity crypto lib keyPair name role now)] :=
            List.mem_append_right _ List.mem_cons_self
          refine ⟨?_, .inl hallowed, ?_⟩
          · intro entry hmem
            rcases List.mem_append.mp hmem with hold | hnew
            · exact hsound.generated entry hold
            · rw [List.mem_singleton.mp hnew]
              exact ⟨henabled.2, name, role, now, rfl⟩
          · intro stage hcall
            cases hcall
            exact ⟨hallowed, _, hentry, rfl, trivial⟩
  | delete =>
      exact ⟨hsound.generated, hsound.disk, fun _ hcall => by cases hcall⟩
  | advance outcome =>
      cases hcall : s.call with
      | none => exact absurd hcall henabled
      | some call =>
          simp only [IdentityState.next, hcall]
          cases call with
          | generateIdentity stage =>
              exact hsound.advanceGenerate hlib hcall outcome
          | delete stage => exact hsound.advanceDelete stage outcome
  | restart config key =>
      exact ⟨hsound.generated, hsound.disk, fun _ hcall => by cases hcall⟩

theorem sound_of_run (hlib : lib.Restores crypto) {s : IdentityState}
    (hrun : (identityMachine crypto lib).Run (GeneratesAfresh lib) s) :
    s.Sound crypto lib := by
  refine hrun.invariant ?_ ?_
  · rintro state rfl
    exact ⟨by simp, .inl rfl, fun _ hcall => by cases hcall⟩
  · intro state action _ hsound henabled hallowed
    exact hsound.next hlib henabled hallowed

theorem loadIdentity_eq_returned {disk : IdentityDisk} {config key : ReadFault}
    {n : NodeManager}
    (hload : loadIdentity lib disk config key = .returned n) :
    ∃ data identity privateKey keyPair, disk.config = some data ∧
      lib.jsonUnmarshal data = .ok identity ∧ disk.key = some privateKey ∧
      lib.loadKeyPair privateKey = .ok keyPair ∧
      n = { identity := some identity, privateKey := some privateKey } := by
  unfold loadIdentity at hload
  obtain ⟨data, hdata, hload⟩ := Outcome.bind_eq_returned_iff.mp hload
  obtain ⟨identity, hidentity, hload⟩ := Outcome.bind_eq_returned_iff.mp hload
  obtain ⟨privateKey, hkey, hload⟩ := Outcome.bind_eq_returned_iff.mp hload
  obtain ⟨keyPair, hpair, hload⟩ := Outcome.bind_eq_returned_iff.mp hload
  rw [Outcome.mapError_eq_returned_iff] at hdata hidentity hkey hpair
  rw [Outcome.ofExcept_eq_returned_iff] at hidentity hpair
  cases hload
  exact ⟨data, identity, privateKey, keyPair, config.eq_some_of_read hdata,
    hidentity, key.eq_some_of_read hkey, hpair, rfl⟩

/-- What loads is the identity of the private key it loads with, both from one
`GenerateIdentity` call. -/
theorem loaded_identity_is_of_key (hlib : lib.Restores crypto)
    {s : IdentityState}
    (hrun : (identityMachine crypto lib).Run (GeneratesAfresh lib) s)
    {config key : ReadFault} {n : NodeManager}
    (hload : loadIdentity lib s.disk config key = .returned n) :
    ∃ keyPair made identity, (keyPair, made) ∈ s.generated ∧
      n = { identity := some identity, privateKey := some keyPair.privateKey } ∧
      lib.loadKeyPair keyPair.privateKey = .ok keyPair ∧
      lib.jsonMarshal made >>= lib.jsonUnmarshal = .ok identity ∧
      identity.publicKey = lib.publicKeyBase64 keyPair.publicKey ∧
      identity.id = nodeID crypto keyPair.publicKey := by
  have hsound := sound_of_run hlib hrun
  obtain ⟨data, identity, privateKey, _, hconfig, hidentity, hkey, -, rfl⟩ :=
    loadIdentity_eq_returned hload
  rcases hsound.disk with hunreadable | ⟨entry, hentry, text, htext, hpaired, hstored⟩
  · rw [IdentityDisk.Unreadable, IdentityDisk.identity, hconfig] at hunreadable
    change (lib.jsonUnmarshal data).toOption = none at hunreadable
    rw [hidentity] at hunreadable
    cases hunreadable
  · rw [hconfig] at hpaired
    cases hpaired
    rw [hkey] at hstored
    rcases hstored with hnone | hsame
    · cases hnone
    · cases hsame
      obtain ⟨hpair, name, role, now, hmade⟩ := hsound.generated entry hentry
      have hrestored := htext
      rw [hmade] at hrestored
      obtain ⟨identity', hread, hid, hpublic⟩ := hlib.keeps hpair hrestored
      rw [hidentity] at hread
      cases hread
      refine ⟨entry.1, entry.2, identity, hentry, rfl, hpair, ?_, hpublic, hid⟩
      rw [htext]
      exact hidentity

end Invariant

/-! ## Generating over an identity -/

/-- One byte is a private key and its public key, and an identity is written
as its ID and its key. -/
def sampleLibrary : IdentityLibrary where
  loadKeyPair key :=
    if key.length = 1 then .ok ⟨key, key⟩ else .error (.plain (text "bad key"))
  publicKeyBase64 key := key
  jsonMarshal identity := .ok (identity.id ++ identity.publicKey)
  jsonUnmarshal data :=
    if data.length = 33 then
      .ok { id := data.take 32, publicKey := data.drop 32 }
    else .error (.plain (text "unexpected end of JSON input"))

theorem sampleLibrary_pair {keyPair : KeyPair}
    (hpair : sampleLibrary.loadKeyPair keyPair.privateKey = .ok keyPair) :
    keyPair.publicKey.length = 1 ∧
      keyPair.publicKey = keyPair.privateKey := by
  simp only [sampleLibrary] at hpair
  split_ifs at hpair with hlength
  have hsame := congrArg KeyPair.publicKey (Except.ok.inj hpair)
  dsimp only at hsame
  rw [← hsame]
  exact ⟨hlength, rfl⟩

theorem length_nodeID_samplePrimitives {key : Bytes} (hkey : key.length = 1) :
    (nodeID samplePrimitives key).length = 32 := by
  simp [nodeID, hexEncode, samplePrimitives, hkey]

theorem sampleLibrary_restores : sampleLibrary.Restores samplePrimitives where
  keeps := by
    intro keyPair name role now data hpair hdata
    cases hdata
    have hkey := (sampleLibrary_pair hpair).1
    have hid := length_nodeID_samplePrimitives hkey
    simp only [sampleLibrary, newIdentity, List.length_append, hid, hkey]
    exact ⟨_, rfl, List.take_left' hid, List.drop_left' hid⟩
  cuts := by
    intro keyPair name role now data written hpair hdata hcut
    cases hdata
    have hkey := (sampleLibrary_pair hpair).1
    have hid := length_nodeID_samplePrimitives hkey
    simp only [sampleLibrary, newIdentity, List.length_append, hid, hkey] at hcut ⊢
    rw [if_neg]
    · exact ⟨_, rfl⟩
    · rw [List.length_take, List.length_append, hid, hkey]
      omega

def readable : ReadFault := ⟨false, .eof⟩

/-- All the file operations of a `GenerateIdentity` call. -/
def generateWholly (key : UInt8) : List IdentityAction :=
  .generateIdentity [] .dual 0 (.ok ⟨[key], [key]⟩) ::
    List.replicate 5 (.advance .done)

theorem loaded_identity_is_of_key_once :
    ∃ keyPair made identity,
      (keyPair, made) ∈ ((identityMachine samplePrimitives sampleLibrary).replay
        {} (generateWholly 1)).generated ∧
      ({ identity := some { id := nodeID samplePrimitives [1], publicKey := [1] }
         privateKey := some [1] } : NodeManager) =
        { identity := some identity, privateKey := some keyPair.privateKey } ∧
      sampleLibrary.loadKeyPair keyPair.privateKey = .ok keyPair ∧
      sampleLibrary.jsonMarshal made >>= sampleLibrary.jsonUnmarshal =
        .ok identity ∧
      identity.publicKey = sampleLibrary.publicKeyBase64 keyPair.publicKey ∧
      identity.id = nodeID samplePrimitives keyPair.publicKey :=
  have hload : loadIdentity sampleLibrary
      ((identityMachine samplePrimitives sampleLibrary).replay {}
        (generateWholly 1)).disk readable readable =
      .returned
        { identity := some { id := nodeID samplePrimitives [1], publicKey := [1] }
          privateKey := some [1] } := by decide
  loaded_identity_is_of_key sampleLibrary_restores
    (.replay (.start rfl) (by decide)) hload

/-- The process stops when the second key is written and the second identity
is not. -/
theorem new_key_loads_with_old_identity :
    ¬ ∀ (crypto : NodePrimitives) (lib : IdentityLibrary),
      lib.Restores crypto →
      ∀ s, (identityMachine crypto lib).Reachable s →
      ∀ (config key : ReadFault) (n : NodeManager),
        loadIdentity lib s.disk config key = .returned n →
        ∃ keyPair identity,
          n = { identity := some identity
                privateKey := some keyPair.privateKey } ∧
          lib.loadKeyPair keyPair.privateKey = .ok keyPair ∧
          identity.publicKey = lib.publicKeyBase64 keyPair.publicKey ∧
          identity.id = nodeID crypto keyPair.publicKey := by
  intro hall
  have hrun : (identityMachine samplePrimitives sampleLibrary).Reachable
      ((identityMachine samplePrimitives sampleLibrary).replay {}
        (generateWholly 1 ++ (generateWholly 2).take 3)) :=
    .replay (.start rfl) (by decide)
  obtain ⟨keyPair, identity, hn, hpair, hpublic, -⟩ :=
    hall _ _ sampleLibrary_restores _ hrun readable readable
      { identity := some { id := nodeID samplePrimitives [1], publicKey := [1] }
        privateKey := some [2] } (by decide)
  simp only [NodeManager.mk.injEq, Option.some.injEq] at hn
  obtain ⟨rfl, hkey⟩ := hn
  have hsame := (sampleLibrary_pair hpair).2
  rw [← hkey] at hsame
  change [1] = keyPair.publicKey at hpublic
  rw [hsame] at hpublic
  revert hpublic
  decide

end GoP2P.Node
