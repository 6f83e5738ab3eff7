import GoP2P.BundleConfinement
import GoP2P.Transport

/-!
# Deployments on a worker

`handleDeploy` installs a bundle that a peer has sent.  The install directory
is the miners directory joined with the name in the payload, and the checks of
the extraction are relative to it.  Nothing checks the name itself, so whether
a deployment stays in the miners directory depends on where the name leads.
-/

namespace GoP2P.Node

open LexicalPath

def BundleType.ofName (name : Bytes) : BundleType :=
  if name = text "profile" then .profile
  else if name = text "miner" then .miner
  else if name = text "full" then .full
  else .other name

structure DeployPayload where
  bundle : Option Bundle := none
  bundleType : Bytes := []
  data : Bytes := []
  checksum : Bytes := []
  name : Bytes := []
  deriving DecidableEq, Repr

structure DeployAckPayload where
  success : Bool
  name : Bytes := []
  error : Bytes := []
  deriving DecidableEq, Repr

structure DeployCodec where
  unmarshalDeploy : Bytes → Except CoreError DeployPayload
  marshalDeployAck : DeployAckPayload → Except CoreError Bytes
  /-- Any JSON value, given back as its text. -/
  unmarshalProfile : Bytes → Except CoreError Bytes
  base64Encode : Bytes → Bytes

structure ProfileManager where
  /-- The text of the error, when the profile cannot be saved. -/
  saveProfile : Bytes → Option Bytes

structure Worker where
  profileManager : Option ProfileManager
  dataDir : Bytes

def DeployPayload.toBundle (payload : DeployPayload) : Bundle :=
  match payload.bundle with
  | none =>
      { type := .ofName payload.bundleType, name := payload.name,
        data := payload.data, checksum := payload.checksum }
  | some bundle =>
      let bundle :=
        if bundle.name = [] then { bundle with name := payload.name }
        else bundle
      if bundle.type = .other [] then
        { bundle with type := .ofName payload.bundleType }
      else bundle

namespace Worker

def minersDir (w : Worker) : Bytes :=
  join [w.dataDir, text "lethean-desktop", text "miners"]

def installDir (w : Worker) (payload : DeployPayload) : Bytes :=
  join [w.minersDir, payload.name]

structure DeployInput where
  primitives : BundlePrimitives
  codec : DeployCodec
  disk : Disk
  tree : FileTree
  replyID : Bytes := []
  now : Time := 0

section

variable (w : Worker) (input : DeployInput)

def password (conn : Option PeerConnection) : Bytes :=
  match conn with
  | none => []
  | some conn =>
      if conn.sharedSecret.length > 0 then
        input.codec.base64Encode conn.sharedSecret
      else []

def deployAck (msg : Message) (ack : DeployAckPayload) :
    Traced DeployEvent CoreError Message :=
  Traced.lift (msg.reply input.replyID input.now .deployAck
    (input.codec.marshalDeployAck ack))

def deployProfile (msg : Message) (payload : DeployPayload) (bundle : Bundle)
    (password : Bytes) : Traced DeployEvent CoreError Message :=
  match w.profileManager with
  | none =>
      .fail (.op "Worker.handleDeploy" (text "profile manager not configured"))
  | some manager => do
      let profileData ← Traced.lift
        ((extractProfileBundle input.primitives bundle password).mapError
          (.wrap "Worker.handleDeploy"
            (text "failed to extract profile bundle")))
      let profile ← Traced.lift
        ((Outcome.ofExcept (input.codec.unmarshalProfile profileData)).mapError
          (.wrap "Worker.handleDeploy" (text "invalid profile data JSON")))
      Traced.emit (.saveProfile profile)
      match manager.saveProfile profile with
      | some error =>
          deployAck input msg
            { success := false, name := payload.name, error := error }
      | none => deployAck input msg { success := true, name := payload.name }

/-- A profile that came with a miner; an error is only logged. -/
def saveBundledProfile (profileData : Bytes) :
    Traced DeployEvent CoreError PUnit :=
  if profileData.length > 0 ∧ w.profileManager.isSome then
    match input.codec.unmarshalProfile profileData with
    | .error _ => pure ⟨⟩
    | .ok profile => Traced.emit (.saveProfile profile)
  else pure ⟨⟩

def deployMiner (msg : Message) (payload : DeployPayload) (bundle : Bundle)
    (password : Bytes) : Traced DeployEvent CoreError Message := do
  let extracted ← (extractMinerBundle input.primitives input.disk input.tree
    bundle password (w.installDir payload)).mapError
      (.wrap "Worker.handleDeploy" (text "failed to extract miner bundle"))
  saveBundledProfile w input extracted.2
  deployAck input msg { success := true, name := payload.name }

def handleDeploy (conn : Option PeerConnection) (msg : Message) :
    Traced DeployEvent CoreError Message := do
  let payload ← Traced.lift
    ((msg.parsePayload {} input.codec.unmarshalDeploy).mapError
      (.wrap "Worker.handleDeploy" (text "invalid deploy payload")))
  let bundle := payload.toBundle
  let password := password input conn
  match bundle.type with
  | .profile => deployProfile w input msg payload bundle password
  | .miner => deployMiner w input msg payload bundle password
  | .full => deployMiner w input msg payload bundle password
  | .other _ =>
      .fail (.op "Worker.handleDeploy"
        (text "unknown bundle type: " ++ payload.bundleType))

end

/-! ### The changes a deployment makes -/

section

variable {w : Worker} {input : DeployInput}

theorem minersDir_ne_nil (w : Worker) : w.minersDir ≠ [] := by
  unfold minersDir join
  by_cases hdata : w.dataDir = []
  · rw [hdata]
    exact clean_ne_nil _
  · simp only [List.dropWhile_cons, hdata, decide_false]
    exact clean_ne_nil _

theorem placeIn_installDir (cwd : Bytes) (w : Worker)
    (payload : DeployPayload) :
    placeIn cwd (w.installDir payload) =
      resolve (placeIn cwd w.minersDir) (steps payload.name) :=
  placeIn_join cwd payload.name w.minersDir_ne_nil

theorem saveBundledProfile_emits {root : List Bytes} (profileData : Bytes) :
    (saveBundledProfile w input profileData).Emits
      (DeployEvent.ConfinedTo root) := by
  unfold saveBundledProfile
  split
  · split
    · simp
    · simp [DeployEvent.ConfinedTo]
  · simp

theorem deployProfile_emits {root : List Bytes} (msg : Message)
    (payload : DeployPayload) (bundle : Bundle) (password : Bytes) :
    (deployProfile w input msg payload bundle password).Emits
      (DeployEvent.ConfinedTo root) := by
  unfold deployProfile
  split
  · simp
  · apply Traced.emits_lift_bind
    intro profileData _
    apply Traced.emits_lift_bind
    intro profile _
    apply Traced.Emits.bind
    · simp [DeployEvent.ConfinedTo]
    · intro _ _
      split
      · simp [deployAck]
      · simp [deployAck]

theorem extractMinerBundle_emits {P : DeployEvent → Prop}
    {primitives : BundlePrimitives} {disk : Disk} {tree : FileTree}
    {destDir : Bytes}
    (htarball : ∀ archive, (extractTarball disk tree archive destDir).Emits P)
    (bundle : Bundle) (password : Bytes) :
    (extractMinerBundle primitives disk tree bundle password destDir).Emits
      P := by
  unfold extractMinerBundle
  apply Traced.emits_failIf_bind
  intro _
  apply Traced.emits_lift_bind
  intro t _
  apply Traced.emits_lift_bind
  intro tarData _
  refine Traced.Emits.bind (htarball tarData) ?_
  intro _ _
  simp

theorem deployMiner_emits {root : List Bytes} {payload : DeployPayload}
    (htarball : ∀ archive, (extractTarball input.disk input.tree archive
      (w.installDir payload)).Emits (DeployEvent.ConfinedTo root))
    (msg : Message) (bundle : Bundle) (password : Bytes) :
    (deployMiner w input msg payload bundle password).Emits
      (DeployEvent.ConfinedTo root) := by
  unfold deployMiner
  apply Traced.Emits.bind
  · exact extractMinerBundle_emits htarball bundle password
  · intro extracted _
    refine Traced.Emits.bind (saveBundledProfile_emits extracted.2) ?_
    intro _ _
    simp [deployAck]

theorem handleDeploy_emits {root : List Bytes} {conn : Option PeerConnection}
    {msg : Message}
    (htarball : ∀ payload, msg.parsePayload {} input.codec.unmarshalDeploy =
        .returned payload →
      ∀ archive, (extractTarball input.disk input.tree archive
        (w.installDir payload)).Emits (DeployEvent.ConfinedTo root)) :
    (handleDeploy w input conn msg).Emits (DeployEvent.ConfinedTo root) := by
  unfold handleDeploy
  apply Traced.emits_lift_bind
  intro payload hparsed
  rw [Outcome.mapError_eq_returned_iff] at hparsed
  dsimp only
  split
  · exact deployProfile_emits msg payload _ _
  · exact deployMiner_emits (htarball payload hparsed) msg _ _
  · exact deployMiner_emits (htarball payload hparsed) msg _ _
  · simp

end

/-! ### Confinement to the miners directory -/

/-- From the directory `root` the name leads to `root` or below it, or to the
root of the file system, where nothing is extracted. -/
def LeadsInto (root : List Bytes) (name : Bytes) : Prop :=
  root <+: resolve root (steps name) ∨ resolve root (steps name) = []

instance (root : List Bytes) (name : Bytes) :
    Decidable (LeadsInto root name) :=
  inferInstanceAs (Decidable (_ ∨ _))

theorem leadsInto_of_no_dotDot {name : Bytes} (hname : dotDot ∉ steps name)
    (root : List Bytes) : LeadsInto root name := by
  left
  rw [resolve_of_isName]
  · exact List.prefix_append root (steps name)
  · intro part hpart
    refine ⟨isStep_of_mem_steps hpart, ?_⟩
    rintro rfl
    exact hname hpart

structure Deploys (input : DeployInput) (msg : Message) (name cwd : Bytes) :
    Prop where
  worksIn : input.disk.WorksIn cwd
  name_eq : ∀ payload, msg.parsePayload {} input.codec.unmarshalDeploy =
    .returned payload → payload.name = name

theorem handleDeploy_confined {w : Worker} {input : DeployInput}
    {msg : Message} {name cwd : Bytes} (hcwd : isAbs cwd = true)
    (hname : LeadsInto (placeIn cwd w.minersDir) name)
    (hdeploys : Deploys input msg name cwd) (conn : Option PeerConnection) :
    (handleDeploy w input conn msg).Emits
      (DeployEvent.ConfinedTo (placeIn cwd w.minersDir)) := by
  apply handleDeploy_emits
  intro payload hparsed archive
  refine extractTarball_emits_of_extractAt hdeploys.worksIn hcwd ?_
  rw [placeIn_installDir, hdeploys.name_eq payload hparsed]
  rcases hname with hinside | hroot
  · have hnames : ∀ part ∈ resolve (placeIn cwd w.minersDir) (steps name),
        IsName part :=
      isName_of_mem_resolve (fun _ => isName_of_mem_placeIn)
        fun _ => isStep_of_mem_steps
    intro event hevent
    exact (extractAt_emits hnames input.tree archive event hevent).mono hinside
  · rw [hroot]
    intro event hevent
    exact (extractAt_root input.tree archive event hevent).elim

def plainDeployment (name cwd : Bytes) (entry : TarEntry) : DeployInput where
  primitives :=
    { calculateChecksum := fun _ => []
      fromSigil := fun _ _ =>
        .ok { toTar := .ok { entries := [entry] }, config := [] }
      trim := id }
  codec :=
    { unmarshalDeploy := fun _ =>
        .ok { bundleType := text "miner", name := name }
      marshalDeployAck := fun _ => .ok []
      unmarshalProfile := .ok
      base64Encode := id }
  disk := .faultless cwd
  tree := ∅

def plainMessage : Message := { type := .deploy, payload := some [] }

theorem deploys_plainDeployment (name cwd : Bytes) (entry : TarEntry) :
    Deploys (plainDeployment name cwd entry) plainMessage name cwd := by
  constructor
  · exact Disk.worksIn_of_getwd rfl
  · intro payload hpayload
    cases hpayload
    rfl

theorem extractTarball_subset_handleDeploy (w : Worker) (name cwd : Bytes)
    (entry : TarEntry) {event : DeployEvent}
    (hevent : event ∈ (extractTarball (.faultless cwd) ∅
      { entries := [entry] } (join [w.minersDir, name])).events) :
    event ∈ (handleDeploy w (plainDeployment name cwd entry) none
      plainMessage).events := by
  let payload : DeployPayload := { bundleType := text "miner", name := name }
  have hminer : event ∈ (deployMiner w (plainDeployment name cwd entry)
      plainMessage payload payload.toBundle []).events := by
    unfold deployMiner
    rw [Traced.mem_events_bind_iff, Traced.mapError_events]
    left
    unfold extractMinerBundle
    rw [Traced.failIf_of_not (by simp [plainDeployment, payload,
      DeployPayload.toBundle]), Traced.pure_bind]
    refine Traced.mem_events_bind_iff.mpr (.inr ⟨_, rfl, ?_⟩)
    refine Traced.mem_events_bind_iff.mpr (.inr ⟨_, rfl, ?_⟩)
    exact Traced.mem_events_bind_iff.mpr (.inl hevent)
  exact Traced.mem_events_bind_iff.mpr (.inr ⟨payload, rfl, hminer⟩)

theorem handleDeploy_confined_iff (w : Worker) (name cwd : Bytes)
    (hcwd : isAbs cwd = true) :
    (∀ input conn msg, Deploys input msg name cwd →
      (handleDeploy w input conn msg).Emits
        (DeployEvent.ConfinedTo (placeIn cwd w.minersDir))) ↔
      LeadsInto (placeIn cwd w.minersDir) name := by
  constructor
  · intro hconfined
    by_contra hout
    rcases not_or.mp hout with ⟨houtside, hne⟩
    let entry : TarEntry :=
      { name := text "x", typeflag := .reg, mode := 0, content := [] }
    have hplace : placeIn cwd (join [w.minersDir, name]) =
        resolve (placeIn cwd w.minersDir) (steps name) :=
      placeIn_join cwd name w.minersDir_ne_nil
    rw [← hplace] at houtside hne
    have hevent := hconfined (plainDeployment name cwd entry) none plainMessage
      (deploys_plainDeployment name cwd entry) _
      (extractTarball_subset_handleDeploy w name cwd entry
        (openFile_mem_extractTarball hcwd hne (by decide) rfl))
    rcases hevent with ⟨hbelow, hstrict⟩
    rcases List.prefix_concat_iff.mp hbelow with hsame | hinside
    · exact hstrict hsame.symm
    · exact houtside hinside
  · intro hname input conn msg hdeploys
    exact handleDeploy_confined hcwd hname hdeploys conn

def sampleWorker : Worker where
  profileManager := none
  dataDir := text "/d"

def sampleEntry : TarEntry where
  name := text "job"
  typeflag := .reg
  mode := 0o644
  content := []

theorem handleDeploy_confined_iff_plain_name :
    isAbs (text "/") = true ∧
      (handleDeploy sampleWorker
        (plainDeployment (text "xmrig") (text "/") sampleEntry) none
        plainMessage).Emits
          (DeployEvent.ConfinedTo
            [text "d", text "lethean-desktop", text "miners"]) :=
  ⟨rfl, (handleDeploy_confined_iff sampleWorker (text "xmrig") (text "/")
    rfl).mpr (leadsInto_of_no_dotDot (by decide) _) _ none _
      (deploys_plainDeployment (text "xmrig") (text "/") sampleEntry)⟩

/-- The name climbs out of the data directory, and a file of the archive is
opened in a directory of the system. -/
theorem handleDeploy_leaves_minersDir :
    ∃ (input : DeployInput) (msg : Message) (event : DeployEvent),
      Deploys input msg (text "../../../etc/cron.d") (text "/") ∧
      event ∈ (handleDeploy sampleWorker input none msg).events ∧
      event = .openFile [text "etc", text "cron.d", text "job"] 0o644 ∧
      ¬ event.ConfinedTo (placeIn (text "/") sampleWorker.minersDir) :=
  ⟨plainDeployment (text "../../../etc/cron.d") (text "/") sampleEntry,
    plainMessage, _, deploys_plainDeployment _ _ _, by decide, rfl, by decide⟩

end Worker

end GoP2P.Node
