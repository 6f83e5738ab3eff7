import GoP2P.WorkerDeploy

/-!
# The two forms of a deployment

A deployment names its bundle either in a structured field or in the fields of
the older form.  Both forms give the same bundle; the install directory, the name
in the acknowledgement and the text for an unknown type are taken from the older
fields all the same.
-/

namespace GoP2P.Node

open LexicalPath

/-- A payload that carries only the bundle. -/
def Bundle.structured (bundle : Bundle) : DeployPayload :=
  { bundle := some bundle }

/-- A payload that carries only the older fields. -/
def Bundle.legacy (bundle : Bundle) (typeName : Bytes) : DeployPayload :=
  { bundleType := typeName, name := bundle.name, data := bundle.data,
    checksum := bundle.checksum }

theorem Bundle.structured_toBundle (bundle : Bundle) :
    bundle.structured.toBundle = bundle := by
  obtain ⟨type, name, data, checksum⟩ := bundle
  have hempty : BundleType.ofName [] = .other [] := by decide
  have hname : (if name = [] then ⟨type, [], data, checksum⟩
      else ⟨type, name, data, checksum⟩ : Bundle) =
        ⟨type, name, data, checksum⟩ := by
    split
    · next hnil => rw [hnil]
    · rfl
  unfold structured DeployPayload.toBundle
  dsimp only
  rw [hname, hempty]
  split
  · next htype => rw [← htype]
  · rfl

theorem Bundle.legacy_toBundle {bundle : Bundle} {typeName : Bytes}
    (htype : bundle.type = .ofName typeName) :
    (bundle.legacy typeName).toBundle = bundle := by
  obtain ⟨type, name, data, checksum⟩ := bundle
  simp only at htype
  rw [htype]
  rfl

namespace Worker

variable {w : Worker} {input : DeployInput} {conn : Option PeerConnection}

/-- The deployment of a payload, once it has been parsed. -/
def deploy (w : Worker) (input : DeployInput) (conn : Option PeerConnection)
    (msg : Message) (payload : DeployPayload) :
    Traced DeployEvent CoreError Message :=
  match payload.toBundle.type with
  | .profile =>
      deployProfile w input msg payload payload.toBundle (password input conn)
  | .miner | .full =>
      deployMiner w input msg payload payload.toBundle (password input conn)
  | .other _ =>
      .fail (.op "Worker.handleDeploy"
        (text "unknown bundle type: " ++ payload.bundleType))

theorem handleDeploy_of_parsed {msg : Message} {payload : DeployPayload}
    (hparsed : msg.parsePayload {} input.codec.unmarshalDeploy =
      .returned payload) :
    handleDeploy w input conn msg = deploy w input conn msg payload := by
  unfold handleDeploy deploy
  rw [hparsed]
  refine (Traced.pure_bind payload _).trans ?_
  cases htype : payload.toBundle.type <;> simp only [htype]

theorem parsePayload_some {msg : Message} {data : Bytes}
    {payload : DeployPayload}
    (hdata : input.codec.unmarshalDeploy data = .ok payload) :
    ({ msg with payload := some data } : Message).parsePayload {}
      input.codec.unmarshalDeploy = .returned payload := by
  unfold Message.parsePayload
  dsimp only
  rw [hdata]
  rfl

/-- A reply does not look at the payload of the message it answers. -/
theorem deploy_message (msg : Message) (data : Option Bytes)
    (payload : DeployPayload) :
    deploy w input conn { msg with payload := data } payload =
      deploy w input conn msg payload := rfl

/-- Of the payload itself only the name is used, when the type is known. -/
theorem deploy_congr {payload payload' : DeployPayload}
    (hbundle : payload.toBundle = payload'.toBundle)
    (hname : payload.name = payload'.name)
    (htype : ∀ other, payload.toBundle.type ≠ .other other) (msg : Message) :
    deploy w input conn msg payload = deploy w input conn msg payload' := by
  unfold deploy deployProfile deployMiner installDir
  rw [← hbundle, ← hname]
  cases hknown : payload.toBundle.type with
  | other other => exact absurd hknown (htype other)
  | profile | miner | full => rfl

theorem deploy_of_other {payload : DeployPayload} {other : Bytes}
    (htype : payload.toBundle.type = .other other) (msg : Message) :
    deploy w input conn msg payload = .fail (.op "Worker.handleDeploy"
      (text "unknown bundle type: " ++ payload.bundleType)) := by
  unfold deploy
  rw [htype]

/-! ### A deployment that succeeds -/

/-- The two forms are the texts 1 and 2; an acknowledgement is marshalled as the
name in it. -/
def sampleForms (bundle : Bundle) (typeName : Bytes) : DeployInput where
  primitives :=
    { calculateChecksum := fun _ => bundle.checksum
      fromSigil := fun _ _ =>
        .ok { toTar := .ok { entries := [] }, config := [] }
      trim := fun _ => [0x7b] }
  codec :=
    { unmarshalDeploy := fun data =>
        if data = [1] then .ok bundle.structured
        else .ok (bundle.legacy typeName)
      marshalDeployAck := fun ack => .ok ack.name
      unmarshalProfile := .ok
      base64Encode := id }
  disk := .faultless (text "/")
  tree := ∅

def openWorker : Worker where
  profileManager := some { saveProfile := fun _ => none }
  dataDir := []

theorem extractTarball_empty (destDir : Bytes) :
    ∃ executable, (extractTarball (.faultless (text "/")) ∅ { entries := [] }
      destDir).outcome = .returned executable := by
  rw [extractTarball_of_getwd (.faultless (text "/")) rfl rfl]
  obtain ⟨tree, hensured, -⟩ := ensureBelow_faultless (.faultless (text "/"))
    (fun _ _ => rfl) onlyDirectories_empty [] (placeIn (text "/") destDir)
  refine ⟨[], ?_⟩
  rw [extractAt, Traced.bind_outcome, hensured]
  rfl

section

variable (payload : DeployPayload) (typeName password : Bytes)

theorem deployProfile_sampleForms :
    ∃ reply, (deployProfile openWorker (sampleForms payload.toBundle typeName)
        {} payload payload.toBundle password).outcome = .returned reply ∧
      reply.payload = some payload.name := by
  have hextract : extractProfileBundle
      (sampleForms payload.toBundle typeName).primitives payload.toBundle
      password = .returned payload.toBundle.data := by
    rw [extractProfileBundle, if_neg (by simp [sampleForms])]
    rfl
  unfold deployProfile
  dsimp only [openWorker]
  rw [hextract]
  exact ⟨_, rfl, rfl⟩

theorem extractMinerBundle_sampleForms (destDir : Bytes) :
    ∃ executable, (extractMinerBundle
        (sampleForms payload.toBundle typeName).primitives
        (.faultless (text "/")) ∅ payload.toBundle password destDir).outcome =
      .returned (executable, []) := by
  obtain ⟨executable, hextracted⟩ := extractTarball_empty destDir
  refine ⟨executable, ?_⟩
  rw [extractMinerBundle, Traced.failIf_of_not (by simp [sampleForms]),
    Traced.pure_bind]
  dsimp only [sampleForms]
  change ((extractTarball (.faultless (text "/")) ∅ { entries := [] }
    destDir).mapError _ >>= _).outcome = _
  rw [Traced.bind_outcome, Traced.mapError_outcome, hextracted]
  rfl

theorem deployMiner_sampleForms :
    ∃ reply, (deployMiner openWorker (sampleForms payload.toBundle typeName)
        {} payload payload.toBundle password).outcome = .returned reply ∧
      reply.payload = some payload.name := by
  obtain ⟨executable, hextracted⟩ := extractMinerBundle_sampleForms payload
    typeName password (openWorker.installDir payload)
  rw [deployMiner, Traced.bind_outcome, Traced.mapError_outcome]
  change ∃ reply, (Outcome.mapError _ (extractMinerBundle
    (sampleForms payload.toBundle typeName).primitives (.faultless (text "/"))
    ∅ payload.toBundle password (openWorker.installDir payload)).outcome >>=
      _) = _ ∧ _
  rw [hextracted]
  exact ⟨_, rfl, rfl⟩

/-- A bundle of a known type is deployed, and the reply carries the name of the
payload. -/
theorem deploy_sampleForms
    (htype : ∀ other, payload.toBundle.type ≠ .other other) :
    ∃ reply, (deploy openWorker (sampleForms payload.toBundle typeName) none {}
        payload).outcome = .returned reply ∧
      reply.payload = some payload.name := by
  unfold deploy
  cases hknown : payload.toBundle.type with
  | other other => exact absurd hknown (htype other)
  | profile => exact deployProfile_sampleForms payload typeName _
  | miner | full => exact deployMiner_sampleForms payload typeName _

end

/-! ### When the forms agree -/

/-- Whatever worker gets the two forms of the bundle, it does the same. -/
def FormsAgree (bundle : Bundle) (typeName : Bytes) : Prop :=
  ∀ (w : Worker) (input : DeployInput) (conn : Option PeerConnection)
    (msg : Message) (structured legacy : Bytes),
    input.codec.unmarshalDeploy structured = .ok bundle.structured →
    input.codec.unmarshalDeploy legacy = .ok (bundle.legacy typeName) →
    handleDeploy w input conn { msg with payload := some structured } =
      handleDeploy w input conn { msg with payload := some legacy }

theorem handleDeploy_form {data : Bytes} {payload : DeployPayload}
    (hdata : input.codec.unmarshalDeploy data = .ok payload) (msg : Message) :
    handleDeploy w input conn { msg with payload := some data } =
      deploy w input conn msg payload := by
  rw [handleDeploy_of_parsed (parsePayload_some hdata), deploy_message]

theorem formsAgree_of_deploy {bundle : Bundle} {typeName : Bytes}
    (hdeploy : ∀ w input conn msg, deploy w input conn msg bundle.structured =
      deploy w input conn msg (bundle.legacy typeName)) :
    FormsAgree bundle typeName := by
  intro w input conn msg structured legacy hstructured hlegacy
  rw [handleDeploy_form hstructured, handleDeploy_form hlegacy]
  exact hdeploy w input conn msg

theorem FormsAgree.deploy_sample {bundle : Bundle} {typeName : Bytes}
    (hagree : FormsAgree bundle typeName) :
    deploy openWorker (sampleForms bundle typeName) none {} bundle.structured =
      deploy openWorker (sampleForms bundle typeName) none {}
        (bundle.legacy typeName) := by
  have hstructured : (sampleForms bundle typeName).codec.unmarshalDeploy [1] =
      .ok bundle.structured := rfl
  have hlegacy : (sampleForms bundle typeName).codec.unmarshalDeploy [2] =
      .ok (bundle.legacy typeName) := rfl
  have hforms := hagree openWorker (sampleForms bundle typeName) none {} [1] [2]
    hstructured hlegacy
  rwa [handleDeploy_form hstructured, handleDeploy_form hlegacy] at hforms

/-- The older form tells which unknown type it was, the structured one does
not. -/
theorem FormsAgree.typeName_eq {bundle : Bundle} {typeName other : Bytes}
    (htype : bundle.type = .ofName typeName)
    (hother : bundle.type = .other other)
    (hagree : FormsAgree bundle typeName) : typeName = [] := by
  have hsame := hagree.deploy_sample
  rw [deploy_of_other (bundle.structured_toBundle ▸ hother),
    deploy_of_other ((Bundle.legacy_toBundle htype).symm ▸ hother)] at hsame
  have herror := Outcome.failed.inj (congrArg Traced.outcome hsame)
  injection herror with _ htext
  exact (List.append_cancel_left htext).symm

/-- The older form is acknowledged with its name, the structured one with an
empty one. -/
theorem FormsAgree.name_eq {bundle : Bundle} {typeName : Bytes}
    (htype : bundle.type = .ofName typeName)
    (hknown : ∀ other, bundle.type ≠ .other other)
    (hagree : FormsAgree bundle typeName) : bundle.name = [] := by
  have hstructured := deploy_sampleForms bundle.structured typeName
  have hlegacy := deploy_sampleForms (bundle.legacy typeName) typeName
  rw [bundle.structured_toBundle] at hstructured
  rw [Bundle.legacy_toBundle htype] at hlegacy
  obtain ⟨first, hfirst, hnone⟩ := hstructured hknown
  obtain ⟨second, hsecond, hname⟩ := hlegacy hknown
  rw [hagree.deploy_sample, hsecond, Outcome.returned.injEq] at hfirst
  rw [← hfirst, hname] at hnone
  exact Option.some.inj hnone

theorem ofName_cases (typeName : Bytes) :
    (typeName ∈ [text "profile", text "miner", text "full"] ∧
      ∀ other, BundleType.ofName typeName ≠ .other other) ∨
    (typeName ∉ [text "profile", text "miner", text "full"] ∧
      BundleType.ofName typeName = .other typeName) := by
  unfold BundleType.ofName
  split_ifs with hprofile hminer hfull
  · exact .inl ⟨by simp [hprofile], by simp⟩
  · exact .inl ⟨by simp [hminer], by simp⟩
  · exact .inl ⟨by simp [hfull], by simp⟩
  · exact .inr ⟨by simp [hprofile, hminer, hfull], rfl⟩

/-- The two forms of a bundle are treated alike exactly if its type is empty, or
known with an empty name. -/
theorem deploy_forms_agree_iff {bundle : Bundle} {typeName : Bytes}
    (htype : bundle.type = .ofName typeName) :
    FormsAgree bundle typeName ↔
      typeName = [] ∨
        (typeName ∈ [text "profile", text "miner", text "full"] ∧
          bundle.name = []) := by
  have hlegacy := Bundle.legacy_toBundle htype
  rcases ofName_cases typeName with ⟨hmem, hknown⟩ | ⟨hnotMem, hother⟩
  · rw [← htype] at hknown
    constructor
    · intro hagree
      exact .inr ⟨hmem, hagree.name_eq htype hknown⟩
    · rintro (rfl | ⟨-, hname⟩)
      · exact absurd hmem (by decide)
      · apply formsAgree_of_deploy
        intro w input conn msg
        refine deploy_congr ?_ hname.symm ?_ msg
        · rw [bundle.structured_toBundle, hlegacy]
        · rw [bundle.structured_toBundle]
          exact hknown
  · rw [← htype] at hother
    constructor
    · intro hagree
      exact .inl (hagree.typeName_eq htype hother)
    · rintro (rfl | ⟨hmem, -⟩)
      · apply formsAgree_of_deploy
        intro w input conn msg
        rw [deploy_of_other (bundle.structured_toBundle ▸ hother),
          deploy_of_other (hlegacy.symm ▸ hother)]
        rfl
      · exact absurd hmem hnotMem

def sampleMinerBundle (name : Bytes) : Bundle where
  type := .miner
  name := name

theorem deploy_forms_agree_unnamed :
    FormsAgree (sampleMinerBundle []) (text "miner") :=
  (deploy_forms_agree_iff rfl).mpr (.inr ⟨by decide, rfl⟩)

def sampleNamedForms : DeployInput :=
  { sampleForms (sampleMinerBundle (text "xmrig")) (text "miner") with
    primitives := (plainDeployment [] [] sampleEntry).primitives }

/-- A miner named `xmrig` is installed in its own directory when it comes in the
older form, and among the other miners when it comes as a structured bundle. -/
theorem deploy_forms_differ :
    .openFile [text "d", text "lethean-desktop", text "miners",
        text "job"] 0o644 ∈
      (handleDeploy sampleWorker sampleNamedForms none
        { payload := some [1] }).events ∧
    .openFile [text "d", text "lethean-desktop", text "miners", text "xmrig",
        text "job"] 0o644 ∈
      (handleDeploy sampleWorker sampleNamedForms none
        { payload := some [2] }).events ∧
    ¬ FormsAgree (sampleMinerBundle (text "xmrig")) (text "miner") := by
  refine ⟨by decide, by decide, ?_⟩
  intro hagree
  exact absurd (hagree.name_eq rfl (by simp [sampleMinerBundle])) (by decide)

end Worker

end GoP2P.Node
