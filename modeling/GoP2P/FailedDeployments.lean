import GoP2P.DeployForms
import GoP2P.TarballContainment

/-!
# Deployments that fail

An extraction writes each entry straight into the install directory, and stops
at the first error.  What it has written by then stays, so a failed deployment
leaves the installed files as they were only if its archive cannot have opened a
file before.
-/

namespace GoP2P.Node

open LexicalPath

/-! ### Archives that open a file -/

/-- Some entry of the archive opens a file, if nothing is in the way: `made` are
the directories that the archive has named so far, and the first file must not
be one of them or lead to one. -/
def opensFile (root : List Bytes) :
    List (List Bytes) → List TarEntry → Bool
  | _, [] => false
  | made, entry :: rest =>
      if entry.Admitted root then
        match entry.typeflag with
        | .dir => opensFile root (entry.target root :: made) rest
        | .reg => !made.any (entry.target root).isPrefixOf
        | _ => opensFile root made rest
      else false

/-- The directories named so far are there, with all that lead to them. -/
def HasDirectories (made : List (List Bytes)) (tree : FileTree) : Prop :=
  ∀ directory ∈ made, ∀ path, path <+: directory → isDirectory tree path = true

theorem HasDirectories.mono {made : List (List Bytes)} {tree tree' : FileTree}
    (hmade : HasDirectories made tree) (hkeeps : KeepsDirectories tree tree') :
    HasDirectories made tree' :=
  fun directory hdirectory path hpath =>
    hkeeps path (hmade directory hdirectory path hpath)

section

variable {disk : Disk} {root : List Bytes}

theorem hasDirectories_ensureBelow {made : List (List Bytes)}
    {tree tree' : FileTree} {path : List Bytes}
    (hmade : HasDirectories made tree)
    (hreturned : (ensureBelow disk tree [] path).outcome = .returned tree') :
    HasDirectories (path :: made) tree' := by
  obtain ⟨hkeeps, hthere⟩ := ensureBelow_returned hreturned
  intro directory hdirectory other hother
  rcases List.mem_cons.mp hdirectory with rfl | hold
  · exact hthere other hother
  · exact hmade.mono hkeeps directory hold other hother

variable (disk) in
/-- Opening a directory for writing fails before anything is written. -/
theorem writeEntry_of_isDirectory {tree : FileTree} {fullPath : Bytes}
    (hdirectory : isDirectory tree (place fullPath) = true)
    (entry : TarEntry) :
    KeepsFiles tree (writeEntry disk tree fullPath entry) ∧
      ∀ tree', (writeEntry disk tree fullPath entry).outcome ≠
        .returned tree' := by
  have hopen : ∀ ensured, (ensureDir disk tree (dir fullPath)).outcome =
      .returned ensured →
        openFile disk ensured (place fullPath) entry.mode =
          .fail (.op "open" (text "is a directory")) := by
    intro ensured hensured
    rw [openFile, if_pos]
    exact ensureBelow_keepsDirectories hensured _ hdirectory
  unfold writeEntry
  constructor
  · refine (ensureBelow_keepsFiles disk tree [] _).bind
      (ensureBelow_performs tree [] _) fun ensured hensured => ?_
    rw [hopen ensured hensured]
    exact keepsFiles_of_events_eq_nil rfl
  · intro tree' hreturned
    rw [Traced.bind_outcome, Outcome.bind_eq_returned_iff] at hreturned
    obtain ⟨ensured, hensured, hrest⟩ := hreturned
    rw [hopen ensured hensured] at hrest
    cases hrest

variable (disk) in
/-- An archive that opens no file keeps the files with its first entry, and goes
on with the directories that it has made by then. -/
theorem unpack_keepsFiles (hroot : ∀ part ∈ root, IsName part)
    {made : List (List Bytes)} {entry : TarEntry} {rest : List TarEntry}
    (hentry : entry.Admitted root)
    (hopens : opensFile root made (entry :: rest) = false)
    {state : FileTree × Bytes} (hmade : HasDirectories made state.1) :
    KeepsFiles state.1 (unpack disk root state entry) ∧
      ∀ state', (unpack disk root state entry).outcome = .returned state' →
        ∃ made', opensFile root made' rest = false ∧
          HasDirectories made' state'.1 := by
  rw [opensFile, if_pos hentry] at hopens
  split at hopens
  next htype =>
    rw [unpack_of_dir htype]
    constructor
    · exact (ensureBelow_keepsFiles disk state.1 [] _).bind
        (ensureBelow_performs state.1 [] _)
        fun _ _ => keepsFiles_of_events_eq_nil rfl
    · intro state' hstate'
      rw [Traced.bind_outcome, Outcome.bind_eq_returned_iff] at hstate'
      obtain ⟨tree, htree, hstate'⟩ := hstate'
      cases hstate'
      exact ⟨_, hopens, hasDirectories_ensureBelow hmade htree⟩
  next htype =>
    rw [Bool.not_eq_false', List.any_eq_true] at hopens
    obtain ⟨directory, hdirectory, hbegins⟩ := hopens
    have hthere : isDirectory state.1
        (place (absoluteText (entry.target root))) = true := by
      rw [place_absoluteText (entry.isName_of_mem_target hroot)]
      exact hmade directory hdirectory _ (List.isPrefixOf_iff_prefix.mp hbegins)
    obtain ⟨hkeeps, hnever⟩ :=
      writeEntry_of_isDirectory disk hthere entry
    rw [unpack_of_reg htype]
    constructor
    · exact hkeeps.bind (writeEntry_performs state.1 _ entry)
        fun tree htree => absurd htree (hnever tree)
    · intro state' hstate'
      rw [Traced.bind_outcome, Outcome.bind_eq_returned_iff] at hstate'
      obtain ⟨tree, htree, -⟩ := hstate'
      exact absurd htree (hnever tree)
  next hdir hreg =>
    rw [unpack_of_link hdir hreg]
    refine ⟨keepsFiles_of_events_eq_nil rfl, ?_⟩
    rintro state' ⟨⟩
    exact ⟨made, hopens, hmade⟩

theorem extractEntries_keepsFiles (hroot : ∀ part ∈ root, IsName part)
    {made : List (List Bytes)} {entries : List TarEntry}
    (hopens : opensFile root made entries = false)
    {state : FileTree × Bytes} (hmade : HasDirectories made state.1) :
    KeepsFiles state.1
      (extractEntries disk (absoluteText root) state entries) := by
  induction entries generalizing made state with
  | nil => exact keepsFiles_of_events_eq_nil rfl
  | cons entry rest ih =>
      rw [extractEntries]
      rcases extractEntry_cases disk hroot state entry with
        ⟨error, hextract⟩ | ⟨hentry, hextract⟩
      · rw [hextract]
        exact keepsFiles_of_events_eq_nil rfl
      · rw [hextract]
        obtain ⟨hkeeps, hnext⟩ :=
          unpack_keepsFiles disk hroot hentry hopens hmade
        refine hkeeps.bind (unpack_performs root state entry) ?_
        intro state' hstate'
        obtain ⟨made', hopens', hmade'⟩ := hnext state' hstate'
        exact ih hopens' hmade'

theorem extractAt_keepsFiles (hroot : ∀ part ∈ root, IsName part)
    {archive : TarArchive}
    (hopens : opensFile root [root] archive.entries = false)
    (tree : FileTree) :
    KeepsFiles tree (extractAt disk tree archive root) := by
  have hempty : HasDirectories [] tree := by
    intro directory hdirectory
    cases hdirectory
  unfold extractAt
  refine (ensureBelow_keepsFiles disk tree [] root).bind
    (ensureBelow_performs tree [] root) fun ensured hensured => ?_
  refine (extractEntries_keepsFiles hroot hopens
    (hasDirectories_ensureBelow hempty hensured)).bind
      (extractEntries_performs hroot (ensured, []) archive.entries)
      fun state _ => ?_
  apply keepsFiles_of_events_eq_nil
  cases archive.ending <;> rfl

/-! ### A disk that is full -/

/-- The call fails, with an empty file somewhere below the directory. -/
def FailsWithFile {α : Type} (root : List Bytes) (tree : FileTree)
    (call : Traced DeployEvent CoreError α) : Prop :=
  ∃ path error, root <+: path ∧ call.outcome = .failed error ∧
    fileAt (applyAll tree call.events) path = some []

section

variable {α β : Type} {tree : FileTree}
  {call : Traced DeployEvent CoreError α}
  {next : α → Traced DeployEvent CoreError β}

theorem FailsWithFile.bind (hcall : FailsWithFile root tree call) :
    FailsWithFile root tree (call >>= next) := by
  obtain ⟨path, error, hbelow, hfailed, hfile⟩ := hcall
  refine ⟨path, error, hbelow, ?_⟩
  rw [Traced.bind_of_failed hfailed]
  exact ⟨rfl, hfile⟩

theorem FailsWithFile.mapError (hcall : FailsWithFile root tree call)
    (wrap : CoreError → CoreError) :
    FailsWithFile root tree (call.mapError wrap) := by
  obtain ⟨path, error, hbelow, hfailed, hfile⟩ := hcall
  refine ⟨path, wrap error, hbelow, ?_, hfile⟩
  rw [Traced.mapError_outcome, hfailed]
  rfl

theorem Performs.bind_failsWithFile {after : α → FileTree} {value : α}
    (hperforms : Performs tree after call)
    (hreturned : call.outcome = .returned value)
    (hnext : FailsWithFile root (after value) (next value)) :
    FailsWithFile root tree (call >>= next) := by
  obtain ⟨path, error, hbelow, hfailed, hfile⟩ := hnext
  refine ⟨path, error, hbelow, ?_⟩
  rw [Traced.bind_of_returned hreturned, applyAll_append,
    hperforms value hreturned]
  exact ⟨hfailed, hfile⟩

end

/-- Directories and empty files can be made, but nothing can be written. -/
def Disk.full (cwd : Bytes) : Disk where
  getwd := .ok cwd
  copyError := fun _ _ => some (0, .plain (text "no space left on device"))

/-- Besides the directories that were made there is nothing. -/
structure OnlyMade (made : List (List Bytes)) (tree : FileTree) : Prop where
  directories : OnlyDirectories tree
  free : ∀ path, (∀ directory ∈ made, ¬ path <+: directory) →
    tree.lookup path = none

theorem OnlyMade.ensureBelow {made : List (List Bytes)} {tree : FileTree}
    (honly : OnlyMade made tree) (cwd : Bytes) (path : List Bytes) :
    ∃ tree', (Node.ensureBelow (.full cwd) tree [] path).outcome =
        .returned tree' ∧ OnlyMade (path :: made) tree' := by
  obtain ⟨tree', hreturned, hdirectories, hkept⟩ :=
    ensureBelow_faultless (.full cwd) (fun _ _ => rfl) honly.directories []
      path
  refine ⟨tree', hreturned, hdirectories, ?_⟩
  intro other hother
  rw [hkept other (hother path List.mem_cons_self)]
  exact honly.free other fun directory hdirectory =>
    hother directory (List.mem_cons_of_mem _ hdirectory)

/-- Where a file can be made, it is opened and stays empty. -/
theorem writeEntry_full {made : List (List Bytes)} {tree : FileTree}
    {path : List Bytes} (honly : OnlyMade made tree)
    (hnames : ∀ part ∈ path, IsName part) (hne : path ≠ [])
    (hfree : ∀ directory ∈ made, ¬ path <+: directory)
    (hbelow : root <+: path) (cwd : Bytes) (entry : TarEntry) :
    FailsWithFile root tree
      (writeEntry (.full cwd) tree (absoluteText path) entry) := by
  obtain ⟨ensured, hensured, honly'⟩ := honly.ensureBelow cwd path.dropLast
  have hlookup : ensured.lookup path = none := by
    apply honly'.free
    intro directory hdirectory hbegins
    rcases List.mem_cons.mp hdirectory with rfl | hold
    · have hlength := hbegins.length_le
      have hpositive := List.length_pos_iff.mpr hne
      rw [List.length_dropLast] at hlength
      omega
    · exact hfree directory hold hbegins
  have hparent : isDirectory ensured path.dropLast = true :=
    (ensureBelow_returned hensured).2 _ (List.prefix_refl _)
  have hopen : openFile (.full cwd) ensured path entry.mode =
      ⟨[.openFile path entry.mode],
        .returned (ensured.insert path (.file entry.mode []))⟩ := by
    have hnot : ¬ isDirectory ensured path = true := by
      simp [isDirectory, hne, hlookup]
    have hthere : ¬ (!isDirectory ensured path.dropLast) = true := by
      simp [hparent]
    rw [openFile, if_neg hnot, if_neg hthere, hlookup]
    rfl
  unfold writeEntry
  rw [ensureDir_dir_absoluteText _ hnames, place_absoluteText hnames]
  refine (ensureBelow_performs tree [] _).bind_failsWithFile hensured ?_
  rw [hopen]
  refine ⟨path, _, hbelow, rfl, ?_⟩
  change fileAt (applyAll ensured [.openFile path entry.mode, .write path []])
    path = some []
  exact (fileAt_insert_file _ path path _ []).trans (if_pos rfl)

/-- The first file of an archive can be made: no directory that it has named is
in the way. -/
theorem unpack_full (hroot : ∀ part ∈ root, IsName part) (cwd : Bytes)
    {made : List (List Bytes)} (hmade : made ≠ []) {entry : TarEntry}
    (hentry : entry.Admitted root) (htype : entry.typeflag = .reg)
    (hopens : made.any (entry.target root).isPrefixOf = false)
    {state : FileTree × Bytes} (honly : OnlyMade made state.1) :
    FailsWithFile root state.1 (unpack (.full cwd) root state entry) := by
  have hnames := entry.isName_of_mem_target hroot
  have hfree : ∀ directory ∈ made, ¬ entry.target root <+: directory := by
    intro directory hdirectory hbegins
    exact List.any_eq_false.mp hopens directory hdirectory
      (List.isPrefixOf_iff_prefix.mpr hbegins)
  have hne : entry.target root ≠ [] := by
    intro hnil
    obtain ⟨directory, hdirectory⟩ := List.exists_mem_of_ne_nil made hmade
    apply hfree directory hdirectory
    rw [hnil]
    exact List.nil_prefix
  rw [unpack_of_reg htype]
  exact (writeEntry_full honly hnames hne hfree
    (hentry.checked.below hroot hnames) cwd entry).bind

/-- An archive that opens a file fails on a full disk, and has made that file by
then. -/
theorem extractEntries_full (hroot : ∀ part ∈ root, IsName part)
    (cwd : Bytes) {made : List (List Bytes)} (hmade : made ≠ [])
    {entries : List TarEntry} (hopens : opensFile root made entries = true)
    {state : FileTree × Bytes} (honly : OnlyMade made state.1) :
    FailsWithFile root state.1
      (extractEntries (.full cwd) (absoluteText root) state entries) := by
  induction entries generalizing made state with
  | nil => cases hopens
  | cons entry rest ih =>
      rw [opensFile] at hopens
      split at hopens
      next hentry =>
        rw [extractEntries, extractEntry_of_admitted hroot hentry]
        split at hopens
        next htype =>
          obtain ⟨tree, htree, honly'⟩ :=
            honly.ensureBelow cwd (entry.target root)
          have hstate' : OnlyMade _ (tree, state.2).1 := honly'
          have hunpacked : (unpack (.full cwd) root state entry).outcome =
              .returned (tree, state.2) := by
            rw [unpack_of_dir htype, Traced.bind_outcome, htree]
            rfl
          exact (unpack_performs root state entry).bind_failsWithFile hunpacked
            (ih (List.cons_ne_nil _ _) hopens hstate')
        next htype =>
          rw [Bool.not_eq_true'] at hopens
          exact (unpack_full hroot cwd hmade hentry htype hopens honly).bind
        next hdir hreg =>
          rw [unpack_of_link hdir hreg, Traced.pure_bind]
          exact ih hmade hopens honly
      next => cases hopens

theorem extractAt_full (hroot : ∀ part ∈ root, IsName part) (cwd : Bytes)
    {archive : TarArchive}
    (hopens : opensFile root [root] archive.entries = true) :
    FailsWithFile root ∅ (extractAt (.full cwd) ∅ archive root) := by
  have hempty : OnlyMade [] ∅ := ⟨onlyDirectories_empty, fun _ _ => rfl⟩
  obtain ⟨tree, htree, honly⟩ := hempty.ensureBelow cwd root
  have hstate : OnlyMade [root] (tree, ([] : Bytes)).1 := honly
  have hentries :=
    extractEntries_full hroot cwd (List.cons_ne_nil _ _) hopens hstate
  exact (ensureBelow_performs ∅ [] root).bind_failsWithFile htree hentries.bind

end

/-! ### Deployments -/

/-- The call changes no tree at all. -/
def Inert {α : Type} (call : Traced DeployEvent CoreError α) : Prop :=
  ∀ tree, applyAll tree call.events = tree

theorem KeepsFiles.bind_inert {α β : Type} {tree : FileTree}
    {call : Traced DeployEvent CoreError α}
    {next : α → Traced DeployEvent CoreError β}
    (hcall : KeepsFiles tree call) (hnext : ∀ value, Inert (next value)) :
    KeepsFiles tree (call >>= next) := by
  have hperforms : Performs tree (fun _ => applyAll tree call.events) call :=
    fun _ _ => rfl
  refine hcall.bind hperforms fun value _ path => ?_
  rw [hnext value]

theorem Inert.bind {α β : Type} {call : Traced DeployEvent CoreError α}
    {next : α → Traced DeployEvent CoreError β} (hcall : Inert call)
    (hnext : ∀ value, Inert (next value)) : Inert (call >>= next) := by
  intro tree
  cases hvalue : call.outcome with
  | returned value =>
      rw [Traced.bind_of_returned hvalue, applyAll_append, hcall, hnext]
  | failed | panicked | unfinished =>
      rw [Traced.bind_events_of_not_returned (by simp [hvalue]), hcall]

/-- The bundle is accepted and turns out to hold the archive. -/
structure Unpacks (primitives : BundlePrimitives) (bundle : Bundle)
    (password : Bytes) (archive : TarArchive) : Prop where
  checksum : primitives.calculateChecksum bundle.data = bundle.checksum
  decrypted : ∃ t, primitives.fromSigil bundle.data password = .ok t ∧
    t.toTar = .ok archive

section

variable {primitives : BundlePrimitives} {disk : Disk} {tree : FileTree}
  {bundle : Bundle} {password destDir : Bytes}

theorem extractMinerBundle_of_unpacks {archive : TarArchive}
    (hunpacks : Unpacks primitives bundle password archive) :
    ∃ config, ∀ disk tree destDir,
      extractMinerBundle primitives disk tree bundle password destDir =
        (do
          let minerPath ← (extractTarball disk tree archive destDir).mapError
            (.wrap "ExtractMinerBundle" (text "failed to extract tarball"))
          pure (minerPath, config)) := by
  obtain ⟨t, hsigil, htar⟩ := hunpacks.decrypted
  refine ⟨t.config, fun disk tree destDir => ?_⟩
  unfold extractMinerBundle
  rw [Traced.failIf_of_not (not_not.mpr hunpacks.checksum), Traced.pure_bind,
    hsigil]
  change (pure t >>= _) = _
  rw [Traced.pure_bind, htar]
  change (pure archive >>= _) = _
  rw [Traced.pure_bind]

/-- A bundle that is not accepted is not extracted. -/
theorem extractMinerBundle_events_of_not
    (hnot : ∀ archive, ¬ Unpacks primitives bundle password archive) :
    (extractMinerBundle primitives disk tree bundle password destDir).events =
      [] := by
  unfold extractMinerBundle
  by_cases hchecksum : primitives.calculateChecksum bundle.data =
      bundle.checksum
  · rw [Traced.failIf_of_not (not_not.mpr hchecksum), Traced.pure_bind]
    cases hsigil : primitives.fromSigil bundle.data password with
    | error error => rfl
    | ok t =>
        change (pure t >>= _ : Traced DeployEvent CoreError _).events = []
        rw [Traced.pure_bind]
        cases htar : t.toTar with
        | error error => rfl
        | ok archive =>
            exact absurd ⟨hchecksum, t, hsigil, htar⟩ (hnot archive)
  · rw [Traced.failIf_of hchecksum]
    rfl

theorem extractTarball_keepsFiles {cwd : Bytes} (hdisk : disk.WorksIn cwd)
    (hcwd : isAbs cwd = true) {archive : TarArchive}
    (hopens : opensFile (placeIn cwd destDir) [placeIn cwd destDir]
      archive.entries = false) :
    KeepsFiles tree (extractTarball disk tree archive destDir) := by
  rcases extractTarball_cases hdisk hcwd tree archive destDir with
    hextract | ⟨error, hextract⟩
  · rw [hextract]
    exact extractAt_keepsFiles (fun _ => isName_of_mem_placeIn) hopens tree
  · rw [hextract]
    exact keepsFiles_of_events_eq_nil rfl

theorem extractMinerBundle_keepsFiles {cwd : Bytes} (hdisk : disk.WorksIn cwd)
    (hcwd : isAbs cwd = true)
    (hopens : ∀ archive, Unpacks primitives bundle password archive →
      opensFile (placeIn cwd destDir) [placeIn cwd destDir] archive.entries =
        false) :
    KeepsFiles tree
      (extractMinerBundle primitives disk tree bundle password destDir) := by
  by_cases hunpacks : ∃ archive, Unpacks primitives bundle password archive
  · obtain ⟨archive, harchive⟩ := hunpacks
    obtain ⟨config, hextract⟩ := extractMinerBundle_of_unpacks harchive
    rw [hextract]
    refine KeepsFiles.bind_inert ?_ fun _ _ => rfl
    exact extractTarball_keepsFiles hdisk hcwd (hopens archive harchive)
  · exact keepsFiles_of_events_eq_nil
      (extractMinerBundle_events_of_not (not_exists.mp hunpacks))

theorem extractMinerBundle_full {cwd : Bytes} (hcwd : isAbs cwd = true)
    {archive : TarArchive}
    (hunpacks : Unpacks primitives bundle password archive)
    (hopens : opensFile (placeIn cwd destDir) [placeIn cwd destDir]
      archive.entries = true) :
    FailsWithFile (placeIn cwd destDir) ∅
      (extractMinerBundle primitives (.full cwd) ∅ bundle password destDir) := by
  have hroot : ∀ part ∈ placeIn cwd destDir, IsName part :=
    fun _ => isName_of_mem_placeIn
  obtain ⟨config, hextract⟩ := extractMinerBundle_of_unpacks hunpacks
  rw [hextract, extractTarball_of_getwd (.full cwd) rfl hcwd]
  exact ((extractAt_full hroot cwd hopens).mapError _).bind

end

namespace Worker

variable {w : Worker} {input : DeployInput} {conn : Option PeerConnection}
  {msg : Message} {payload : DeployPayload} {cwd : Bytes}

theorem saveBundledProfile_inert (profileData : Bytes) :
    Inert (saveBundledProfile w input profileData) := by
  intro tree
  unfold saveBundledProfile
  split
  · split <;> rfl
  · rfl

theorem deployMiner_keepsFiles {bundle : Bundle} {password : Bytes}
    (hbundle : KeepsFiles input.tree (extractMinerBundle input.primitives
      input.disk input.tree bundle password (w.installDir payload))) :
    KeepsFiles input.tree (deployMiner w input msg payload bundle password) := by
  unfold deployMiner
  refine KeepsFiles.bind_inert hbundle fun extracted tree => ?_
  exact (saveBundledProfile_inert extracted.2).bind (fun _ _ => rfl) tree

theorem deployMiner_failsWithFile {root : List Bytes} {bundle : Bundle}
    {password : Bytes}
    (hbundle : FailsWithFile root input.tree (extractMinerBundle
      input.primitives input.disk input.tree bundle password
      (w.installDir payload))) :
    FailsWithFile root input.tree
      (deployMiner w input msg payload bundle password) :=
  (hbundle.mapError _).bind

theorem deploy_of_miner
    (htype : payload.toBundle.type = .miner ∨ payload.toBundle.type = .full) :
    deploy w input conn msg payload =
      deployMiner w input msg payload payload.toBundle
        (password input conn) := by
  unfold deploy
  rcases htype with htype | htype <;> rw [htype]

/-- The worker's input with another disk and other files on it. -/
def DeployInput.on (input : DeployInput) (disk : Disk) (tree : FileTree) :
    DeployInput :=
  { input with disk := disk, tree := tree }

/-- For a miner or full bundle: whatever the disk does and whatever is on it, a
failed deployment keeps the files of the install directory exactly if the
bundle is rejected as a whole or its archive can open no file. -/
theorem failed_deploy_keeps_files_iff (hcwd : isAbs cwd = true)
    (hparsed : msg.parsePayload {} input.codec.unmarshalDeploy =
      .returned payload)
    (htype : payload.toBundle.type = .miner ∨
      payload.toBundle.type = .full) :
    (∀ (disk : Disk) (tree : FileTree), disk.WorksIn cwd →
      ∀ error, (handleDeploy w (input.on disk tree) conn msg).outcome =
          .failed error →
        ∀ path, placeIn cwd (w.installDir payload) <+: path →
          fileAt (applyAll tree
              (handleDeploy w (input.on disk tree) conn msg).events) path =
            fileAt tree path) ↔
    ∀ archive, Unpacks input.primitives payload.toBundle (password input conn)
        archive →
      opensFile (placeIn cwd (w.installDir payload))
        [placeIn cwd (w.installDir payload)] archive.entries = false := by
  have hdeploy : ∀ disk tree, handleDeploy w (input.on disk tree) conn msg =
      deployMiner w (input.on disk tree) msg payload payload.toBundle
        (password input conn) := by
    intro disk tree
    have hsame : msg.parsePayload {} (input.on disk tree).codec.unmarshalDeploy =
        .returned payload := hparsed
    rw [handleDeploy_of_parsed hsame]
    exact deploy_of_miner htype
  constructor
  · intro hkeeps archive hunpacks
    by_contra hopens
    rw [Bool.not_eq_false] at hopens
    have hbundle : FailsWithFile (placeIn cwd (w.installDir payload)) ∅
        (deployMiner w (input.on (.full cwd) ∅) msg payload payload.toBundle
          (password input conn)) :=
      deployMiner_failsWithFile (extractMinerBundle_full hcwd hunpacks hopens)
    rw [← hdeploy] at hbundle
    obtain ⟨path, error, hbelow, hfailed, hfile⟩ := hbundle
    have hworks : (Disk.full cwd).WorksIn cwd := Disk.worksIn_of_getwd rfl
    have hnone := hkeeps (.full cwd) ∅ hworks error hfailed path hbelow
    exact Option.some_ne_none [] (hfile.symm.trans hnone)
  · intro hopens disk tree hdisk error _ path _
    rw [hdeploy]
    have hbundle : KeepsFiles (input.on disk tree).tree (extractMinerBundle
        (input.on disk tree).primitives (input.on disk tree).disk
        (input.on disk tree).tree payload.toBundle (password input conn)
        (w.installDir payload)) :=
      extractMinerBundle_keepsFiles hdisk hcwd hopens
    exact deployMiner_keepsFiles hbundle path

/-! ### An installed miner -/

def bundledDeployment (entries : List TarEntry) : DeployInput :=
  { plainDeployment (text "xmrig") (text "/") sampleEntry with
    primitives :=
      { calculateChecksum := fun _ => []
        fromSigil := fun _ _ =>
          .ok { toTar := .ok { entries := entries }, config := [] }
        trim := id } }

def installedMiner : List Bytes :=
  [text "d", text "lethean-desktop", text "miners", text "xmrig", text "xmrig"]

def installedTree : FileTree :=
  Finmap.singleton installedMiner (.file 0o755 [1])

def newMiner : TarEntry where
  name := text "xmrig"
  typeflag := .reg
  mode := 0o755
  content := [2]

def escapingEntry : TarEntry where
  name := text "../x"
  typeflag := .reg
  mode := 0o644
  content := []

def xmrigPayload : DeployPayload where
  bundleType := text "miner"
  name := text "xmrig"

theorem failed_deploy_keeps_files_rejected :
    fileAt (applyAll installedTree (handleDeploy sampleWorker
      ((bundledDeployment [escapingEntry, newMiner]).on (.faultless (text "/"))
        installedTree) none plainMessage).events) installedMiner =
      fileAt installedTree installedMiner := by
  have hparsed : plainMessage.parsePayload {}
      (bundledDeployment [escapingEntry, newMiner]).codec.unmarshalDeploy =
        .returned xmrigPayload := rfl
  have hworks : (Disk.faultless (text "/")).WorksIn (text "/") :=
    Disk.worksIn_of_getwd rfl
  have hopens : ∀ archive, Unpacks
      (bundledDeployment [escapingEntry, newMiner]).primitives
      xmrigPayload.toBundle
      (password (bundledDeployment [escapingEntry, newMiner]) none) archive →
        opensFile (placeIn (text "/") (sampleWorker.installDir xmrigPayload))
          [placeIn (text "/") (sampleWorker.installDir xmrigPayload)]
          archive.entries = false := by
    rintro archive ⟨-, t, ⟨⟩, ⟨⟩⟩
    decide
  obtain ⟨error, hfailed⟩ : ∃ error, (handleDeploy sampleWorker
      ((bundledDeployment [escapingEntry, newMiner]).on (.faultless (text "/"))
        installedTree) none plainMessage).outcome = .failed error := ⟨_, rfl⟩
  have hcwd : isAbs (text "/") = true := rfl
  have htype : xmrigPayload.toBundle.type = .miner := rfl
  have hbelow : placeIn (text "/") (sampleWorker.installDir xmrigPayload) <+:
      installedMiner := by decide
  have hkeeps := (failed_deploy_keeps_files_iff hcwd hparsed (.inl htype)).mpr
    hopens
  exact hkeeps (.faultless (text "/")) installedTree hworks error hfailed
    installedMiner hbelow

/-- The archive replaces the installed miner, and is rejected for its second
entry. -/
theorem failed_deploy_replaces_miner :
    (∃ error, (handleDeploy sampleWorker
      ((bundledDeployment [newMiner, escapingEntry]).on (.faultless (text "/"))
        installedTree) none plainMessage).outcome = .failed error) ∧
    fileAt installedTree installedMiner = some [1] ∧
    fileAt (applyAll installedTree (handleDeploy sampleWorker
      ((bundledDeployment [newMiner, escapingEntry]).on (.faultless (text "/"))
        installedTree) none plainMessage).events) installedMiner = some [2] :=
  ⟨⟨_, rfl⟩, rfl, by decide⟩

end Worker

end GoP2P.Node
