import GoP2P.BundleExtraction

/-!
# Where an extraction can write

Every file that `extractTarball` touches lies below the destination, and every
directory it creates lies below the destination or leads to it.  At the root of
the file system nothing passes the checks, so there it does nothing at all.
-/

namespace GoP2P.Node

open LexicalPath

/-- Files strictly below `root`; directories below `root` or above it. -/
def DeployEvent.ConfinedTo (root : List Bytes) : DeployEvent → Prop
  | .createDirectory path => root <+: path ∨ path <+: root
  | .openFile path _ => root <+: path ∧ path ≠ root
  | .write path _ => root <+: path ∧ path ≠ root
  | .delete path => root <+: path ∧ path ≠ root
  | .saveProfile _ => True

instance (root : List Bytes) (event : DeployEvent) :
    Decidable (event.ConfinedTo root) :=
  match event with
  | .createDirectory _ => inferInstanceAs (Decidable (_ ∨ _))
  | .openFile _ _ => inferInstanceAs (Decidable (_ ∧ _))
  | .write _ _ => inferInstanceAs (Decidable (_ ∧ _))
  | .delete _ => inferInstanceAs (Decidable (_ ∧ _))
  | .saveProfile _ => inferInstanceAs (Decidable True)

theorem DeployEvent.ConfinedTo.mono {root base : List Bytes}
    {event : DeployEvent} (hbegins : root <+: base)
    (hevent : event.ConfinedTo base) : event.ConfinedTo root := by
  have hstrict : ∀ {path}, base <+: path ∧ path ≠ base →
      root <+: path ∧ path ≠ root := by
    intro path hpath
    refine ⟨hbegins.trans hpath.1, ?_⟩
    rintro rfl
    exact hpath.2 (hbegins.eq_of_length_le hpath.1.length_le)
  cases event with
  | createDirectory path =>
      rcases hevent with hbelow | habove
      · exact .inl (hbegins.trans hbelow)
      · exact List.prefix_or_prefix_of_prefix hbegins habove
  | openFile | write | delete => exact hstrict hevent
  | saveProfile profile => trivial

/-! ### Directories stay directories -/

def KeepsDirectories (tree tree' : FileTree) : Prop :=
  ∀ path, isDirectory tree path = true → isDirectory tree' path = true

theorem isDirectory_iff {tree : FileTree} {path : List Bytes} :
    isDirectory tree path = true ↔
      path = [] ∨ tree.lookup path = some .directory := by
  simp [isDirectory]

theorem KeepsDirectories.refl (tree : FileTree) : KeepsDirectories tree tree :=
  fun _ h => h

theorem KeepsDirectories.trans {tree₁ tree₂ tree₃ : FileTree}
    (hfirst : KeepsDirectories tree₁ tree₂)
    (hsecond : KeepsDirectories tree₂ tree₃) : KeepsDirectories tree₁ tree₃ :=
  fun path h => hsecond path (hfirst path h)

theorem keepsDirectories_insert {tree : FileTree} {path : List Bytes}
    {node : FileNode}
    (hnode : node = .directory ∨ isDirectory tree path = false) :
    KeepsDirectories tree (tree.insert path node) := by
  intro other hother
  rw [isDirectory_iff] at hother ⊢
  rcases hother with hroot | hlookup
  · exact .inl hroot
  · by_cases hsame : other = path
    · subst hsame
      rcases hnode with rfl | hnot
      · exact .inr (Finmap.lookup_insert tree)
      · rw [isDirectory_iff.mpr (.inr hlookup)] at hnot
        cases hnot
    · rw [Finmap.lookup_insert_of_ne tree hsame]
      exact .inr hlookup

section

variable {disk : Disk}

/-! ### One call to the file system -/

variable (disk) in
/-- A directory on the way is there, cannot be made, or is made. -/
theorem ensureBelow_cons_cases (tree : FileTree) (done : List Bytes)
    (name : Bytes) (rest : List Bytes) :
    (tree.lookup (done ++ [name]) = some .directory ∧
      ensureBelow disk tree done (name :: rest) =
        ensureBelow disk tree (done ++ [name]) rest) ∨
    (∃ error, ensureBelow disk tree done (name :: rest) = .fail error) ∨
    (tree.lookup (done ++ [name]) = none ∧
      ensureBelow disk tree done (name :: rest) = (do
        Traced.emit (.createDirectory (done ++ [name]))
        ensureBelow disk (tree.insert (done ++ [name]) .directory)
          (done ++ [name]) rest)) := by
  rw [ensureBelow]
  cases hlookup : tree.lookup (done ++ [name]) with
  | none =>
      cases disk.mkdirError tree (done ++ [name]) with
      | some error => exact .inr (.inl ⟨error, rfl⟩)
      | none => exact .inr (.inr ⟨rfl, rfl⟩)
  | some node =>
      cases node with
      | directory => exact .inl ⟨rfl, rfl⟩
      | file => exact .inr (.inl ⟨_, rfl⟩)

/-- The mode of the file at `path`, or the mode for a new one. -/
def modeAt (tree : FileTree) (path : List Bytes) (mode : UInt64) : UInt64 :=
  match tree.lookup path with
  | some (.file old _) => old
  | _ => mode

variable (disk) in
theorem openFile_cases (tree : FileTree) (path : List Bytes) (mode : UInt64) :
    (∃ error, openFile disk tree path mode = .fail error) ∨
    (isDirectory tree path = false ∧ openFile disk tree path mode =
      ⟨[.openFile path mode],
        .returned (tree.insert path (.file (modeAt tree path mode) []))⟩) := by
  unfold openFile
  split_ifs with hdirectory hparent
  · exact .inl ⟨_, rfl⟩
  · exact .inl ⟨_, rfl⟩
  · cases disk.openError tree path with
    | some error => exact .inl ⟨error, rfl⟩
    | none => exact .inr ⟨Bool.eq_false_iff.mpr hdirectory, rfl⟩

variable (disk) in
theorem copyTo_cases (tree : FileTree) (path : List Bytes) (content : Bytes) :
    (∃ written error, copyTo disk tree path content =
      ⟨[.write path written], .failed error⟩) ∨
    copyTo disk tree path content =
      ⟨[.write path content],
        .returned (tree.insert path (.file (modeAt tree path 0) content))⟩ := by
  unfold copyTo
  cases disk.copyError tree path with
  | some failure => exact .inl ⟨_, _, rfl⟩
  | none => exact .inr rfl

theorem ensureBelow_emits (tree : FileTree) (done path : List Bytes) :
    (ensureBelow disk tree done path).Emits fun event =>
      ∃ created, event = .createDirectory created ∧ created <+: done ++ path ∧
        created ≠ [] := by
  induction path generalizing tree done with
  | nil => simp [ensureBelow]
  | cons name rest ih =>
      have hsplit : done ++ name :: rest = (done ++ [name]) ++ rest := by simp
      rw [hsplit]
      rcases ensureBelow_cons_cases disk tree done name rest with
        ⟨-, hstep⟩ | ⟨error, hstep⟩ | ⟨-, hstep⟩
      · rw [hstep]
        exact ih _ _
      · rw [hstep]
        simp
      · rw [hstep]
        apply Traced.Emits.bind
        · rw [Traced.emits_emit_iff]
          exact ⟨done ++ [name], rfl, List.prefix_append _ _, by simp⟩
        · intro _ _
          exact ih _ _

/-- All directories on the way are there afterwards. -/
theorem isDirectory_of_ensureBelow {tree tree' : FileTree}
    {done path other : List Bytes}
    (hreturned : (ensureBelow disk tree done path).outcome = .returned tree')
    (hdone : ∀ above, above <+: done → isDirectory tree above = true)
    (hother : other <+: done ++ path) : isDirectory tree' other = true := by
  induction path generalizing tree done with
  | nil =>
      cases hreturned
      rw [List.append_nil] at hother
      exact hdone other hother
  | cons name rest ih =>
      have hsplit : done ++ name :: rest = (done ++ [name]) ++ rest := by simp
      rw [hsplit] at hother
      rcases ensureBelow_cons_cases disk tree done name rest with
        ⟨hlookup, hstep⟩ | ⟨error, hstep⟩ | ⟨-, hstep⟩
      · rw [hstep] at hreturned
        refine ih hreturned ?_ hother
        intro above habove
        rcases List.prefix_concat_iff.mp habove with rfl | habove
        · exact isDirectory_iff.mpr (.inr hlookup)
        · exact hdone above habove
      · rw [hstep] at hreturned
        cases hreturned
      · rw [hstep, Traced.bind_outcome, Traced.emit_outcome,
          Outcome.returned_bind] at hreturned
        refine ih hreturned ?_ hother
        intro above habove
        rcases List.prefix_concat_iff.mp habove with rfl | habove
        · exact isDirectory_iff.mpr (.inr (Finmap.lookup_insert tree))
        · exact keepsDirectories_insert (.inl rfl) above (hdone above habove)

theorem ensureBelow_keepsDirectories {tree tree' : FileTree}
    {done path : List Bytes}
    (hreturned : (ensureBelow disk tree done path).outcome = .returned tree') :
    KeepsDirectories tree tree' := by
  induction path generalizing tree done with
  | nil =>
      cases hreturned
      exact .refl _
  | cons name rest ih =>
      rcases ensureBelow_cons_cases disk tree done name rest with
        ⟨-, hstep⟩ | ⟨error, hstep⟩ | ⟨-, hstep⟩
      · rw [hstep] at hreturned
        exact ih hreturned
      · rw [hstep] at hreturned
        cases hreturned
      · rw [hstep, Traced.bind_outcome, Traced.emit_outcome,
          Outcome.returned_bind] at hreturned
        exact (keepsDirectories_insert (.inl rfl)).trans (ih hreturned)

theorem ensureBelow_returned {tree tree' : FileTree} {path : List Bytes}
    (hreturned : (ensureBelow disk tree [] path).outcome = .returned tree') :
    KeepsDirectories tree tree' ∧
      ∀ other, other <+: path → isDirectory tree' other = true := by
  refine ⟨ensureBelow_keepsDirectories hreturned, fun other hother => ?_⟩
  refine isDirectory_of_ensureBelow hreturned ?_ hother
  intro above habove
  rw [List.prefix_nil.mp habove]
  rfl

theorem openFile_emits (tree : FileTree) (path : List Bytes) (mode : UInt64) :
    (openFile disk tree path mode).Emits fun event =>
      event = .openFile path mode ∧ isDirectory tree path = false := by
  rcases openFile_cases disk tree path mode with
    ⟨error, hopen⟩ | ⟨hfalse, hopen⟩
  · rw [hopen]
    simp
  · rw [hopen]
    simp [Traced.Emits, hfalse]

theorem openFile_returned {tree tree' : FileTree} {path : List Bytes}
    {mode : UInt64}
    (hreturned : (openFile disk tree path mode).outcome = .returned tree') :
    isDirectory tree path = false ∧ isDirectory tree' path = false ∧
      KeepsDirectories tree tree' := by
  rcases openFile_cases disk tree path mode with
    ⟨error, hopen⟩ | ⟨hfalse, hopen⟩
  · rw [hopen] at hreturned
    cases hreturned
  · rw [hopen] at hreturned
    cases hreturned
    have hroot : path ≠ [] := by
      rintro rfl
      simp [isDirectory] at hfalse
    refine ⟨hfalse, ?_, keepsDirectories_insert (.inr hfalse)⟩
    simp [isDirectory, hroot]

theorem copyTo_emits (tree : FileTree) (path : List Bytes) (content : Bytes) :
    (copyTo disk tree path content).Emits fun event =>
      ∃ written, event = .write path written := by
  rcases copyTo_cases disk tree path content with
    ⟨written, error, hcopy⟩ | hcopy
  · rw [hcopy]
    simp [Traced.Emits]
  · rw [hcopy]
    simp [Traced.Emits]

theorem copyTo_returned {tree tree' : FileTree} {path : List Bytes}
    {content : Bytes} (hpath : isDirectory tree path = false)
    (hreturned : (copyTo disk tree path content).outcome = .returned tree') :
    KeepsDirectories tree tree' := by
  rcases copyTo_cases disk tree path content with
    ⟨written, error, hcopy⟩ | hcopy
  · rw [hcopy] at hreturned
    cases hreturned
  · rw [hcopy] at hreturned
    cases hreturned
    exact keepsDirectories_insert (.inr hpath)

variable (disk) in
theorem ensureDir_absoluteText {path : List Bytes}
    (hpath : ∀ part ∈ path, IsName part) (tree : FileTree) :
    ensureDir disk tree (absoluteText path) =
      ensureBelow disk tree [] path := by
  rw [ensureDir, place_absoluteText hpath]

variable (disk) in
theorem ensureDir_dir_absoluteText {path : List Bytes}
    (hpath : ∀ part ∈ path, IsName part) (tree : FileTree) :
    ensureDir disk tree (dir (absoluteText path)) =
      ensureBelow disk tree [] path.dropLast := by
  rw [dir_absoluteText hpath]
  exact ensureDir_absoluteText disk
    (fun part hpart => hpath part (List.mem_of_mem_dropLast hpart)) tree

/-! ### One entry -/

/-- A confined write: the place is below the destination, which is a
directory, so a file that can be opened there is not the destination. -/
theorem writeEntry_emits {tree : FileTree} {root path : List Bytes}
    (entry : TarEntry) (hpath : ∀ part ∈ path, IsName part)
    (hbelow : root <+: path) (hroot : isDirectory tree root = true) :
    (writeEntry disk tree (absoluteText path) entry).Emits
      (DeployEvent.ConfinedTo root) := by
  unfold writeEntry
  rw [ensureDir_dir_absoluteText disk hpath, place_absoluteText hpath]
  apply Traced.Emits.bind
  · intro event hevent
    rcases ensureBelow_emits tree [] path.dropLast event hevent with
      ⟨created, rfl, hcreated, -⟩
    exact List.prefix_or_prefix_of_prefix hbelow
      (hcreated.trans (List.dropLast_prefix path))
  · intro ensured hensured
    have hkeeps := ensureBelow_keepsDirectories hensured
    have hne : isDirectory ensured path = false → path ≠ root := by
      rintro hfalse rfl
      rw [hkeeps path hroot] at hfalse
      cases hfalse
    apply Traced.Emits.bind
    · rw [Traced.emits_mapError_iff]
      intro event hevent
      rcases openFile_emits ensured path entry.mode event hevent with
        ⟨rfl, hfalse⟩
      exact ⟨hbelow, hne hfalse⟩
    · intro opened hopened
      rw [Traced.mapError_outcome,
        Outcome.mapError_eq_returned_iff] at hopened
      have hstrict := hne (openFile_returned hopened).1
      apply Traced.Emits.bind
      · rw [Traced.emits_mapError_iff]
        intro event hevent
        rcases copyTo_emits opened path _ event hevent with ⟨written, rfl⟩
        exact ⟨hbelow, hstrict⟩
      · intro copied _
        split
        · apply Traced.Emits.bind
          · rw [Traced.emits_emit_iff]
            exact ⟨hbelow, hstrict⟩
          · intro _ _
            simp
        · simp

theorem writeEntry_returned {tree tree' : FileTree} {fullPath : Bytes}
    {entry : TarEntry}
    (hreturned : (writeEntry disk tree fullPath entry).outcome =
      .returned tree') :
    KeepsDirectories tree tree' := by
  unfold writeEntry ensureDir at hreturned
  simp only [Traced.bind_outcome, Outcome.bind_eq_returned_iff,
    Traced.mapError_outcome, Outcome.mapError_eq_returned_iff] at hreturned
  rcases hreturned with
    ⟨ensured, hensured, opened, hopened, copied, hcopied, hrest⟩
  rcases openFile_returned hopened with ⟨-, hfile, hopenKeeps⟩
  have hsame : copied = tree' := by
    split at hrest
    · simp at hrest
    · exact Outcome.returned.inj hrest
  subst hsame
  exact ((ensureBelow_keepsDirectories hensured).trans hopenKeeps).trans
    (copyTo_returned hfile hcopied)

theorem clean_join_absoluteText {root : List Bytes} (name : Bytes)
    (hroot : ∀ part ∈ root, IsName part) :
    clean (join [absoluteText root, name]) =
      absoluteText (resolve root (steps name)) := by
  have habs : isAbs (absoluteText root ++ separator :: name) = true := rfl
  have hplace : place (absoluteText root ++ separator :: name) =
      resolve root (steps name) := by
    rw [place, steps_append, resolve_append]
    exact congrArg (resolve · (steps name)) (place_absoluteText hroot)
  rw [join_pair name (by simp [absoluteText]), clean_of_isAbs habs, hplace,
    clean_absoluteText]
  exact isName_of_mem_resolve hroot fun _ => isStep_of_mem_steps

/-- The last of the three checks lets the place through. -/
def PassesCheck (root path : List Bytes) : Prop :=
  ¬ ((absoluteText root ++ [separator]).isPrefixOf (absoluteText path) = false ∧
    absoluteText path ≠ absoluteText root)

theorem PassesCheck.text_prefix_or {root path : List Bytes}
    (hcheck : PassesCheck root path)
    (hroot : ∀ part ∈ root, IsName part)
    (hpath : ∀ part ∈ path, IsName part) :
    absoluteText root ++ [separator] <+: absoluteText path ∨ path = root := by
  by_cases hbegins : (absoluteText root ++ [separator]).isPrefixOf
      (absoluteText path) = true
  · exact .inl (List.isPrefixOf_iff_prefix.mp hbegins)
  · have hsame : absoluteText path = absoluteText root := by
      by_contra hne
      exact hcheck ⟨Bool.eq_false_iff.mpr hbegins, hne⟩
    have hplaces := congrArg place hsame
    rw [place_absoluteText hpath, place_absoluteText hroot] at hplaces
    exact .inr hplaces

theorem PassesCheck.below {root path : List Bytes}
    (hcheck : PassesCheck root path)
    (hroot : ∀ part ∈ root, IsName part)
    (hpath : ∀ part ∈ path, IsName part) : root <+: path := by
  rcases hcheck.text_prefix_or hroot hpath with htext | hsame
  · rcases exists_eq_append_of_text_prefix hroot hpath htext with ⟨rest, rfl⟩
    exact List.prefix_append root rest
  · rw [hsame]

/-- The text of the root already ends in a separator, so there the check asks
for two of them and only the root itself passes. -/
theorem PassesCheck.eq_nil {path : List Bytes} (hcheck : PassesCheck [] path)
    (hpath : ∀ part ∈ path, IsName part) : path = [] := by
  rcases hcheck.text_prefix_or (by simp) hpath with htext | hsame
  · exact eq_nil_of_root_text_prefix hpath htext
  · exact hsame

/-- An entry makes a directory or writes a file at a place that passes the
check, or does nothing. -/
theorem extractEntry_emits_of {P : DeployEvent → Prop} {root : List Bytes}
    {state : FileTree × Bytes} {entry : TarEntry}
    (hroot : ∀ part ∈ root, IsName part)
    (hdir : ∀ path, (∀ part ∈ path, IsName part) → PassesCheck root path →
      (ensureBelow disk state.1 [] path).Emits P)
    (hreg : ∀ path, (∀ part ∈ path, IsName part) → PassesCheck root path →
      (writeEntry disk state.1 (absoluteText path) entry).Emits P) :
    (extractEntry disk (absoluteText root) state entry).Emits P := by
  unfold extractEntry
  dsimp only
  rw [clean_join_absoluteText _ hroot]
  generalize hpath : resolve root (steps (clean entry.name)) = path
  have hnames : ∀ part ∈ path, IsName part := by
    rw [← hpath]
    exact isName_of_mem_resolve hroot fun _ => isStep_of_mem_steps
  apply Traced.emits_failIf_bind
  intro _
  apply Traced.emits_failIf_bind
  intro _
  apply Traced.emits_failIf_bind
  intro hchecked
  split
  · apply Traced.Emits.bind
    · rw [ensureDir_absoluteText disk hnames]
      exact hdir path hnames hchecked
    · intro _ _
      simp
  · apply Traced.Emits.bind
    · exact hreg path hnames hchecked
    · intro _ _
      simp
  · simp

theorem extractEntry_emits {root : List Bytes} {state : FileTree × Bytes}
    (entry : TarEntry) (hroot : ∀ part ∈ root, IsName part)
    (hdirectory : isDirectory state.1 root = true) :
    (extractEntry disk (absoluteText root) state entry).Emits
      (DeployEvent.ConfinedTo root) := by
  refine extractEntry_emits_of hroot ?_ ?_
  · intro path hnames hchecked event hevent
    rcases ensureBelow_emits state.1 [] path event hevent with
      ⟨created, rfl, hcreated, -⟩
    exact List.prefix_or_prefix_of_prefix (hchecked.below hroot hnames) hcreated
  · intro path hnames hchecked
    exact writeEntry_emits entry hnames (hchecked.below hroot hnames) hdirectory

theorem extractEntry_returned {absDestDir : Bytes}
    {state state' : FileTree × Bytes} {entry : TarEntry}
    (hreturned : (extractEntry disk absDestDir state entry).outcome =
      .returned state') :
    KeepsDirectories state.1 state'.1 := by
  unfold extractEntry at hreturned
  dsimp only at hreturned
  rw [Traced.bind_outcome, Outcome.bind_eq_returned_iff] at hreturned
  rcases hreturned with ⟨_, -, hreturned⟩
  rw [Traced.bind_outcome, Outcome.bind_eq_returned_iff] at hreturned
  rcases hreturned with ⟨_, -, hreturned⟩
  rw [Traced.bind_outcome, Outcome.bind_eq_returned_iff] at hreturned
  rcases hreturned with ⟨_, -, hreturned⟩
  split at hreturned
  · rw [Traced.bind_outcome, Outcome.bind_eq_returned_iff] at hreturned
    rcases hreturned with ⟨tree, htree, hstate⟩
    cases hstate
    exact ensureBelow_keepsDirectories htree
  · rw [Traced.bind_outcome, Outcome.bind_eq_returned_iff] at hreturned
    rcases hreturned with ⟨tree, htree, hstate⟩
    cases hstate
    exact writeEntry_returned htree
  · cases hreturned
    exact .refl _

/-! ### Whole archives -/

theorem extractEntries_emits {root : List Bytes} {state : FileTree × Bytes}
    (entries : List TarEntry) (hroot : ∀ part ∈ root, IsName part)
    (hdirectory : isDirectory state.1 root = true) :
    (extractEntries disk (absoluteText root) state entries).Emits
      (DeployEvent.ConfinedTo root) := by
  induction entries generalizing state with
  | nil => simp [extractEntries]
  | cons entry rest ih =>
      rw [extractEntries]
      refine Traced.Emits.bind (extractEntry_emits entry hroot hdirectory) ?_
      intro state' hstate'
      exact ih (extractEntry_returned hstate' root hdirectory)

theorem pathAbs_eq_or {cwd : Bytes} (hdisk : disk.WorksIn cwd)
    (hcwd : isAbs cwd = true) (path : Bytes) :
    pathAbs disk path = .returned (absoluteText (placeIn cwd path)) ∨
      ∃ error, pathAbs disk path = .failed error := by
  rw [← absolute_eq hcwd]
  unfold pathAbs absolute
  split
  · exact .inl rfl
  · cases hgetwd : disk.getwd with
    | error error => exact .inr ⟨error, rfl⟩
    | ok answer =>
        rw [hdisk answer hgetwd]
        exact .inl rfl

theorem Disk.worksIn_of_getwd {cwd : Bytes} (hgetwd : disk.getwd = .ok cwd) :
    disk.WorksIn cwd := by
  intro answer hanswer
  rw [hgetwd] at hanswer
  exact (Except.ok.inj hanswer).symm

theorem pathAbs_of_getwd {cwd : Bytes} (hgetwd : disk.getwd = .ok cwd)
    (hcwd : isAbs cwd = true) (path : Bytes) :
    pathAbs disk path = .returned (absoluteText (placeIn cwd path)) := by
  rw [← absolute_eq hcwd]
  unfold pathAbs absolute
  rw [hgetwd]
  split <;> rfl

def extractAt (disk : Disk) (tree : FileTree) (archive : TarArchive)
    (root : List Bytes) : Traced DeployEvent CoreError Bytes := do
  let tree ← ensureBelow disk tree [] root
  let state ← extractEntries disk (absoluteText root) (tree, []) archive.entries
  Traced.lift (.ofExcept archive.ending)
  pure state.2

theorem extractTarball_eq {destDir : Bytes} {root : List Bytes}
    (hroot : ∀ part ∈ root, IsName part)
    (habs : pathAbs disk destDir = .returned (absoluteText root))
    (tree : FileTree) (archive : TarArchive) :
    extractTarball disk tree archive destDir =
      extractAt disk tree archive root := by
  unfold extractTarball extractAt
  rw [habs]
  change (pure (absoluteText root) >>= _) = _
  rw [Traced.pure_bind]
  dsimp only
  rw [clean_absoluteText hroot, ensureDir_absoluteText disk hroot]

variable (disk) in
theorem extractTarball_of_getwd {cwd : Bytes} (hgetwd : disk.getwd = .ok cwd)
    (hcwd : isAbs cwd = true) (tree : FileTree) (archive : TarArchive)
    (destDir : Bytes) :
    extractTarball disk tree archive destDir =
      extractAt disk tree archive (placeIn cwd destDir) :=
  extractTarball_eq (fun _ => isName_of_mem_placeIn)
    (pathAbs_of_getwd hgetwd hcwd destDir) tree archive

theorem extractTarball_cases {cwd : Bytes} (hdisk : disk.WorksIn cwd)
    (hcwd : isAbs cwd = true) (tree : FileTree) (archive : TarArchive)
    (destDir : Bytes) :
    extractTarball disk tree archive destDir =
      extractAt disk tree archive (placeIn cwd destDir) ∨
    ∃ error, extractTarball disk tree archive destDir = .fail error := by
  rcases pathAbs_eq_or hdisk hcwd destDir with habs | ⟨error, hfailed⟩
  · exact .inl
      (extractTarball_eq (fun _ => isName_of_mem_placeIn) habs tree archive)
  · unfold extractTarball
    rw [hfailed]
    exact .inr ⟨_, rfl⟩

/-- What holds of all events at the destination holds of all events: the other
way for the call to go is that it fails at once. -/
theorem extractTarball_emits_of_extractAt {P : DeployEvent → Prop}
    {cwd : Bytes} (hdisk : disk.WorksIn cwd) (hcwd : isAbs cwd = true)
    {tree : FileTree} {archive : TarArchive} {destDir : Bytes}
    (hat : (extractAt disk tree archive (placeIn cwd destDir)).Emits P) :
    (extractTarball disk tree archive destDir).Emits P := by
  rcases extractTarball_cases hdisk hcwd tree archive destDir with
    hextract | ⟨error, hextract⟩
  · rw [hextract]
    exact hat
  · rw [hextract]
    simp

theorem extractAt_emits {root : List Bytes}
    (hroot : ∀ part ∈ root, IsName part) (tree : FileTree)
    (archive : TarArchive) :
    (extractAt disk tree archive root).Emits (DeployEvent.ConfinedTo root) := by
  unfold extractAt
  apply Traced.Emits.bind
  · intro event hevent
    rcases ensureBelow_emits tree [] root event hevent with
      ⟨created, rfl, hcreated, -⟩
    exact .inr hcreated
  · intro ensured hensured
    have hdirectory :=
      (ensureBelow_returned hensured).2 root (List.prefix_refl root)
    apply Traced.Emits.bind
    · exact extractEntries_emits archive.entries hroot hdirectory
    · intro state _
      apply Traced.emits_lift_bind
      intro _ _
      simp

/-! ### The root of the file system -/

theorem writeEntry_root (tree : FileTree) (entry : TarEntry) :
    (writeEntry disk tree (absoluteText []) entry).events = [] := by
  have hfail : openFile disk tree [] entry.mode =
      .fail (.op "open" (text "is a directory")) := by
    simp [openFile, isDirectory]
  have hopen : openFile disk tree (place (absoluteText [])) entry.mode = _ :=
    hfail
  have hensure : ensureDir disk tree (dir (absoluteText [])) = pure tree := rfl
  unfold writeEntry
  rw [hensure, Traced.pure_bind, hopen]
  rfl

theorem extractEntry_root (state : FileTree × Bytes) (entry : TarEntry) :
    (extractEntry disk (absoluteText []) state entry).Emits fun _ => False := by
  refine extractEntry_emits_of (by simp) ?_ ?_
  · intro path hnames hchecked
    rw [hchecked.eq_nil hnames]
    exact Traced.emits_of_events_eq_nil rfl
  · intro path hnames hchecked
    rw [hchecked.eq_nil hnames]
    exact Traced.emits_of_events_eq_nil (writeEntry_root state.1 entry)

theorem extractEntries_root (state : FileTree × Bytes)
    (entries : List TarEntry) :
    (extractEntries disk (absoluteText []) state entries).Emits
      fun _ => False := by
  induction entries generalizing state with
  | nil => simp [extractEntries]
  | cons entry rest ih =>
      rw [extractEntries]
      refine Traced.Emits.bind (extractEntry_root state entry) ?_
      intro state' _
      exact ih state'

theorem extractAt_root (tree : FileTree) (archive : TarArchive) :
    (extractAt disk tree archive []).Emits fun _ => False := by
  unfold extractAt
  refine Traced.Emits.bind (Traced.emits_of_events_eq_nil rfl) ?_
  intro ensured _
  refine Traced.Emits.bind (extractEntries_root _ _) ?_
  intro state _
  apply Traced.emits_lift_bind
  intro _ _
  simp

end

/-! ### Any other destination can be written to -/

def OnlyDirectories (tree : FileTree) : Prop :=
  ∀ path node, tree.lookup path = some node → node = .directory

theorem onlyDirectories_empty : OnlyDirectories ∅ := by
  intro path node hnode
  simp at hnode

theorem OnlyDirectories.insert {tree : FileTree} (htree : OnlyDirectories tree)
    (path : List Bytes) : OnlyDirectories (tree.insert path .directory) := by
  intro other node hnode
  by_cases hsame : other = path
  · subst hsame
    rw [Finmap.lookup_insert] at hnode
    exact (Option.some.inj hnode).symm
  · rw [Finmap.lookup_insert_of_ne tree hsame] at hnode
    exact htree other node hnode

def Disk.faultless (cwd : Bytes) : Disk where
  getwd := .ok cwd

/-- A disk that can make every directory makes them all, where no file is in
the way. -/
theorem ensureBelow_faultless (disk : Disk)
    (hdisk : ∀ tree path, disk.mkdirError tree path = none) {tree : FileTree}
    (htree : OnlyDirectories tree) (done path : List Bytes) :
    ∃ tree', (ensureBelow disk tree done path).outcome = .returned tree' ∧
      OnlyDirectories tree' ∧
      ∀ other, ¬ other <+: done ++ path →
        tree'.lookup other = tree.lookup other := by
  induction path generalizing tree done with
  | nil => exact ⟨tree, rfl, htree, fun _ _ => rfl⟩
  | cons name rest ih =>
      have hsplit : done ++ name :: rest = (done ++ [name]) ++ rest := by simp
      rw [hsplit]
      unfold ensureBelow
      dsimp only
      split
      next => exact ih htree _
      next hfile => cases htree _ _ hfile
      next =>
        rw [hdisk]
        rcases ih (htree.insert (done ++ [name])) (done ++ [name]) with
          ⟨tree', hreturned, htree', hkept⟩
        refine ⟨tree', ?_, htree', ?_⟩
        · rw [Traced.bind_outcome, Traced.emit_outcome, Outcome.returned_bind]
          exact hreturned
        · intro other hother
          have hne : other ≠ done ++ [name] := by
            rintro rfl
            exact hother (List.prefix_append _ _)
          rw [hkept other hother, Finmap.lookup_insert_of_ne tree hne]

theorem extractEntry_of_isName {root : List Bytes} {entry : TarEntry}
    (hroot : ∀ part ∈ root, IsName part) (hne : root ≠ [])
    (hname : IsName entry.name) (hreg : entry.typeflag = .reg)
    (disk : Disk) (state : FileTree × Bytes) :
    extractEntry disk (absoluteText root) state entry = (do
      let tree ← writeEntry disk state.1
        (absoluteText (root ++ [entry.name])) entry
      pure (tree,
        if entry.mode &&& 0o111 ≠ 0 ∧ state.2 = [] then
          absoluteText (root ++ [entry.name])
        else state.2)) := by
  have hpath : clean (join [absoluteText root, entry.name]) =
      absoluteText (root ++ [entry.name]) := by
    rw [clean_join_absoluteText _ hroot, steps_of_isStep hname.1]
    simp [resolve, descend, hname.2]
  have habs : ¬ isAbs entry.name = true := by
    simp [isAbs_of_isStep hname.1]
  have htraversal : ¬ ((dotDot ++ [separator]).isPrefixOf entry.name = true ∨
      entry.name = dotDot) := by
    rintro (hbegins | hdots)
    · have hmem : separator ∈ entry.name :=
        (List.isPrefixOf_iff_prefix.mp hbegins).subset (by simp)
      exact hname.1.2.2 hmem
    · exact hname.2 hdots
  have hescape : ¬ ((absoluteText root ++ [separator]).isPrefixOf
      (absoluteText (root ++ [entry.name])) = false ∧
        absoluteText (root ++ [entry.name]) ≠ absoluteText root) := by
    rintro ⟨hbegins, -⟩
    rw [absoluteText_concat hne, Bool.eq_false_iff] at hbegins
    apply hbegins
    rw [List.isPrefixOf_iff_prefix]
    exact ⟨entry.name, by simp⟩
  unfold extractEntry
  dsimp only
  rw [clean_of_isName hname, hpath, hreg, Traced.failIf_of_not habs,
    Traced.pure_bind, Traced.failIf_of_not htraversal, Traced.pure_bind,
    Traced.failIf_of_not hescape, Traced.pure_bind]

theorem concat_not_prefix_self (root : List Bytes) (last : Bytes) :
    ¬ root ++ [last] <+: root := by
  intro hbegins
  have hlength := hbegins.length_le
  simp at hlength

theorem openFile_mem (cwd : Bytes) {tree : FileTree} {path : List Bytes}
    {mode : UInt64} (hpath : isDirectory tree path = false)
    (hparent : isDirectory tree path.dropLast = true) :
    .openFile path mode ∈
      (openFile (.faultless cwd) tree path mode).events := by
  have hnot : ¬ isDirectory tree path = true := by simp [hpath]
  have hthere : ¬ (!isDirectory tree path.dropLast) = true := by simp [hparent]
  rw [openFile, if_neg hnot, if_neg hthere]
  exact Traced.mem_events_bind_iff.mpr (.inl (by simp))

theorem openFile_mem_writeEntry (cwd : Bytes) {tree : FileTree}
    {root : List Bytes} {entry : TarEntry} (htree : OnlyDirectories tree)
    (hfree : tree.lookup (root ++ [entry.name]) = none)
    (hnames : ∀ part ∈ root ++ [entry.name], IsName part) :
    .openFile (root ++ [entry.name]) entry.mode ∈
      (writeEntry (.faultless cwd) tree
        (absoluteText (root ++ [entry.name])) entry).events := by
  rcases ensureBelow_faultless (.faultless cwd) (fun _ _ => rfl) htree []
      root with
    ⟨ensured, hensured, -, hkept⟩
  have hlookup : ensured.lookup (root ++ [entry.name]) = none := by
    rw [hkept _ (concat_not_prefix_self root entry.name), hfree]
  unfold writeEntry
  rw [ensureDir_dir_absoluteText _ hnames, List.dropLast_concat,
    place_absoluteText hnames, Traced.mem_events_bind_iff]
  refine .inr ⟨ensured, hensured, ?_⟩
  rw [Traced.mem_events_bind_iff, Traced.mapError_events]
  left
  apply openFile_mem cwd
  · simp [isDirectory, hlookup]
  · rw [List.dropLast_concat]
    exact (ensureBelow_returned hensured).2 root (List.prefix_refl root)

/-- Into an empty file tree, an archive with one plain file is extracted to any
destination but the root. -/
theorem openFile_mem_extractTarball {cwd : Bytes} (hcwd : isAbs cwd = true)
    {destDir : Bytes} {entry : TarEntry} (hne : placeIn cwd destDir ≠ [])
    (hname : IsName entry.name) (hreg : entry.typeflag = .reg) :
    .openFile (placeIn cwd destDir ++ [entry.name]) entry.mode ∈
      (extractTarball (.faultless cwd) ∅ { entries := [entry] }
        destDir).events := by
  have hroot : ∀ part ∈ placeIn cwd destDir, IsName part :=
    fun _ => isName_of_mem_placeIn
  rw [extractTarball_of_getwd (.faultless cwd) rfl hcwd]
  generalize placeIn cwd destDir = root at hne hroot
  rcases ensureBelow_faultless (.faultless cwd) (fun _ _ => rfl)
      onlyDirectories_empty [] root with
    ⟨ensured, hensured, honly, hkept⟩
  have hfree : ensured.lookup (root ++ [entry.name]) = none := by
    rw [hkept _ (concat_not_prefix_self root entry.name), Finmap.lookup_empty]
  have hnames : ∀ part ∈ root ++ [entry.name], IsName part := by
    intro part hpart
    rcases List.mem_append.mp hpart with hold | hnew
    · exact hroot part hold
    · rw [List.mem_singleton.mp hnew]
      exact hname
  unfold extractAt
  rw [Traced.mem_events_bind_iff]
  refine .inr ⟨ensured, hensured, ?_⟩
  rw [Traced.mem_events_bind_iff, extractEntries,
    extractEntry_of_isName hroot hne hname hreg]
  left
  rw [Traced.mem_events_bind_iff, Traced.mem_events_bind_iff]
  exact .inl (.inl (openFile_mem_writeEntry cwd honly hfree hnames))

end GoP2P.Node
