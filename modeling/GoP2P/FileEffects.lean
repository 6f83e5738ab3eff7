import GoP2P.BundleConfinement

/-!
# What an extraction does to the files

The events of a call, applied to the tree it started from, give the tree it left
behind, also when it failed half-way.  A file is created, truncated or rewritten
only by entries that passed the checks on their names; a directory is made only
where there was nothing.
-/

namespace GoP2P.Node

open LexicalPath

/-! ### Events on a tree -/

def fileAt (tree : FileTree) (path : List Bytes) : Option Bytes :=
  match tree.lookup path with
  | some (.file _ content) => some content
  | _ => none

def DeployEvent.apply (tree : FileTree) : DeployEvent → FileTree
  | .createDirectory path => tree.insert path .directory
  | .openFile path mode => tree.insert path (.file (modeAt tree path mode) [])
  | .write path content => tree.insert path (.file (modeAt tree path 0) content)
  | .delete path => tree.erase path
  | .saveProfile _ => tree

def applyAll (tree : FileTree) (events : List DeployEvent) : FileTree :=
  events.foldl DeployEvent.apply tree

@[simp] theorem applyAll_nil (tree : FileTree) : applyAll tree [] = tree := rfl

@[simp] theorem applyAll_cons (tree : FileTree) (event : DeployEvent)
    (events : List DeployEvent) :
    applyAll tree (event :: events) = applyAll (event.apply tree) events := rfl

theorem applyAll_append (tree : FileTree) (first second : List DeployEvent) :
    applyAll tree (first ++ second) = applyAll (applyAll tree first) second :=
  List.foldl_append

theorem fileAt_insert_file (tree : FileTree) (path other : List Bytes)
    (mode : UInt64) (content : Bytes) :
    fileAt (tree.insert path (.file mode content)) other =
      if other = path then some content else fileAt tree other := by
  unfold fileAt
  split_ifs with hother
  · subst hother
    rw [Finmap.lookup_insert]
  · rw [Finmap.lookup_insert_of_ne tree hother]

theorem fileAt_insert_directory {tree : FileTree} {path : List Bytes}
    (hfree : tree.lookup path = none) (other : List Bytes) :
    fileAt (tree.insert path .directory) other = fileAt tree other := by
  unfold fileAt
  by_cases hother : other = path
  · subst hother
    rw [Finmap.lookup_insert, hfree]
  · rw [Finmap.lookup_insert_of_ne tree hother]

/-! ### Calls that return the tree -/

section

universe u

variable {α β : Type u}

/-- The tree in what the call returns is the one that its events lead to. -/
def Performs (tree : FileTree) (after : α → FileTree)
    (call : Traced DeployEvent CoreError α) : Prop :=
  ∀ value, call.outcome = .returned value →
    applyAll tree call.events = after value

/-- Whatever becomes of the call, its events keep the content of every file. -/
def KeepsFiles (tree : FileTree) (call : Traced DeployEvent CoreError α) :
    Prop :=
  ∀ path, fileAt (applyAll tree call.events) path = fileAt tree path

variable {tree : FileTree} {after : α → FileTree} {final : β → FileTree}
  {call : Traced DeployEvent CoreError α}
  {next : α → Traced DeployEvent CoreError β}

theorem performs_pure {value : α} (hvalue : after value = tree) :
    Performs tree after (pure value) := by
  rintro other hother
  cases hother
  exact hvalue.symm

theorem performs_fail (error : CoreError) :
    Performs tree after (.fail error) := by
  intro value hvalue
  cases hvalue

theorem Performs.mapError (hcall : Performs tree after call)
    (wrap : CoreError → CoreError) :
    Performs tree after (call.mapError wrap) := by
  intro value hvalue
  rw [Traced.mapError_outcome, Outcome.mapError_eq_returned_iff] at hvalue
  exact hcall value hvalue

theorem Performs.bind (hcall : Performs tree after call)
    (hnext : ∀ value, call.outcome = .returned value →
      Performs (after value) final (next value)) :
    Performs tree final (call >>= next) := by
  intro result hresult
  rw [Traced.bind_outcome, Outcome.bind_eq_returned_iff] at hresult
  obtain ⟨value, hvalue, hresult⟩ := hresult
  rw [Traced.bind_of_returned hvalue, applyAll_append, hcall value hvalue]
  exact hnext value hvalue result hresult

theorem performs_emit (tree : FileTree) (event : DeployEvent) :
    Performs tree (fun _ => event.apply tree) (Traced.emit event) := by
  intro value _
  rfl

theorem keepsFiles_of_events_eq_nil (hevents : call.events = []) :
    KeepsFiles tree call := by
  intro path
  rw [hevents, applyAll_nil]

theorem KeepsFiles.bind (hcall : KeepsFiles tree call)
    (hperforms : Performs tree after call)
    (hnext : ∀ value, call.outcome = .returned value →
      KeepsFiles (after value) (next value)) :
    KeepsFiles tree (call >>= next) := by
  intro path
  cases hvalue : call.outcome with
  | returned value =>
      rw [Traced.bind_of_returned hvalue, applyAll_append,
        hperforms value hvalue, hnext value hvalue path,
        ← hperforms value hvalue]
      exact hcall path
  | failed | panicked | unfinished =>
      rw [Traced.bind_events_of_not_returned (by simp [hvalue])]
      exact hcall path

end

/-! ### The file system -/

section

variable {disk : Disk}

theorem ensureBelow_performs (tree : FileTree) (done path : List Bytes) :
    Performs tree id (ensureBelow disk tree done path) := by
  induction path generalizing tree done with
  | nil => exact performs_pure rfl
  | cons name rest ih =>
      rcases ensureBelow_cons_cases disk tree done name rest with
        ⟨-, hstep⟩ | ⟨error, hstep⟩ | ⟨-, hstep⟩
      · rw [hstep]
        exact ih _ _
      · rw [hstep]
        exact performs_fail error
      · rw [hstep]
        exact (performs_emit tree _).bind fun _ _ => ih _ _

variable (disk) in
theorem ensureBelow_keepsFiles (tree : FileTree) (done path : List Bytes) :
    KeepsFiles tree (ensureBelow disk tree done path) := by
  induction path generalizing tree done with
  | nil => exact keepsFiles_of_events_eq_nil rfl
  | cons name rest ih =>
      rcases ensureBelow_cons_cases disk tree done name rest with
        ⟨-, hstep⟩ | ⟨error, hstep⟩ | ⟨hfree, hstep⟩
      · rw [hstep]
        exact ih _ _
      · rw [hstep]
        exact keepsFiles_of_events_eq_nil rfl
      · rw [hstep]
        refine KeepsFiles.bind ?_ (performs_emit tree _) fun _ _ => ih _ _
        exact fileAt_insert_directory hfree

theorem openFile_performs (tree : FileTree) (path : List Bytes)
    (mode : UInt64) : Performs tree id (openFile disk tree path mode) := by
  rcases openFile_cases disk tree path mode with ⟨error, hopen⟩ | ⟨-, hopen⟩
  · rw [hopen]
    exact performs_fail error
  · rw [hopen]
    rintro _ ⟨⟩
    rfl

theorem copyTo_performs (tree : FileTree) (path : List Bytes)
    (content : Bytes) : Performs tree id (copyTo disk tree path content) := by
  rcases copyTo_cases disk tree path content with
    ⟨written, error, hcopy⟩ | hcopy
  · rw [hcopy]
    rintro _ ⟨⟩
  · rw [hcopy]
    rintro _ ⟨⟩
    rfl

theorem writeEntry_performs (tree : FileTree) (fullPath : Bytes)
    (entry : TarEntry) :
    Performs tree id (writeEntry disk tree fullPath entry) := by
  unfold writeEntry
  refine (ensureBelow_performs tree [] _).bind fun ensured _ => ?_
  refine ((openFile_performs ensured _ _).mapError _).bind fun opened _ => ?_
  refine ((copyTo_performs opened _ _).mapError _).bind fun copied _ => ?_
  split
  · exact (performs_emit _ _).bind fun _ _ => performs_fail _
  · exact performs_pure rfl

/-! ### Entries -/

/-- Where an entry leads. -/
def TarEntry.target (entry : TarEntry) (root : List Bytes) : List Bytes :=
  resolve root (steps (clean entry.name))

/-- The name of the entry passes the three checks. -/
structure TarEntry.Admitted (entry : TarEntry) (root : List Bytes) : Prop where
  relative : ¬ isAbs (clean entry.name) = true
  inside : ¬ ((dotDot ++ [separator]).isPrefixOf (clean entry.name) = true ∨
    clean entry.name = dotDot)
  checked : PassesCheck root (entry.target root)

instance (entry : TarEntry) (root : List Bytes) :
    Decidable (entry.Admitted root) :=
  decidable_of_iff (_ ∧ _ ∧ ¬ (_ ∧ _))
    ⟨fun h => ⟨h.1, h.2.1, h.2.2⟩, fun h => ⟨h.1, h.2, h.3⟩⟩

theorem TarEntry.isName_of_mem_target (entry : TarEntry) {root : List Bytes}
    (hroot : ∀ part ∈ root, IsName part) :
    ∀ part ∈ entry.target root, IsName part :=
  isName_of_mem_resolve hroot fun _ => isStep_of_mem_steps

/-- What is done for an entry that passed the checks: nothing for links. -/
def unpack (disk : Disk) (root : List Bytes) (state : FileTree × Bytes)
    (entry : TarEntry) : Traced DeployEvent CoreError (FileTree × Bytes) :=
  match entry.typeflag with
  | .dir => do
      let tree ← ensureBelow disk state.1 [] (entry.target root)
      pure (tree, state.2)
  | .reg => do
      let tree ← writeEntry disk state.1 (absoluteText (entry.target root)) entry
      pure (tree,
        if entry.mode &&& 0o111 ≠ 0 ∧ state.2 = [] then
          absoluteText (entry.target root)
        else state.2)
  | _ => pure state

theorem unpack_of_dir {root : List Bytes} {entry : TarEntry} (htype : entry.typeflag = .dir)
    (state : FileTree × Bytes) :
    unpack disk root state entry =
      (do
        let tree ← ensureBelow disk state.1 [] (entry.target root)
        pure (tree, state.2)) := by
  unfold unpack
  rw [htype]

theorem unpack_of_reg {root : List Bytes} {entry : TarEntry} (htype : entry.typeflag = .reg)
    (state : FileTree × Bytes) :
    unpack disk root state entry =
      (do
        let tree ← writeEntry disk state.1 (absoluteText (entry.target root))
          entry
        pure (tree,
          if entry.mode &&& 0o111 ≠ 0 ∧ state.2 = [] then
            absoluteText (entry.target root)
          else state.2)) := by
  unfold unpack
  rw [htype]

theorem unpack_of_link {root : List Bytes} {entry : TarEntry} (hdir : entry.typeflag ≠ .dir)
    (hreg : entry.typeflag ≠ .reg) (state : FileTree × Bytes) :
    unpack disk root state entry = pure state := by
  unfold unpack
  split
  next htype => exact absurd htype hdir
  next htype => exact absurd htype hreg
  next => rfl

theorem extractEntry_of_admitted {root : List Bytes} {entry : TarEntry}
    (hroot : ∀ part ∈ root, IsName part) (hentry : entry.Admitted root)
    (state : FileTree × Bytes) :
    extractEntry disk (absoluteText root) state entry =
      unpack disk root state entry := by
  have hchecked : ¬ ((absoluteText root ++ [separator]).isPrefixOf
        (absoluteText (resolve root (steps (clean entry.name)))) = false ∧
      absoluteText (resolve root (steps (clean entry.name))) ≠
        absoluteText root) := hentry.checked
  have hensure : ensureDir disk state.1
      (absoluteText (resolve root (steps (clean entry.name)))) =
        ensureBelow disk state.1 [] (entry.target root) :=
    ensureDir_absoluteText disk (entry.isName_of_mem_target hroot) state.1
  unfold extractEntry unpack
  dsimp only
  rw [clean_join_absoluteText _ hroot, Traced.failIf_of_not hentry.relative,
    Traced.pure_bind, Traced.failIf_of_not hentry.inside, Traced.pure_bind,
    Traced.failIf_of_not hchecked, Traced.pure_bind, hensure]
  rfl

variable (disk) in
theorem extractEntry_of_not_admitted {root : List Bytes} {entry : TarEntry}
    (hroot : ∀ part ∈ root, IsName part) (hentry : ¬ entry.Admitted root)
    (state : FileTree × Bytes) :
    ∃ error, extractEntry disk (absoluteText root) state entry =
      .fail error := by
  unfold extractEntry
  dsimp only
  rw [clean_join_absoluteText _ hroot]
  by_cases hrelative : isAbs (clean entry.name) = true
  · rw [Traced.failIf_of hrelative]
    exact ⟨_, rfl⟩
  · rw [Traced.failIf_of_not hrelative, Traced.pure_bind]
    by_cases hinside : (dotDot ++ [separator]).isPrefixOf (clean entry.name) =
        true ∨ clean entry.name = dotDot
    · rw [Traced.failIf_of hinside]
      exact ⟨_, rfl⟩
    · rw [Traced.failIf_of_not hinside, Traced.pure_bind, Traced.failIf_of]
      · exact ⟨_, rfl⟩
      · by_contra hchecked
        exact hentry ⟨hrelative, hinside, hchecked⟩

variable (disk) in
theorem extractEntry_cases {root : List Bytes}
    (hroot : ∀ part ∈ root, IsName part) (state : FileTree × Bytes)
    (entry : TarEntry) :
    (∃ error, extractEntry disk (absoluteText root) state entry =
      .fail error) ∨
    (entry.Admitted root ∧
      extractEntry disk (absoluteText root) state entry =
        unpack disk root state entry) := by
  by_cases hentry : entry.Admitted root
  · exact .inr ⟨hentry, extractEntry_of_admitted hroot hentry state⟩
  · exact .inl (extractEntry_of_not_admitted disk hroot hentry state)

theorem unpack_performs (root : List Bytes) (state : FileTree × Bytes)
    (entry : TarEntry) :
    Performs state.1 Prod.fst (unpack disk root state entry) := by
  unfold unpack
  split
  · exact (ensureBelow_performs state.1 [] _).bind fun _ _ => performs_pure rfl
  · exact (writeEntry_performs state.1 _ entry).bind
      fun _ _ => performs_pure rfl
  · exact performs_pure rfl

theorem extractEntry_performs {root : List Bytes}
    (hroot : ∀ part ∈ root, IsName part) (state : FileTree × Bytes)
    (entry : TarEntry) :
    Performs state.1 Prod.fst
      (extractEntry disk (absoluteText root) state entry) := by
  rcases extractEntry_cases disk hroot state entry with
    ⟨error, hextract⟩ | ⟨-, hextract⟩
  · rw [hextract]
    exact performs_fail error
  · rw [hextract]
    exact unpack_performs root state entry

theorem extractEntries_performs {root : List Bytes}
    (hroot : ∀ part ∈ root, IsName part) (state : FileTree × Bytes)
    (entries : List TarEntry) :
    Performs state.1 Prod.fst
      (extractEntries disk (absoluteText root) state entries) := by
  induction entries generalizing state with
  | nil => exact performs_pure rfl
  | cons entry rest ih =>
      exact (extractEntry_performs hroot state entry).bind
        fun state' _ => ih state'

/-! ### No extraction panics -/

theorem ensureBelow_ends (tree : FileTree) (done path : List Bytes) :
    (ensureBelow disk tree done path).outcome.Ends := by
  induction path generalizing tree done with
  | nil => exact Outcome.ends_returned tree
  | cons name rest ih =>
      rcases ensureBelow_cons_cases disk tree done name rest with
        ⟨-, hstep⟩ | ⟨error, hstep⟩ | ⟨-, hstep⟩
      · rw [hstep]
        exact ih _ _
      · rw [hstep]
        exact Outcome.ends_failed error
      · rw [hstep]
        exact Traced.ends_bind (Outcome.ends_returned _) fun _ _ => ih _ _

theorem openFile_ends (tree : FileTree) (path : List Bytes) (mode : UInt64) :
    (openFile disk tree path mode).outcome.Ends := by
  rcases openFile_cases disk tree path mode with ⟨error, hopen⟩ | ⟨-, hopen⟩
  · rw [hopen]
    exact Outcome.ends_failed error
  · rw [hopen]
    exact Outcome.ends_returned _

theorem copyTo_ends (tree : FileTree) (path : List Bytes) (content : Bytes) :
    (copyTo disk tree path content).outcome.Ends := by
  rcases copyTo_cases disk tree path content with
    ⟨written, error, hcopy⟩ | hcopy
  · rw [hcopy]
    exact Outcome.ends_failed error
  · rw [hcopy]
    exact Outcome.ends_returned _

theorem writeEntry_ends (tree : FileTree) (fullPath : Bytes)
    (entry : TarEntry) :
    (writeEntry disk tree fullPath entry).outcome.Ends := by
  unfold writeEntry
  refine Traced.ends_bind (ensureBelow_ends tree [] _) fun ensured _ => ?_
  refine Traced.ends_bind
    (Outcome.ends_mapError_iff.mpr (openFile_ends ensured _ _))
    fun opened _ => ?_
  refine Traced.ends_bind
    (Outcome.ends_mapError_iff.mpr (copyTo_ends opened _ _)) fun copied _ => ?_
  split
  · exact Outcome.ends_failed _
  · exact Outcome.ends_returned _

theorem unpack_ends (root : List Bytes) (state : FileTree × Bytes)
    (entry : TarEntry) : (unpack disk root state entry).outcome.Ends := by
  unfold unpack
  split
  · exact Traced.ends_bind (ensureBelow_ends _ _ _)
      fun _ _ => Outcome.ends_returned _
  · exact Traced.ends_bind (writeEntry_ends _ _ _)
      fun _ _ => Outcome.ends_returned _
  · exact Outcome.ends_returned _

theorem extractEntry_ends {root : List Bytes}
    (hroot : ∀ part ∈ root, IsName part) (state : FileTree × Bytes)
    (entry : TarEntry) :
    (extractEntry disk (absoluteText root) state entry).outcome.Ends := by
  rcases extractEntry_cases disk hroot state entry with
    ⟨error, hextract⟩ | ⟨-, hextract⟩
  · rw [hextract]
    exact Outcome.ends_failed error
  · rw [hextract]
    exact unpack_ends root state entry

theorem extractEntries_ends {root : List Bytes}
    (hroot : ∀ part ∈ root, IsName part) (state : FileTree × Bytes)
    (entries : List TarEntry) :
    (extractEntries disk (absoluteText root) state entries).outcome.Ends := by
  induction entries generalizing state with
  | nil => exact Outcome.ends_returned state
  | cons entry rest ih =>
      exact Traced.ends_bind (extractEntry_ends hroot state entry)
        fun state' _ => ih state'

end

end GoP2P.Node
